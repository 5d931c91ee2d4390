import Stencil.Files.Path
import Stencil.Files.Tree

/-!
# Where paths lead

Resolving a path follows its names through directories and symbolic links, from the root when the
path starts with a slash and else from the working directory.  A path leads to an entry or to a free
name in a directory; any other path is an error.  At most `maxLinks` links are followed.
-/

namespace Stencil

/-- Why an operation on files fails. -/
inductive FileError where
  | notFound
  | notDirectory
  | isDirectory
  | alreadyExists
  | invalidData
  | linkLoop
  | nameTooLong
  | busy
  | nulInName
  deriving DecidableEq, Repr

/-- How the system describes a failure. -/
def FileError.description : FileError → String
  | .notFound => "No such file or directory (os error 2)"
  | .notDirectory => "Not a directory (os error 20)"
  | .isDirectory => "Is a directory (os error 21)"
  | .alreadyExists => "File exists (os error 17)"
  | .invalidData => "stream did not contain valid UTF-8"
  | .linkLoop => "Too many levels of symbolic links (os error 40)"
  | .nameTooLong => "File name too long (os error 36)"
  | .busy => "Device or resource busy (os error 16)"
  | .nulInName => "file name contained an unexpected NUL byte"

/-- Where a path leads: to an entry, or to a name that a directory does not have. -/
inductive Place where
  | found (loc : Location) (e : Entry)
  | vacant (loc : Location)
  deriving DecidableEq

namespace FileTree

/-- The most symbolic links that one path may go through. -/
def maxLinks : Nat := 40

/-- The longest name of an entry, in bytes. -/
def maxName : Nat := 255

/-- The longest path, in bytes. -/
def maxPath : Nat := 4095

/-- Where a path starts when it is read in the directory `loc`. -/
def startOf (loc : Location) (p : String) : Location :=
  if Path.isAbsolute p then [] else loc

/-- Follows names from a directory; `jump` goes on after a symbolic link.  A link under the last
name is followed only on demand. -/
def walkNames (t : FileTree) (follow : Bool)
    (jump : Location → List String → Except FileError Place) :
    Location → List String → Except FileError Place
  | loc, [] => .ok (.found loc .directory)
  | loc, name :: rest =>
    if name = "." then walkNames t follow jump loc rest
    else if name = ".." then walkNames t follow jump loc.dropLast rest
    else if maxName < name.utf8ByteSize then .error .nameTooLong
    else
      let here := loc ++ [name]
      match t.get? here with
      | none => if rest.isEmpty then .ok (.vacant here) else .error .notFound
      | some .directory => walkNames t follow jump here rest
      | some (.file content mode) =>
        if rest.isEmpty then .ok (.found here (.file content mode)) else .error .notDirectory
      | some (.link target) =>
        if rest.isEmpty && !follow then .ok (.found here (.link target))
        else jump (startOf loc target) (Path.steps target ++ rest)

/-- Follows names from a directory through so many symbolic links at most. -/
def resolveSteps (t : FileTree) (follow : Bool) :
    Nat → Location → List String → Except FileError Place
  | 0 => walkNames t follow fun _ _ => .error .linkLoop
  | links + 1 => walkNames t follow (resolveSteps t follow links)

/-- Refuses paths that name nothing. -/
def checkPath (p : String) : Except FileError Unit :=
  if p.isEmpty then .error .notFound
  else if p.toList.any (· == '\x00') then .error .nulInName
  else if maxPath < p.utf8ByteSize then .error .nameTooLong
  else .ok ()

/-- The path from the root that a path stands for. -/
def fullPath (p : String) : String :=
  Path.join ("/" ++ "/".intercalate workingDirectory) p

/-- Where a path leads. -/
def resolve (t : FileTree) (follow : Bool) (p : String) : Except FileError Place := do
  checkPath p
  t.resolveSteps follow maxLinks (startOf workingDirectory p) (Path.steps p)

/-- The entry that a path leads to. -/
def lookUp (t : FileTree) (follow : Bool) (p : String) : Except FileError (Location × Entry) := do
  match ← t.resolve follow p with
  | .found loc e => return (loc, e)
  | .vacant _ => throw .notFound

/-- Whether a path leads to a directory. -/
def isDirectory (t : FileTree) (p : String) : Bool :=
  match t.lookUp true p with
  | .ok (_, .directory) => true
  | _ => false

/-- The directory that names lead to from the start of a path. -/
def directoryAt (t : FileTree) (p : String) (names : List String) : Except FileError Location := do
  match ← t.resolveSteps true maxLinks (startOf workingDirectory p) (names ++ ["."]) with
  | .found loc _ => return loc
  | .vacant _ => throw .notFound

/-- The location that the last name of a path stands for, for creating an entry there.  When the
path ends in no name of an entry, `special` is the error. -/
def target (t : FileTree) (special : FileError) (p : String) : Except FileError Location := do
  checkPath p
  match (Path.names p).getLast? with
  | none => throw special
  | some last =>
    let directory ← t.directoryAt p (Path.names p).dropLast
    if last = "." ∨ last = ".." then throw special
    else if maxName < last.utf8ByteSize then throw .nameTooLong
    else return directory ++ [last]

/-! ### Reading -/

/-- The text of a file. -/
def readText (t : FileTree) (p : String) : Except FileError String := do
  match (← t.lookUp true p).2 with
  | .file (.text s) _ => return s
  | .file (.binary _) _ => throw .invalidData
  | _ => throw .isDirectory

/-- The permission bits of a file; directories have no bits of their own here. -/
def modeOf (t : FileTree) (p : String) : Except FileError Mode := do
  match (← t.lookUp true p).2 with
  | .file _ mode => return mode
  | _ => return .ofNat 0o755

/-- The entries of the directory that a path leads to, by ascending name. -/
def list (t : FileTree) (p : String) : Except FileError (List (String × Entry)) := do
  match ← t.lookUp true p with
  | (loc, .directory) => return t.children loc
  | _ => throw .notDirectory

/-! ### Changing -/

/-- The tree with a new directory. -/
def createDirectory (t : FileTree) (p : String) : Except FileError FileTree := do
  let loc ← t.target .alreadyExists p
  match t.get? loc with
  | some _ => throw .alreadyExists
  | none => return t.insert loc .directory

/-- The tree with the file at `source` moved to a path, where it replaces a file or a link. -/
def rename (t : FileTree) (source : Location) (p : String) : Except FileError FileTree := do
  let loc ← t.target .busy p
  if Path.endsInSlash p then throw .notDirectory
  match t.get? loc, t.get? source with
  | some .directory, _ => throw .isDirectory
  | _, some e => return (t.erase source).insert loc e
  | _, none => throw .notFound

end FileTree

end Stencil
