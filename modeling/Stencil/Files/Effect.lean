import Stencil.Files.Resolve

/-!
# Programs on file trees

A program on a file tree may fail, and what it changed before it failed stays.  Two programs are
built here: `makeDirectories` creates a directory with the parents that it lacks, and `replaceFile`
puts a finished file in place of whatever file a path leads to, or leaves the tree alone.
-/

namespace Stencil

/-- A program that reads and changes a file tree. -/
abbrev Files (ε α : Type) := ExceptT ε (StateM FileTree) α

namespace Files

/-- Looks at the tree. -/
def read {ε α : Type} (look : FileTree → Except ε α) : Files ε α := do
  match look (← get) with
  | .ok a => return a
  | .error e => throw e

/-- Changes the tree. -/
def update {ε : Type} (change : FileTree → Except ε FileTree) : Files ε Unit := do
  set (← read change)

/-- Runs the program with its errors renamed. -/
def adapt {ε δ α : Type} (rename : ε → δ) (program : Files ε α) : Files δ α :=
  ExceptT.adapt rename program

/-- What a program gives for a tree, and the tree that it leaves. -/
def runOn {ε α : Type} (program : Files ε α) (t : FileTree) : Except ε α × FileTree :=
  (ExceptT.run program).run t

/-- Creates the directory `p`, which may exist already; `parents` is run first when a parent of it
is lacking. -/
def makeDirectory (p : String) (parents : Files FileError Unit) : Files FileError Unit := do
  let attempt : Files FileError Unit := do
    try update (·.createDirectory p)
    catch e => unless (← get).isDirectory p do throw e
  match (← get).createDirectory p with
  | .error .notFound =>
    parents
    attempt
  | _ => attempt

/-- Creates the directory with the given pieces, from the end of its path to the start, and the
parents that it lacks. -/
def makeUpwards (absolute : Bool) : List String → Files FileError Unit
  | [] => return ()
  | piece :: up =>
    if Path.isFiller absolute piece up then makeUpwards absolute up
    else makeDirectory (Path.ofPiecesUp absolute (piece :: up)) (makeUpwards absolute up)

/-- Creates a directory and the parents that it lacks. -/
def makeDirectories (p : String) : Files FileError Unit :=
  if p.isEmpty then return ()
  else makeDirectory p (makeUpwards (Path.isAbsolute p) ((Path.above? p).getD []))

/-- The directory for a file under a fresh name beside `p`.  The file is created by its full path,
so that path has to be within the limits. -/
def stagingDirectory (t : FileTree) (p : String) : Except FileError Location := do
  let directory := Path.directory p
  FileTree.checkPath (Path.join (FileTree.fullPath directory) FileTree.freshNameShape)
  t.directoryAt directory (Path.names directory)

/-- Creates a file under a fresh name beside `p`. -/
def stage (p : String) (content : String) : Files FileError Location := do
  let loc ← read (stagingDirectory · p)
  let staged := loc ++ [(← get).freshName]
  modify (·.insert staged (.file (.text content) (.ofNat 0o600)))
  return staged

/-- Gives a file new permission bits. -/
def setMode (loc : Location) (mode : Mode) : Files FileError Unit := do
  match (← get).get? loc with
  | some (.file content _) => modify (·.insert loc (.file content mode))
  | _ => return ()

/-- Puts a file with this text and these permission bits where a path leads.  The file is written
under a fresh name first and then moved; when it cannot be moved, it is removed again. -/
def replaceFile (p : String) (content : String) (mode : Mode) : Files FileError Unit := do
  let staged ← stage p content
  try
    setMode staged mode
    update (·.rename staged p)
  catch e =>
    modify (·.erase staged)
    throw e

end Files

end Stencil
