import Stencil.Table

/-!
# File trees

A file tree lists its entries by location, the names from the root down.  Locations are ordered name
by name, so a directory comes right before what it holds and the entries of a tree are in the order
of a depth-first visit.  Only the root is not listed.  A tree starts out with the working directory
and its parent, and `FileTree.listing` shows what the working directory holds.
-/

namespace Stencil

/-- The names from the root down to an entry. -/
abbrev Location := List String

/-- Permission bits. -/
abbrev Mode := Fin 512

/-- The permission bits among the bits of a number. -/
def Mode.ofNat (bits : Nat) : Mode := ⟨bits % 512, Nat.mod_lt bits (Nat.zero_lt_succ 511)⟩

/-- What a file holds: a text, or bytes that are not the UTF-8 form of one. -/
inductive Content where
  | text (s : String)
  | binary (bytes : List UInt8)
  deriving DecidableEq

/-- The content that bytes form. -/
def Content.ofBytes (bytes : List UInt8) : Content :=
  match String.fromUTF8? ⟨bytes.toArray⟩ with
  | some s => .text s
  | none => .binary bytes

/-- An entry of a file tree. -/
inductive Entry where
  | directory
  | file (content : Content) (mode : Mode)
  | link (target : String)
  deriving DecidableEq

/-- Entries by location. -/
abbrev FileTree := Table Location Entry

namespace FileTree

/-- Where relative paths start.  The directory has parents, so a path can lead out of it. -/
def workingDirectory : Location := ["home", "templates"]

/-- The tree with an empty working directory. -/
def start : FileTree :=
  .ofList [(workingDirectory.dropLast, .directory), (workingDirectory, .directory)]

/-- The name of an entry as an entry of a directory. -/
def nameIn (directory : Location) (loc : Location) : Option String :=
  match loc.getLast? with
  | some name => if loc.dropLast = directory then some name else none
  | none => none

/-- The entries of a directory, by ascending name. -/
def children (t : FileTree) (directory : Location) : List (String × Entry) :=
  t.entries.filterMap fun e => (nameIn directory e.1).map fun name => (name, e.2)

/-- The tree without an entry and all that it holds. -/
def prune (t : FileTree) (loc : Location) : FileTree :=
  t.filter fun l => !loc.isPrefixOf l

/-- A name that no entry of the tree has. -/
def freshName (t : FileTree) : String :=
  let longest := t.keys.foldl (fun n loc => max n ((loc.getLast?.getD "").length)) 0
  String.ofList ('.' :: List.replicate longest '~')

/-- A name as long as a fresh name counts for the length of a path, whatever names the tree has. -/
def freshNameShape : String := ".~~~~~~~~~"

/-- The path from the working directory to a location under it. -/
def relativePath? (loc : Location) : Option String :=
  if workingDirectory.isPrefixOf loc ∧ loc ≠ workingDirectory then
    some ("/".intercalate (loc.drop workingDirectory.length))
  else none

/-- The entries under the working directory with their paths, ordered by path. -/
def listing (t : FileTree) : List (String × Entry) :=
  let entries := t.entries.filterMap fun e => (relativePath? e.1).map fun path => (path, e.2)
  entries.mergeSort fun a b => a.1 ≤ b.1

end FileTree

end Stencil
