import Stencil.Text.Line

/-!
# Paths

A path is a text with slashes between names.  Joining keeps the text of both parts, and the parent
of a path is the text before its last name, with `.` counting as a name only at the start of a path.
-/

namespace Stencil.Path

/-- Whether the path starts at the root. -/
def isAbsolute (p : String) : Bool := p.toList.head? = some '/'

/-- Whether the path ends in a slash. -/
def endsInSlash (p : String) : Bool := p.toList.getLast? = some '/'

/-- The names in a path. -/
def names (p : String) : List String :=
  ((Text.splitOn '/' p.toList).filter (fun name => !name.isEmpty)).map String.ofList

/-- The names in a path, with a final `.` when it ends in a slash and so must be a directory. -/
def steps (p : String) : List String :=
  if endsInSlash p then names p ++ ["."] else names p

/-- The path `q` as seen from the directory `p`. -/
def join (p q : String) : String :=
  if isAbsolute q then q
  else if p.isEmpty || endsInSlash p then p ++ q
  else p ++ "/" ++ q

/-! ### Parents -/

/-- What stands between the slashes of a path, from its end to its start; the slash that an absolute
path starts with is left out. -/
def piecesUp (p : String) : List String :=
  let relative := if isAbsolute p then p.toList.drop 1 else p.toList
  ((Text.splitOn '/' relative).map String.ofList).reverse

/-- The path of the pieces that are listed from its end to its start. -/
def ofPiecesUp (absolute : Bool) (pieces : List String) : String :=
  let relative := "/".intercalate pieces.reverse
  if absolute then "/" ++ relative else relative

/-- Whether a piece with the pieces `up` before it is no name of its own: an empty one, or a `.`
that does not start a relative path. -/
def isFiller (absolute : Bool) (piece : String) (up : List String) : Bool :=
  piece.isEmpty || (piece = "." && (absolute || !up.isEmpty))

/-- The pieces without the fillers at the end of the path. -/
def dropFillers (absolute : Bool) : List String → List String
  | [] => []
  | piece :: up => if isFiller absolute piece up then dropFillers absolute up else piece :: up

/-- The pieces before the last name of a path; the root and the empty path have no name. -/
def above? (p : String) : Option (List String) :=
  match dropFillers (isAbsolute p) (piecesUp p) with
  | [] => none
  | _ :: up => some up

/-- The path without its last name; the root and the empty path have no parent. -/
def parent? (p : String) : Option String :=
  (above? p).map fun up => ofPiecesUp (isAbsolute p) (dropFillers (isAbsolute p) up)

/-- The directory that a path names an entry of. -/
def directory (p : String) : String :=
  match parent? p with
  | some above => if above.isEmpty then "." else above
  | none => "."

end Stencil.Path
