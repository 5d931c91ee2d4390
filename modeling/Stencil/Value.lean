import Stencil.Table

/-!
# Values

The values that templates compute with: texts, 64-bit integers, floats, booleans, sequences and
maps from names to values.  `Value.same` is structural equality, the one that compares containers;
it tells values of different kinds apart and follows the float comparison inside, so NaN differs
from itself and the two zeros agree.
-/

namespace Stencil

/-- A value; the fields of a map are listed by strictly ascending key. -/
inductive Value where
  | text (s : String)
  | integer (n : Int64)
  | float (x : Float)
  | boolean (b : Bool)
  | sequence (items : List Value)
  | map (fields : List (String × Value))
  deriving Inhabited

/-- The kinds of values. -/
inductive Kind where
  | text
  | integer
  | float
  | boolean
  | sequence
  | map
  deriving DecidableEq, Repr

/-- The word for a kind in error messages. -/
def Kind.name : Kind → String
  | .text => "text"
  | .integer => "integer"
  | .float => "float"
  | .boolean => "boolean"
  | .sequence => "sequence"
  | .map => "map"

namespace Value

/-- The kind of a value. -/
def kind : Value → Kind
  | .text _ => .text
  | .integer _ => .integer
  | .float _ => .float
  | .boolean _ => .boolean
  | .sequence _ => .sequence
  | .map _ => .map

/-- The map with the entries of a table as its fields. -/
def ofTable (t : Table String Value) : Value := .map t.entries

/-- Whether a value counts as true: `false`, zeros and empty values do not, NaN does. -/
def isTruthy : Value → Bool
  | .text s => !s.isEmpty
  | .integer n => n != 0
  | .float x => x != 0
  | .boolean b => b
  | .sequence items => !items.isEmpty
  | .map fields => !fields.isEmpty

/-- The float nearest to a number; other values have none. -/
def float? : Value → Option Float
  | .integer n => some (Float.ofInt n.toInt)
  | .float x => some x
  | _ => none

mutual

/-- Structural equality. -/
def same : Value → Value → Bool
  | .text s, .text t => s == t
  | .integer m, .integer n => m == n
  | .float x, .float y => x == y
  | .boolean b, .boolean c => b == c
  | .sequence xs, .sequence ys => sameItems xs ys
  | .map xs, .map ys => sameFields xs ys
  | _, _ => false

/-- Structural equality of two sequences, item by item. -/
def sameItems : List Value → List Value → Bool
  | [], [] => true
  | x :: xs, y :: ys => same x y && sameItems xs ys
  | _, _ => false

/-- Structural equality of two maps, field by field. -/
def sameFields : List (String × Value) → List (String × Value) → Bool
  | [], [] => true
  | (k, x) :: xs, (l, y) :: ys => k == l && (same x y && sameFields xs ys)
  | _, _ => false

end

theorem same_kind {v w : Value} (h : same v w = true) : v.kind = w.kind := by
  cases v <;> cases w <;> simp_all [same, kind]

end Value

end Stencil
