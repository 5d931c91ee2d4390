import Stencil.Number.Text
import Stencil.Value

/-!
# The text of a value

`Value.display` is the form of a value inside other values and in descriptions; `Value.toText` is
what a marker is replaced with.  They differ on sequences only, which a marker writes one item a
line.
-/

namespace Stencil.Value

/-- Integral floats below ten to the sixteenth keep a final `.0`, and a tie between two shortest
decimals goes up. -/
def floatStyle : Number.FloatStyle where
  pointedBelow := Nat.pow 10 16
  tieUp := true
  nan := "NaN"
  infinity := "inf"

mutual

/-- The value as text: sequences in square brackets, maps in braces. -/
def display : Value → String
  | .text s => s
  | .integer n => Number.integerText n
  | .float x => floatStyle.text x
  | .boolean b => if b then "true" else "false"
  | .sequence items => "[" ++ ", ".intercalate (displayItems items) ++ "]"
  | .map fields => "\x7b" ++ ", ".intercalate (displayFields fields) ++ "\x7d"

/-- The items of a sequence as texts. -/
def displayItems : List Value → List String
  | [] => []
  | v :: rest => display v :: displayItems rest

/-- The fields of a map as texts, each after its key. -/
def displayFields : List (String × Value) → List String
  | [] => []
  | (k, v) :: rest => (k ++ ": " ++ display v) :: displayFields rest

end

/-- The text that a marker is replaced with. -/
def toText : Value → String
  | .sequence items => "\n".intercalate (displayItems items)
  | v => v.display

theorem displayItems_eq_map (items : List Value) : displayItems items = items.map display := by
  induction items with
  | nil => rfl
  | cons v rest ih => rw [displayItems, ih, List.map_cons]

end Stencil.Value
