import Stencil.Expr.EvalError

/-!
# Fields and items

A map gives its fields by name and by key.  A sequence gives its items and a text its characters by
position; negative positions count from the end.
-/

namespace Stencil.Value

/-- The field of a map. -/
def field (target : Value) (name : String) : Except OperandError Value :=
  match target with
  | .map fields =>
    match fields.lookup name with
    | some v => .ok v
    | none => .error (.noField name)
  | v => .error (.fieldless v.kind name)

/-- The element of a list at a position from either end. -/
def element {α : Type} (xs : List α) (position : Int64) : Except OperandError α :=
  let i := if position.toInt < 0 then (xs.length : Int) + position.toInt else position.toInt
  if i < 0 then .error (.outOfRange position)
  else
    match xs[i.toNat]? with
    | some x => .ok x
    | none => .error (.outOfRange position)

/-- The item of a sequence, the character of a text or the value of a key. -/
def index (target position : Value) : Except OperandError Value :=
  match target, position with
  | .sequence items, .integer i => element items i
  | .text s, .integer i => do
    let c ← element s.toList i
    return .text c.toString
  | .map fields, .text key =>
    match fields.lookup key with
    | some v => .ok v
    | none => .error (.noKey key)
  | _, _ => .error (.notIndexable target.kind position.kind)

end Stencil.Value
