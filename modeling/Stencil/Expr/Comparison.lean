import Stencil.Expr.EvalError
import Stencil.Number.Binary
import Stencil.Text.Search

/-!
# Comparisons and membership

Numbers of any two kinds are equal when they are the same float; other values are equal when they
are the same structurally.  Two integers, two texts and any two numbers have an order.  A text holds
the texts that occur in it, a sequence its items and a map its keys.
-/

namespace Stencil.Value

/-- Equality in expressions. -/
def equal (v w : Value) : Bool :=
  match v.float?, w.float? with
  | some a, some b => a == b
  | _, _ => v.same w

/-- The order of two values, if they have one. -/
def compare? : Value → Value → Option Ordering
  | .integer a, .integer b => some (compare a.toInt b.toInt)
  | .text s, .text t => some (compare s t)
  | v, w =>
    match v.float?, w.float? with
    | some a, some b => Number.compare? a b
    | _, _ => none

/-- Whether the order of two values passes a test; refused when they have none. -/
def ordered (op : Operator) (test : Ordering → Bool) (v w : Value) : Except OperandError Value :=
  match compare? v w with
  | some order => .ok (.boolean (test order))
  | none => .error (.unsupported op v.kind w.kind)

/-- Whether the container holds the item. -/
def holds (container item : Value) : Except OperandError Bool :=
  match container, item with
  | .text s, .text t => .ok (Text.occursIn t.toList s.toList)
  | .sequence items, v => .ok (items.any (fun candidate => equal candidate v))
  | .map fields, .text key => .ok (fields.lookup key).isSome
  | _, _ => .error (.unsupported .member item.kind container.kind)

end Stencil.Value
