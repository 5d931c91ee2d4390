import Stencil.Expr.Access
import Stencil.Expr.Arithmetic
import Stencil.Expr.Comparison
import Stencil.Namespace

/-!
# Evaluating expressions

Operands are evaluated from left to right and the first failure is the result.  `and` and `or` give
the operand that decides, and leave the right one alone when the left one decides.
-/

namespace Stencil

/-- The value of an operator for two operands. -/
def Operator.apply (op : Operator) (v w : Value) : Except OperandError Value :=
  match op with
  | .equal => .ok (.boolean (v.equal w))
  | .notEqual => .ok (.boolean (!v.equal w))
  | .less => v.ordered op (· == .lt) w
  | .atMost => v.ordered op (· != .gt) w
  | .greater => v.ordered op (· == .gt) w
  | .atLeast => v.ordered op (· != .lt) w
  | .member => do return .boolean (← w.holds v)
  | .notMember => do return .boolean (!(← w.holds v))
  | .add => v.add w
  | .subtract => v.subtract w
  | .multiply => v.multiply w
  | .divide => v.divide w
  | .floorDivide => v.floorDivide w
  | .remainder => v.remainder w

namespace Expr

/-- A refusal as the failure of an evaluation. -/
def refuse {α : Type} : Except OperandError α → Except EvalError α
  | .ok v => .ok v
  | .error e => .error (.operand e)

mutual

/-- The value of an expression. -/
def eval (scope : Scope) : Expr → Except EvalError Value
  | .literal v => .ok v
  | .reference n =>
    match scope n with
    | some v => .ok v
    | none => .error (.undefined n)
  | .sequence items => do return .sequence (← evalItems scope items)
  | .not operand => do return .boolean (!(← eval scope operand).isTruthy)
  | .negate operand => do refuse (← eval scope operand).negate
  | .and left right => do
    let v ← eval scope left
    if v.isTruthy then eval scope right else return v
  | .or left right => do
    let v ← eval scope left
    if v.isTruthy then return v else eval scope right
  | .binary op left right => do
    let v ← eval scope left
    let w ← eval scope right
    refuse (op.apply v w)
  | .field target name => do refuse ((← eval scope target).field name)
  | .index target position => do
    let v ← eval scope target
    let i ← eval scope position
    refuse (v.index i)

/-- The values of the items of a sequence. -/
def evalItems (scope : Scope) : List Expr → Except EvalError (List Value)
  | [] => .ok []
  | e :: rest => do
    let v ← eval scope e
    return v :: (← evalItems scope rest)

end

end Expr

end Stencil
