import Stencil.Expr
import Stencil.Number.Integer

/-!
# Evaluation errors

Evaluation fails when a name has no value or when an operation refuses its operands.
-/

namespace Stencil

/-- Why an operation refuses its operands. -/
inductive OperandError where
  | overflow
  | divisionByZero
  | moduloByZero
  | repetitionTooLarge
  | notNegatable (operand : Kind)
  | unsupported (op : Operator) (left right : Kind)
  | noField (name : String)
  | fieldless (target : Kind) (name : String)
  | noKey (key : String)
  | outOfRange (position : Int64)
  | notIndexable (target position : Kind)
  deriving DecidableEq

/-- The wording of a refusal. -/
def OperandError.message : OperandError → String
  | .overflow => "integer overflow"
  | .divisionByZero => "division by zero"
  | .moduloByZero => "modulo by zero"
  | .repetitionTooLarge => "repetition too large"
  | .notNegatable k => s!"bad operand type for unary -: '{k.name}'"
  | .unsupported op l r =>
    s!"unsupported operand types for {op.spelling}: '{l.name}' and '{r.name}'"
  | .noField name => s!"no field '{name}'"
  | .fieldless k name => s!"'{k.name}' has no field '{name}'"
  | .noKey key => s!"no key '{key}'"
  | .outOfRange i => s!"index {Number.integerText i} out of range"
  | .notIndexable t i => s!"'{t.name}' cannot be indexed by '{i.name}'"

/-- Why an expression has no value. -/
inductive EvalError where
  | undefined (name : String)
  | operand (e : OperandError)
  deriving DecidableEq

end Stencil
