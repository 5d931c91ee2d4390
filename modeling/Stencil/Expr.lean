import Stencil.Value

/-!
# Expressions

The tree of an expression: literals, names, sequences, the boolean connectives, the operators that
always evaluate both operands, and access to fields and items.
-/

namespace Stencil

/-- The operators that evaluate both operands. -/
inductive Operator where
  | equal
  | notEqual
  | less
  | atMost
  | greater
  | atLeast
  | member
  | notMember
  | add
  | subtract
  | multiply
  | divide
  | floorDivide
  | remainder
  deriving DecidableEq, Repr

/-- How an operator is written. -/
def Operator.spelling : Operator → String
  | .equal => "=="
  | .notEqual => "!="
  | .less => "<"
  | .atMost => "<="
  | .greater => ">"
  | .atLeast => ">="
  | .member => "in"
  | .notMember => "not in"
  | .add => "+"
  | .subtract => "-"
  | .multiply => "*"
  | .divide => "/"
  | .floorDivide => "//"
  | .remainder => "%"

/-- An expression. -/
inductive Expr where
  | literal (v : Value)
  | reference (name : String)
  | sequence (items : List Expr)
  | not (operand : Expr)
  | negate (operand : Expr)
  | and (left right : Expr)
  | or (left right : Expr)
  | binary (op : Operator) (left right : Expr)
  | field (target : Expr) (name : String)
  | index (target position : Expr)
  deriving Inhabited

end Stencil
