import Stencil.Expr.EvalError
import Stencil.Expr.SyntaxError

/-!
# Template errors

A template fails on a name without a value, on condition markers that do not pair up, or on an
expression that cannot be read or evaluated.
-/

namespace Stencil

/-- How condition markers fail to pair up. -/
inductive BlockProblem where
  | strayEnd
  | nested
  | unclosed
  deriving DecidableEq, Repr

/-- The wording of a block problem. -/
def BlockProblem.message : BlockProblem → String
  | .strayEnd => "end without a matching condition"
  | .nested => "conditional blocks cannot be nested"
  | .unclosed => "unclosed conditional block"

/-- What is wrong with an expression. -/
inductive ExprProblem where
  | form (e : SyntaxError)
  | operation (e : OperandError)
  deriving DecidableEq

/-- The wording of an expression problem. -/
def ExprProblem.message : ExprProblem → String
  | .form e => e.message
  | .operation e => e.message

/-- Why a template could not be rendered. -/
inductive TemplateError where
  | undefined (name : String)
  | malformed (problem : BlockProblem) (near : String)
  | expression (src : String) (problem : ExprProblem)
  deriving DecidableEq

/-- The wording of a template error. -/
def TemplateError.message : TemplateError → String
  | .undefined name => s!"name '{name}' is not defined"
  | .malformed problem near => s!"malformed template: {problem.message} near \"{near}\""
  | .expression src problem => s!"invalid expression `{src}`: {problem.message}"

end Stencil
