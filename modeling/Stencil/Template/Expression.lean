import Stencil.Expr.Eval
import Stencil.Expr.Parser
import Stencil.Template.Error

/-!
# Expressions in templates

A template names an expression by its text.  Errors show that text, except that a name without a
value is reported by itself.
-/

namespace Stencil.Expr

/-- The expression that a text spells; errors show the text. -/
def ofText (src : String) : Except TemplateError Expr :=
  match parse src with
  | .ok e => .ok e
  | .error e => .error (.expression src (.form e))

/-- The value of an expression; errors show the label. -/
def evaluate (e : Expr) (label : String) (scope : Scope) : Except TemplateError Value :=
  match e.eval scope with
  | .ok v => .ok v
  | .error (.undefined name) => .error (.undefined name)
  | .error (.operand problem) => .error (.expression label (.operation problem))

/-- The value of the expression that a text spells. -/
def evaluateText (src : String) (scope : Scope) : Except TemplateError Value := do
  (← ofText src).evaluate src scope

/-- What a text evaluates to when it spells an expression that has a value. -/
theorem evaluateText_of_parse {src : String} {e : Expr} {v : Value} {scope : Scope}
    (spelled : parse src = .ok e) (value : e.eval scope = .ok v) :
    evaluateText src scope = .ok v := by
  rw [evaluateText, ofText, spelled]
  change e.evaluate src scope = _
  rw [evaluate, value]

end Stencil.Expr
