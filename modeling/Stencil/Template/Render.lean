import Stencil.Template.Block
import Stencil.Value.Text

/-!
# Rendering

Rendering first keeps or drops the conditional blocks of a template and then replaces every
substitution marker by the text of its value.  Inserted texts are not looked at again.
-/

namespace Stencil.Template

/-- The text with every substitution marker replaced; the first expression that fails counts. -/
def substitute (src : List Char) (scope : Scope) : Except TemplateError (List Char) := do
  let markers := Markers.ofText .substitution src
  let filled ← markers.list.mapM fun m => do
    let v ← Expr.evaluateText m.expression scope
    return m.before ++ v.toText.toList
  return filled.flatten ++ markers.rest

/-- The rendered template, as characters. -/
def renderChars (src : List Char) (scope : Scope) : Except TemplateError (List Char) := do
  substitute (← resolve src scope) scope

/-- The rendered template. -/
def render (src : String) (scope : Scope) : Except TemplateError String := do
  return String.ofList (← renderChars src.toList scope)

end Stencil.Template
