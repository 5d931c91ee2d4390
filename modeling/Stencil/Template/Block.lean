import Stencil.Template.Expression
import Stencil.Template.Marker

/-!
# Conditional blocks

Condition markers pair up: an opening one with a condition, then one that says `end`.  The text of a
block is kept when its condition is true.  All markers of a template are paired up before any
condition is evaluated, and blocks do not nest.

When a kept piece starts with a newline and the text before it ends with one, that newline is
dropped, so that markers on lines of their own leave no blank lines behind.
-/

namespace Stencil.Template

/-- A piece of a template: text outside blocks, or a block. -/
inductive Segment where
  | text (t : List Char)
  | block (condition : Marker) (body : List Char)
  deriving DecidableEq

/-- Pairs up the condition markers of a template that ends with the text `rest`. -/
def pairUp (rest : List Char) : List Marker → Except TemplateError (List Segment)
  | [] => .ok [.text rest]
  | [opener] =>
    .error (.malformed (if opener.isEnd then .strayEnd else .unclosed) opener.around)
  | opener :: closer :: more =>
    if opener.isEnd then .error (.malformed .strayEnd opener.around)
    else if closer.isEnd then do
      return .text opener.before :: .block opener closer.before :: (← pairUp rest more)
    else .error (.malformed .nested closer.around)

/-- The pieces of a template. -/
def segments (src : List Char) : Except TemplateError (List Segment) :=
  let markers := Markers.ofText .condition src
  pairUp markers.rest markers.list

/-- The pieces of text that the conditions leave, in order. -/
def kept (scope : Scope) : List Segment → Except TemplateError (List (List Char))
  | [] => .ok []
  | .text t :: more => do return t :: (← kept scope more)
  | .block condition body :: more => do
    let v ← Expr.evaluateText condition.expression scope
    let others ← kept scope more
    return if v.isTruthy then body :: others else others

/-- A text with a piece added; where both have a newline at the junction, one is dropped. -/
def appendCollapsed (out piece : List Char) : List Char :=
  match out.getLast?, piece with
  | some '\n', '\n' :: rest => out ++ rest
  | _, _ => out ++ piece

/-- Pieces of text put together. -/
def collapse (pieces : List (List Char)) : List Char :=
  pieces.foldl appendCollapsed []

/-- The template with its blocks kept or dropped. -/
def resolve (src : List Char) (scope : Scope) : Except TemplateError (List Char) := do
  return collapse (← kept scope (← segments src))

end Stencil.Template
