import Stencil.Proofs.Checked.Eval
import Stencil.Proofs.Checked.Token
import Stencil.Proofs.Template.Lines
import Stencil.Template.Render

/-!
# Rendering with checked operations

A search for markers gives the offsets of the marker it finds; the texts before and after are
slices.  With those, the excerpts of error messages, the tokens of expressions and the operations of
the evaluator checked, this is the whole way from a template to a rendered text, as it is carried
out on stored texts.  The parser in between takes tokens and has nothing to check: its counts stop
at `maxTokens` and `maxNesting`.

The main result, `ends_without_crash`, says that reading tokens, parsing, evaluating and rendering
never crash, and that each ends with the result of the library, a value or an error.
-/

namespace Stencil.Checked

/-! ### Expressions -/

/-- The expression that a text spells; errors show the text. -/
def parse (src : String) : Guarded TemplateError Expr := do
  let found ← tokens src.toList
  ExceptT.adapt (fun e => .expression src (.form e))
    (settled (Expr.ofTokens (found.items.map Prod.fst) found.fault))

/-- The error of an evaluation as that of a template; a label stands for the expression. -/
def labelled (label : String) : EvalError → TemplateError
  | .undefined name => .undefined name
  | .operand problem => .expression label (.operation problem)

/-- The value of a tree; errors show the label. -/
def Tree.evaluate (tree : Tree) (label : String) (scope : Scope) : Guarded TemplateError Value :=
  ExceptT.adapt (labelled label) (tree.eval scope)

/-- The value of the expression that a text spells. -/
def evaluateText (src : String) (scope : Scope) : Guarded TemplateError Value := do
  let e ← parse src
  (Tree.ofExpr e).evaluate src scope

/-- Parsing does not crash, whatever the text is. -/
theorem parse_eq (src : String) : parse src = settled (Expr.ofText src) := by
  rw [parse, tokens_eq, liftM_ok, pure_bind, adapt_settled, Expr.ofText, Expr.parse]
  cases Expr.ofTokens ((Tokens.ofText src.toList).items.map Prod.fst)
    (Tokens.ofText src.toList).fault <;> rfl

/-- Evaluation does not crash, and its errors show the label. -/
theorem Tree.evaluate_eq (tree : Tree) (label : String) (scope : Scope) :
    tree.evaluate label scope = settled (tree.toExpr.evaluate label scope) := by
  rw [Tree.evaluate, Tree.eval_eq, adapt_settled, Expr.evaluate]
  cases tree.toExpr.eval scope with
  | ok v => rfl
  | error e => cases e <;> rfl

lemma evaluateText_eq (src : String) (scope : Scope) :
    evaluateText src scope = settled (Expr.evaluateText src scope) := by
  rw [evaluateText, Expr.evaluateText, parse_eq]
  refine settled_bind fun e _ => ?_
  rw [Tree.evaluate_eq, Tree.toExpr_ofExpr]

/-! ### Markers -/

/-- The first marker of a text, with the slices before and after it. -/
def firstMarker (form : Form) (src : List Char) : Except Crash (Option Marker) :=
  match Marker.first? form src with
  | none => return none
  | some found => do
    let start := byteLength found.before
    let before ← sliceTo start src
    let after ← sliceFrom (start + byteLength found.raw) src
    return some { found with before, after }

lemma firstMarker_eq (form : Form) (src : List Char) :
    firstMarker form src = .ok (Marker.first? form src) := by
  unfold firstMarker
  cases found : Marker.first? form src with
  | none => rfl
  | some m =>
    have whole := Marker.append_of_first? found
    have before : sliceTo (byteLength m.before) src = .ok m.before :=
      sliceTo_eq (by rw [← List.append_assoc]; exact whole) rfl
    have after : sliceFrom (byteLength m.before + byteLength m.raw) src = .ok m.after :=
      sliceFrom_eq whole (byteLength_append _ _)
    dsimp only
    rw [before, after]
    rfl

/-- The markers of a text, each searched for in what follows the one before. -/
def markers (form : Form) (src : List Char) : Except Crash Markers :=
  match _ : firstMarker form src with
  | .error c => .error c
  | .ok none => return ⟨[], src⟩
  | .ok (some m) => do
    let more ← markers form m.after
    return ⟨m :: more.list, more.rest⟩
termination_by src.length
decreasing_by
  exact Marker.length_after_lt (Except.ok.inj ((firstMarker_eq form src).symm.trans ‹_›))

/-- Searching for all markers does not crash. -/
theorem markers_eq (form : Form) (src : List Char) :
    markers form src = .ok (Markers.ofText form src) := by
  fun_induction markers form src with
  | case1 src c stopped =>
    rw [firstMarker_eq] at stopped
    cases stopped
  | case2 src absent =>
    have absent := Except.ok.inj ((firstMarker_eq form src).symm.trans absent)
    rw [Markers.ofText_of_none absent]
    rfl
  | case3 src m found ih =>
    have found := Except.ok.inj ((firstMarker_eq form src).symm.trans found)
    rw [ih, Markers.ofText_of_some found]
    rfl

/-! ### Templates -/

/-- The marker after a little of the text before it, for error messages. -/
def around (m : Marker) : Except Crash String := do
  return String.ofList ((← excerpt m.before) ++ m.raw)

/-- The error for condition markers that do not pair up at this one. -/
def malformed (problem : BlockProblem) (m : Marker) :
    Guarded TemplateError (List Template.Segment) := do
  throw (.malformed problem (← around m))

/-- Pairs up the condition markers of a template that ends with the text `rest`. -/
def pairUp (rest : List Char) : List Marker → Guarded TemplateError (List Template.Segment)
  | [] => return [.text rest]
  | [opener] => malformed (if opener.isEnd then .strayEnd else .unclosed) opener
  | opener :: closer :: more =>
    if opener.isEnd then malformed .strayEnd opener
    else if closer.isEnd then do
      return .text opener.before :: .block opener closer.before :: (← pairUp rest more)
    else malformed .nested closer

/-- The pieces of text that the conditions leave, in order. -/
def kept (scope : Scope) : List Template.Segment → Guarded TemplateError (List (List Char))
  | [] => return []
  | .text t :: more => do return t :: (← kept scope more)
  | .block condition body :: more => do
    let v ← evaluateText condition.expression scope
    let others ← kept scope more
    return if v.isTruthy then body :: others else others

/-- The template with its blocks kept or dropped. -/
def resolve (src : List Char) (scope : Scope) : Guarded TemplateError (List Char) := do
  let found ← markers .condition src
  let segments ← pairUp found.rest found.list
  return Template.collapse (← kept scope segments)

/-- The text with every substitution marker replaced. -/
def substitute (src : List Char) (scope : Scope) : Guarded TemplateError (List Char) := do
  let found ← markers .substitution src
  let filled ← found.list.mapM fun m => do
    let v ← evaluateText m.expression scope
    return m.before ++ v.toText.toList
  return filled.flatten ++ found.rest

/-- The rendered template. -/
def render (src : String) (scope : Scope) : Guarded TemplateError String := do
  let resolved ← resolve src.toList scope
  return String.ofList (← substitute resolved scope)

lemma malformed_eq (problem : BlockProblem) (m : Marker) :
    malformed problem m = settled (.error (.malformed problem m.around)) := by
  rw [malformed, around, excerpt_eq]
  rfl

lemma pairUp_eq (rest : List Char) (list : List Marker) :
    pairUp rest list = settled (Template.pairUp rest list) := by
  fun_induction pairUp rest list with
  | case1 => rfl
  | case2 opener => exact malformed_eq _ opener
  | case3 opener closer more stray =>
    rw [Template.pairUp, if_pos stray, malformed_eq]
  | case4 opener closer more opens closes ih =>
    rw [Template.pairUp, if_neg opens, if_pos closes, ih]
    exact settled_bind fun segments _ => rfl
  | case5 opener closer more opens nested =>
    rw [Template.pairUp, if_neg opens, if_neg nested, malformed_eq]

lemma kept_eq (scope : Scope) (segments : List Template.Segment) :
    kept scope segments = settled (Template.kept scope segments) := by
  fun_induction kept scope segments with
  | case1 => rfl
  | case2 t more ih =>
    rw [ih, Template.kept]
    exact settled_bind fun others _ => rfl
  | case3 condition body more ih =>
    rw [ih, Template.kept, evaluateText_eq]
    exact settled_bind fun v _ => settled_bind fun others _ => rfl

lemma resolve_eq (src : List Char) (scope : Scope) :
    resolve src scope = settled (Template.resolve src scope) := by
  rw [resolve, markers_eq, liftM_ok, pure_bind, pairUp_eq, Template.resolve, Template.segments]
  refine settled_bind fun segments _ => ?_
  rw [kept_eq]
  exact settled_bind fun pieces _ => rfl

/-- A computation on each item of a list does not crash when none of them does. -/
lemma settled_mapM {ε α β : Type} {f : α → Guarded ε β} {g : α → Except ε β}
    (h : ∀ a, f a = settled (g a)) (list : List α) : list.mapM f = settled (list.mapM g) := by
  induction list with
  | nil => rfl
  | cons a list ih =>
    rw [List.mapM_cons, List.mapM_cons, h, ih]
    exact settled_bind fun b _ => settled_bind fun bs _ => rfl

lemma substitute_eq (src : List Char) (scope : Scope) :
    substitute src scope = settled (Template.substitute src scope) := by
  rw [substitute, markers_eq, liftM_ok, pure_bind, Template.substitute]
  have fill (m : Marker) :
      (do
        let v ← evaluateText m.expression scope
        return m.before ++ v.toText.toList : Guarded TemplateError (List Char)) =
      settled (do
        let v ← Expr.evaluateText m.expression scope
        return m.before ++ v.toText.toList) := by
    rw [evaluateText_eq]
    exact settled_bind fun v _ => rfl
  rw [settled_mapM fill]
  exact settled_bind fun filled _ => rfl

/-- Rendering does not crash, whatever the template and the scope are. -/
theorem render_eq (src : String) (scope : Scope) :
    render src scope = settled (Template.render src scope) := by
  rw [render, resolve_eq, Template.render, Template.renderChars, bind_assoc]
  refine settled_bind fun resolved _ => ?_
  rw [substitute_eq]
  exact settled_bind fun filled _ => rfl

/-- Nothing crashes: every text has its excerpt and its tokens, of which each is read at whatever
place the text is taken up, and parsing a text, evaluating a tree and rendering a template each end
with the result of the library, for all texts, trees and scopes. -/
theorem ends_without_crash :
    (∀ cs : List Char,
      excerpt cs = .ok (Text.excerpt cs) ∧
      read cs = settled (Token.read cs) ∧
      tokens cs = .ok (Tokens.ofText cs)) ∧
    (∀ src : String, parse src = settled (Expr.ofText src)) ∧
    (∀ (tree : Tree) (label : String) (scope : Scope),
      tree.evaluate label scope = settled (tree.toExpr.evaluate label scope)) ∧
    (∀ (src : String) (scope : Scope), render src scope = settled (Template.render src scope)) :=
  ⟨fun cs => ⟨excerpt_eq cs, read_eq cs, tokens_eq cs⟩, parse_eq, Tree.evaluate_eq, render_eq⟩

end Stencil.Checked
