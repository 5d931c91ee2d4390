import Stencil.Proofs.Result
import Stencil.Proofs.Template.Scanner
import Stencil.Template.Render

/-!
# Values are data

What a template renders to is laid out before any value is looked at: literals in turn with the
expressions of markers.  The layout depends on the template and on the truth values of its
conditions alone, and not on the bodies of the blocks that they drop (`exists_layout`).  A value
fills its place and changes nothing else, whatever characters its text has.
-/

namespace Stencil.Template

/-! ### Layouts -/

/-- Literals in turn with the contents of markers. -/
inductive Layout where
  | last (literal : List Char)
  | slot (literal content : List Char) (more : Layout)
  deriving DecidableEq

namespace Layout

/-- The text of the layout, with a marker in each place. -/
def source : Layout → List Char
  | .last literal => literal
  | .slot literal content more => literal ++ (['{', '{'] ++ content ++ ['}', '}']) ++ more.source

/-- The text of the layout, with the value of its expression in each place; the first expression
that fails counts. -/
def fill (scope : Scope) : Layout → Except TemplateError (List Char)
  | .last literal => .ok literal
  | .slot literal content more => do
    let v ← Expr.evaluateText (String.ofList (Text.trim content)) scope
    return literal ++ v.toText.toList ++ (← more.fill scope)

/-- The literals, in order. -/
def literals : Layout → List (List Char)
  | .last literal => [literal]
  | .slot literal _ more => literal :: more.literals

/-- The markers of a text that ends with `rest`, as places for values. -/
def ofMarkers (rest : List Char) : List Marker → Layout
  | [] => .last rest
  | m :: more => .slot m.before m.content (ofMarkers rest more)

/-- The layout of a text. -/
def ofText (text : List Char) : Layout :=
  let markers := Markers.ofText .substitution text
  ofMarkers markers.rest markers.list

lemma source_ofMarkers (rest : List Char) (markers : List Marker)
    (h : ∀ m ∈ markers, m.form = .substitution) :
    (ofMarkers rest markers).source = (markers.flatMap fun m => m.before ++ m.raw) ++ rest := by
  induction markers with
  | nil => rfl
  | cons m more ih =>
    obtain ⟨form, others⟩ := List.forall_mem_cons.mp h
    rw [ofMarkers, source, ih others, List.flatMap_cons, List.append_assoc _ _ rest, Marker.raw,
      form]
    rfl

/-- The layout of a text has that text. -/
lemma source_ofText (text : List Char) : (ofText text).source = text := by
  rw [ofText, source_ofMarkers _ _ fun m => Markers.form_of_mem_ofText, Markers.flatten_ofText]

/-- Substitution fills the layout of the text. -/
theorem substitute_eq_fill (text : List Char) (scope : Scope) :
    substitute text scope = (ofText text).fill scope := by
  unfold substitute ofText
  generalize Markers.ofText .substitution text = found
  obtain ⟨markers, rest⟩ := found
  dsimp only
  induction markers with
  | nil => rfl
  | cons m more ih =>
    rw [ofMarkers, fill, ← ih, List.mapM_cons]
    simp only [bind_assoc, pure_bind, List.flatten_cons, List.append_assoc]
    rfl

/-- A filled layout starts with its first literal and the value after it. -/
lemma fill_cons_eq_ok_iff {rest out : List Char} {m : Marker} {more : List Marker}
    {scope : Scope} :
    (ofMarkers rest (m :: more)).fill scope = .ok out ↔
      ∃ v out', Expr.evaluateText m.expression scope = .ok v ∧
        (ofMarkers rest more).fill scope = .ok out' ∧
        out = m.before ++ (v.toText.toList ++ out') := by
  rw [ofMarkers, fill, bind_eq_ok_iff]
  refine exists_congr fun v => ?_
  rw [bind_eq_ok_iff]
  constructor
  · rintro ⟨evaluated, out', filled, same⟩
    cases same
    exact ⟨out', evaluated, filled, List.append_assoc _ _ _⟩
  · rintro ⟨out', evaluated, filled, rfl⟩
    exact ⟨evaluated, out', filled, by rw [List.append_assoc]; rfl⟩

/-- The literals of a layout are parts of its text. -/
lemma literal_infix_source {layout : Layout} {literal : List Char}
    (h : literal ∈ layout.literals) : literal <:+: layout.source := by
  induction layout with
  | last l =>
    rw [List.mem_singleton.mp h]
    exact List.infix_rfl
  | slot l content more ih =>
    rw [source]
    obtain rfl | later := List.mem_cons.mp h
    · exact ⟨[], _, by rw [List.nil_append, List.append_assoc]⟩
    · exact (ih later).trans (List.suffix_append _ _).isInfix

end Layout

/-! ### Truth values -/

/-- The truth values of the conditions, in order. -/
def conditions (scope : Scope) : List Segment → Except TemplateError (List Bool)
  | [] => .ok []
  | .text _ :: more => conditions scope more
  | .block condition _ :: more => do
    let v ← Expr.evaluateText condition.expression scope
    return v.isTruthy :: (← conditions scope more)

/-- The pieces of text that the truth values leave. -/
def selected : List Bool → List Segment → List (List Char)
  | _, [] => []
  | truths, .text t :: more => t :: selected truths more
  | true :: truths, .block _ body :: more => body :: selected truths more
  | false :: truths, .block _ _ :: more => selected truths more
  | [], .block _ _ :: more => selected [] more

/-- The pieces have the same texts and conditions, and the same bodies where the condition is
true. -/
inductive Alike : List Bool → List Segment → List Segment → Prop
  | nil : Alike [] [] []
  | text {truths : List Bool} {s s' : List Segment} (t : List Char) (more : Alike truths s s') :
      Alike truths (.text t :: s) (.text t :: s')
  | block {truth : Bool} {truths : List Bool} {condition condition' : Marker}
      {body body' : List Char} {s s' : List Segment}
      (sameCondition : condition.content = condition'.content)
      (sameBody : truth = true → body = body') (more : Alike truths s s') :
      Alike (truth :: truths) (.block condition body :: s) (.block condition' body' :: s')

/-- What is kept follows from the truth values. -/
lemma kept_eq_selected {scope : Scope} {pieces : List Segment} {truths : List Bool}
    (h : conditions scope pieces = .ok truths) :
    kept scope pieces = .ok (selected truths pieces) := by
  induction pieces generalizing truths with
  | nil => rfl
  | cons piece more ih =>
    cases piece with
    | text t =>
      rw [kept, ih h]
      cases truths <;> rfl
    | block condition body =>
      obtain ⟨v, evaluated, h⟩ := bind_eq_ok_iff.mp h
      obtain ⟨others, found, h⟩ := bind_eq_ok_iff.mp h
      cases h
      rw [kept, evaluated, ih found]
      cases truthy : v.isTruthy with
      | true => simp [truthy, selected, bind, Except.bind, pure, Except.pure]
      | false => simp [truthy, selected, bind, Except.bind, pure, Except.pure]

namespace Alike

variable {truths : List Bool} {s s' : List Segment}

/-- The bodies of dropped blocks leave nothing behind. -/
lemma selected_eq (h : Alike truths s s') : selected truths s' = selected truths s := by
  induction h with
  | nil => rfl
  | @text truths s s' t more ih => cases truths <;> simp only [selected, ih]
  | @block truth truths condition condition' body body' s s' sameCondition sameBody more ih =>
    cases truth with
    | true => simp only [selected, ih, sameBody rfl]
    | false => simp only [selected, ih]

/-- The same conditions have the same truth values. -/
lemma conditions_eq (h : Alike truths s s') (scope : Scope) :
    conditions scope s' = conditions scope s := by
  induction h with
  | nil => rfl
  | text t more ih => exact ih
  | block sameCondition sameBody more ih =>
    rw [conditions, conditions, ih, Marker.expression, Marker.expression, sameCondition]

end Alike

/-! ### Rendering by a layout -/

/-- A template is resolved and rendered by what its truth values leave. -/
lemma render_of_conditions {src : String} {pieces : List Segment} {truths : List Bool}
    {scope : Scope} (split : segments src.toList = .ok pieces)
    (h : conditions scope pieces = .ok truths) :
    resolve src.toList scope = .ok (collapse (selected truths pieces)) ∧
      render src scope =
        ((Layout.ofText (collapse (selected truths pieces))).fill scope).map String.ofList := by
  have resolved : resolve src.toList scope = .ok (collapse (selected truths pieces)) := by
    rw [resolve, split]
    change (kept scope pieces >>= fun texts => pure (collapse texts)) = _
    rw [kept_eq_selected h]
    rfl
  refine ⟨resolved, ?_⟩
  rw [render, renderChars, resolved, ← Layout.substitute_eq_fill]
  change (substitute _ scope >>= fun out => pure (String.ofList out)) = _
  cases substitute (collapse (selected truths pieces)) scope <;> rfl

/-- Values are data.  A template whose markers do not pair up fails alike in every scope.  For any
other and any truth values of its conditions there is one layout that renders it in every scope with
these truth values, and that also renders every template which differs from it in dropped blocks
only. -/
theorem exists_layout (src : String) :
    (∀ e, segments src.toList = .error e → ∀ scope, render src scope = .error e) ∧
      ∀ pieces truths, segments src.toList = .ok pieces →
        ∃ layout : Layout, ∀ scope, conditions scope pieces = .ok truths →
          resolve src.toList scope = .ok layout.source ∧
          render src scope = (layout.fill scope).map String.ofList ∧
          ∀ (src' : String) pieces', segments src'.toList = .ok pieces' →
            Alike truths pieces pieces' →
            resolve src'.toList scope = .ok layout.source ∧
            render src' scope = (layout.fill scope).map String.ofList := by
  constructor
  · intro e malformed scope
    rw [render, renderChars, resolve, malformed]
    rfl
  · intro pieces truths split
    refine ⟨.ofText (collapse (selected truths pieces)), fun scope h => ?_⟩
    rw [Layout.source_ofText]
    obtain ⟨resolved, rendered⟩ := render_of_conditions split h
    refine ⟨resolved, rendered, fun src' pieces' split' alike => ?_⟩
    rw [← alike.selected_eq]
    exact render_of_conditions split' ((alike.conditions_eq scope).trans h)

/-- A value that looks like the end of a block and a marker fills the place of a number. -/
theorem exists_layout_hostile :
    let src := "\x7b? a ?\x7d\x7b\x7b a \x7d\x7d\x7b? end ?\x7d"
    let plain : Scope := fun _ => some (.integer 1)
    let hostile : Scope := fun _ => some (.text "\x7b? end ?\x7d\n\x7b\x7b a \x7d\x7d")
    ∃ layout : Layout, ∀ scope, scope = plain ∨ scope = hostile →
      resolve src.toList scope = .ok layout.source ∧
      render src scope = (layout.fill scope).map String.ofList := by
  intro src plain hostile
  have split : segments src.toList = .ok [.text [], .block ⟨.condition, [], " a ".toList,
      "\x7b\x7b a \x7d\x7d\x7b? end ?\x7d".toList⟩ "\x7b\x7b a \x7d\x7d".toList, .text []] := by
    decide +kernel
  obtain ⟨layout, renders⟩ := (exists_layout src).2 _ [true] split
  refine ⟨layout, fun scope cases => ?_⟩
  have truths : conditions scope [.text [], .block ⟨.condition, [], " a ".toList,
      "\x7b\x7b a \x7d\x7d\x7b? end ?\x7d".toList⟩ "\x7b\x7b a \x7d\x7d".toList, .text []] =
      .ok [true] := by
    obtain rfl | rfl := cases <;> decide +kernel
  exact ⟨(renders scope truths).1, (renders scope truths).2.1⟩

end Stencil.Template
