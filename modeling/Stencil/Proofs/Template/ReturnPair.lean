import Stencil.Proofs.Template.Residue
import Stencil.Proofs.Text.ReturnPair

/-!
# Carriage returns before newlines in rendered text

When a template is rendered, a carriage return can come to stand before a newline in three ways: the
pair stands in a text that is left, a block between the two goes away (`MeetsAtBlock`), or a marker
between them gets a value that is empty or starts with a newline (`Layout.MeetsAtValue`).  As long
as no value has a carriage return, there is no other way (`holdsPair_collapse_iff`,
`holdsPair_substitute_iff`).
-/

namespace Stencil.Template

open Text

/-! ### Texts that are left -/

/-- What is left before some text ends in a carriage return, and the text starts with a newline. -/
def MeetsAtBlock (texts : List (List Char)) : Prop :=
  ∃ front p back, texts = front ++ p :: back ∧ (collapse front).getLast? = some '\r' ∧
    p.head? = some '\n'

/-- Leaving out a newline neither makes a pair nor takes one away. -/
lemma holdsPair_appendCollapsed_iff (out piece : List Char) :
    HoldsPair (appendCollapsed out piece) ↔
      HoldsPair out ∨ HoldsPair piece ∨
        (out.getLast? = some '\r' ∧ piece.head? = some '\n') := by
  by_cases meets : out.getLast? = some '\n' ∧ piece.head? = some '\n'
  · obtain ⟨ends, starts⟩ := meets
    obtain ⟨rest, rfl⟩ := List.head?_eq_some_iff.mp starts
    rw [appendCollapsed_newline ends, holdsPair_append_iff, holdsPair_cons_iff, ends]
    simp
  · rw [appendCollapsed_of_not meets, holdsPair_append_iff]

/-- A pair in texts put together stands in one of them or where two meet. -/
theorem holdsPair_collapse_iff (texts : List (List Char)) :
    HoldsPair (collapse texts) ↔ (∃ p ∈ texts, HoldsPair p) ∨ MeetsAtBlock texts := by
  induction texts using List.reverseRecOn with
  | nil => simp [collapse, not_holdsPair_nil, MeetsAtBlock]
  | append_singleton texts q ih =>
    have last : MeetsAtBlock (texts ++ [q]) ↔ MeetsAtBlock texts ∨
        ((collapse texts).getLast? = some '\r' ∧ q.head? = some '\n') := by
      constructor
      · rintro ⟨front, p, back, cut, ends, starts⟩
        obtain rfl | ⟨back, b, rfl⟩ := List.eq_nil_or_concat' back
        · obtain ⟨rfl, same⟩ := List.append_inj' cut rfl
          cases same
          exact .inr ⟨ends, starts⟩
        · rw [← List.cons_append, ← List.append_assoc] at cut
          exact .inl ⟨front, p, back, (List.append_inj' cut rfl).1, ends, starts⟩
      · rintro (⟨front, p, back, rfl, ends, starts⟩ | ⟨ends, starts⟩)
        · exact ⟨front, p, back ++ [q], by simp, ends, starts⟩
        · exact ⟨texts, q, [], rfl, ends, starts⟩
    have step : collapse (texts ++ [q]) = appendCollapsed (collapse texts) q := collapse_append _ _
    rw [step, holdsPair_appendCollapsed_iff, ih, last]
    simp only [List.mem_append, List.mem_singleton, or_and_right, exists_or, exists_eq_left]
    exact or_or_or_comm

/-- The texts that are left are parts of the template. -/
lemma infix_of_kept {src : List Char} {pieces : List Segment} {texts : List (List Char)}
    {scope : Scope} (split : segments src = .ok pieces) (left : kept scope pieces = .ok texts) :
    ∀ t ∈ texts, t <:+: src := by
  obtain ⟨init, rfl, between⟩ := exists_init_of_kept split left
  have whole := Markers.flatten_ofText .condition src
  intro t among
  rcases List.mem_append.mp among with among | among
  · obtain ⟨m, member, rfl⟩ := between t among
    obtain ⟨front, back, cut⟩ := List.append_of_mem member
    rw [cut, List.flatMap_append, List.flatMap_cons, List.append_assoc m.before] at whole
    rw [← whole]
    exact (List.infix_append' _ _ _).trans (List.prefix_append _ _).isInfix
  · rw [List.mem_singleton.mp among]
    exact ⟨_, [], by rw [List.append_nil, whole]⟩

/-! ### Values in their places -/

/-- Some literal ends in a carriage return, and what fills the layout goes on with a newline. -/
def Layout.MeetsAtValue (scope : Scope) : Layout → Prop
  | .last _ => False
  | .slot literal content more =>
    (literal.getLast? = some '\r' ∧ ∃ v rest,
      Expr.evaluateText (String.ofList (trim content)) scope = .ok v ∧
        more.fill scope = .ok rest ∧ (v.toText.toList ++ rest).head? = some '\n') ∨
      more.MeetsAtValue scope

variable {markers : List Marker} {rest out : List Char} {scope : Scope}

/-- A pair in a layout that is filled stands in a literal or where a value follows one. -/
lemma holdsPair_fill_iff
    (noReturn : ∀ m ∈ markers, ∀ v, Expr.evaluateText m.expression scope = .ok v →
      '\r' ∉ v.toText.toList)
    (filled : (Layout.ofMarkers rest markers).fill scope = .ok out) :
    HoldsPair out ↔ (∃ l ∈ (Layout.ofMarkers rest markers).literals, HoldsPair l) ∨
      (Layout.ofMarkers rest markers).MeetsAtValue scope := by
  induction markers generalizing out with
  | nil =>
    cases filled
    simp [Layout.ofMarkers, Layout.literals, Layout.MeetsAtValue]
  | cons m more ih =>
    obtain ⟨noReturn', noReturn⟩ := List.forall_mem_cons.mp noReturn
    obtain ⟨v, out', evaluates, filled', rfl⟩ := Layout.fill_cons_eq_ok_iff.mp filled
    have plain := noReturn' v evaluates
    have inside : ¬ HoldsPair v.toText.toList := fun pair => plain pair.mem
    have atEnd : v.toText.toList.getLast? ≠ some '\r' :=
      fun ends => plain (List.mem_of_getLast? ends)
    have here : (∃ w rest', Expr.evaluateText m.expression scope = .ok w ∧
        (Layout.ofMarkers rest more).fill scope = .ok rest' ∧
          (w.toText.toList ++ rest').head? = some '\n') ↔
        (v.toText.toList ++ out').head? = some '\n' := by
      simp [evaluates, filled']
    rw [holdsPair_append_iff, holdsPair_append_iff, ih noReturn filled', Layout.ofMarkers,
      Layout.literals, Layout.MeetsAtValue, ← Marker.expression, here, List.exists_mem_cons_iff]
    simp only [inside, atEnd, false_and, false_or, or_false, or_assoc]
    rw [or_comm (b := _ ∧ _)]

/-- Markers hold no pair, so a pair in the text of a layout stands in a literal. -/
lemma holdsPair_source_iff (oneLine : ∀ m ∈ markers, '\n' ∉ m.content) :
    HoldsPair (Layout.ofMarkers rest markers).source ↔
      ∃ l ∈ (Layout.ofMarkers rest markers).literals, HoldsPair l := by
  induction markers with
  | nil => simp [Layout.ofMarkers, Layout.literals, Layout.source]
  | cons m more ih =>
    obtain ⟨oneLine', oneLine⟩ := List.forall_mem_cons.mp oneLine
    have inside : ¬ HoldsPair (['{', '{'] ++ m.content ++ ['}', '}']) := by
      intro pair
      have newline : '\n' ∈ ['{', '{'] ++ m.content ++ ['}', '}'] := pair.subset (by simp)
      simp [oneLine'] at newline
    have starts : (['{', '{'] ++ m.content ++ ['}', '}']).head? ≠ some '\n' := by simp
    have ends : (m.before ++ (['{', '{'] ++ m.content ++ ['}', '}'])).getLast? ≠ some '\r' := by
      rw [← List.append_assoc, List.getLast?_append]
      simp
    rw [Layout.ofMarkers, Layout.source, Layout.literals, holdsPair_append_iff,
      holdsPair_append_iff, ih oneLine, List.exists_mem_cons_iff]
    simp only [inside, starts, ends, false_and, and_false, or_false]

/-- As long as no value has a carriage return, a pair in a text with its markers replaced was in the
text before, or it meets at a value. -/
theorem holdsPair_substitute_iff {text : List Char} (h : substitute text scope = .ok out)
    (noReturn : ∀ v, Inserts text scope v → '\r' ∉ v.toText.toList) :
    HoldsPair out ↔ HoldsPair text ∨ (Layout.ofText text).MeetsAtValue scope := by
  rw [Layout.substitute_eq_fill] at h
  have oneLine : ∀ m ∈ (Markers.ofText .substitution text).list, '\n' ∉ m.content := by
    intro m among
    obtain ⟨left, found⟩ := Markers.exists_first?_of_mem among
    exact (Marker.content_of_first? found).2
  have literals : HoldsPair (Layout.ofText text).source ↔
      ∃ l ∈ (Layout.ofText text).literals, HoldsPair l := holdsPair_source_iff oneLine
  rw [Layout.source_ofText] at literals
  rw [literals]
  exact holdsPair_fill_iff (fun m among v evaluates => noReturn v ⟨m, among, evaluates⟩) h

/-! ### Texts without carriage returns -/

/-- Texts without carriage returns are put together without any. -/
lemma return_notMem_collapse {texts : List (List Char)} (noReturn : ∀ p ∈ texts, '\r' ∉ p) :
    '\r' ∉ collapse texts := by
  induction texts using List.reverseRecOn with
  | nil => simp [collapse]
  | append_singleton texts q ih =>
    obtain ⟨before, last⟩ := List.forall_mem_append.mp noReturn
    obtain ⟨t, part, added⟩ := exists_suffix_appendCollapsed (collapse texts) q
    have step : collapse (texts ++ [q]) = appendCollapsed (collapse texts) q := collapse_append _ _
    rw [step, added, List.mem_append, not_or]
    exact ⟨ih before, fun inside => last q List.mem_cons_self (part.subset inside)⟩

/-- A pair in the rendered text of a template without carriage returns comes from a value. -/
lemma not_meetsAtValue {layout : Layout} (noReturn : ∀ l ∈ layout.literals, '\r' ∉ l) :
    ¬ layout.MeetsAtValue scope := by
  induction layout with
  | last l => exact not_false
  | slot l content more ih =>
    obtain ⟨first, others⟩ := List.forall_mem_cons.mp noReturn
    rintro (⟨ends, -⟩ | later)
    · exact first (List.mem_of_getLast? ends)
    · exact ih others later

end Stencil.Template
