import Stencil.Proofs.Template.Layout
import Stencil.Proofs.Template.Scanner
import Stencil.Proofs.Template.StandaloneBlock

/-!
# The markers that are left

A resolved template has a condition marker in one case only: the last character of a piece that is
left and what follows it make one up (`resolve_leaves_no_condition_iff`).  Resolving replaces
markers by nothing, so a brace before a marker can come to stand before a question mark after it.

Substitution is different: a brace before a marker belongs to the marker, so values without braces
leave no marker behind (`substitute_leaves_no_marker`).
-/

namespace Stencil.Template

/-! ### The pieces that are left -/

/-- The texts between markers are kept, and then the text after the last one. -/
lemma exists_init_of_kept {rest : List Char} {markers : List Marker} {pieces : List Segment}
    {texts : List (List Char)} {scope : Scope} (paired : pairUp rest markers = .ok pieces)
    (left : kept scope pieces = .ok texts) :
    ∃ init, texts = init ++ [rest] ∧ ∀ t ∈ init, ∃ m ∈ markers, t = m.before := by
  fun_induction pairUp rest markers generalizing pieces texts with
  | case1 =>
    cases paired
    cases left
    exact ⟨[], rfl, by simp⟩
  | case2 => cases paired
  | case3 => cases paired
  | case4 opener closer more noEnd isEnd ih =>
    obtain ⟨s, others, paired⟩ := bind_eq_ok_iff.mp paired
    cases paired
    obtain ⟨afterText, leftBlock, same⟩ := bind_eq_ok_iff.mp left
    obtain ⟨v, -, leftMore⟩ := bind_eq_ok_iff.mp leftBlock
    obtain ⟨afterBlock, found, same'⟩ := bind_eq_ok_iff.mp leftMore
    cases same'
    cases same
    obtain ⟨init, rfl, between⟩ := ih others found
    have between' : ∀ t ∈ init, ∃ m ∈ opener :: closer :: more, t = m.before := by
      intro t inside
      obtain ⟨m, among, same⟩ := between t inside
      exact ⟨m, by simp [among], same⟩
    split
    · exact ⟨opener.before :: closer.before :: init, by simp, by simpa using between'⟩
    · exact ⟨opener.before :: init, by simp, by simpa using between'⟩
  | case5 => cases paired

/-- The texts that are left are settled, but for the last one, which has no marker. -/
lemma settled_of_kept {src : List Char} {pieces : List Segment} {texts : List (List Char)}
    {scope : Scope} (split : segments src = .ok pieces) (left : kept scope pieces = .ok texts) :
    ∃ init last, texts = init ++ [last] ∧ (∀ t ∈ init, Form.condition.Settled t) ∧
      Marker.first? .condition last = none := by
  obtain ⟨init, rfl, between⟩ := exists_init_of_kept split left
  refine ⟨init, _, rfl, fun t inside => ?_, Markers.first?_rest .condition src⟩
  obtain ⟨m, among, rfl⟩ := between t inside
  obtain ⟨text, found⟩ := Markers.exists_first?_of_mem among
  exact Marker.settled_before found

/-! ### Where a part of the resolved text starts -/

/-- A piece adds an end of itself. -/
lemma exists_suffix_appendCollapsed (out piece : List Char) :
    ∃ t, t <:+ piece ∧ appendCollapsed out piece = out ++ t := by
  unfold appendCollapsed
  split
  · exact ⟨_, List.suffix_cons _ _, rfl⟩
  · exact ⟨_, List.suffix_rfl, rfl⟩

/-- Every end of the resolved text starts in one of the pieces. -/
lemma exists_piece_of_suffix {texts : List (List Char)} {s : List Char}
    (h : s <:+ collapse texts) (nonempty : s ≠ []) :
    ∃ front p back t y, texts = front ++ p :: back ∧ t ≠ [] ∧ t <:+ p ∧
      t <:+ collapse (front ++ [p]) ∧ collapse texts = collapse (front ++ [p]) ++ y ∧
      s = t ++ y := by
  induction texts using List.reverseRecOn generalizing s with
  | nil => exact absurd (List.suffix_nil.mp h) nonempty
  | append_singleton texts q ih =>
    obtain ⟨added, part, whole⟩ := exists_suffix_appendCollapsed (collapse texts) q
    have whole' : collapse (texts ++ [q]) = collapse texts ++ added := by
      rw [collapse_append]
      exact whole
    by_cases inAdded : s <:+ added
    · refine ⟨texts, q, [], s, [], rfl, nonempty, inAdded.trans part, ?_, by simp, by simp⟩
      exact whole' ▸ inAdded.trans (List.suffix_append _ _)
    · obtain ⟨x, cut⟩ := h
      rw [whole'] at cut
      obtain ⟨s', before, rfl⟩ | ⟨s', rfl, rfl⟩ := List.append_eq_append_iff.mp cut
      · have startsBefore : s' ≠ [] := by
          rintro rfl
          exact inAdded List.suffix_rfl
        obtain ⟨front, p, back, t, y, rfl, ht, inPiece, inFront, rest, rfl⟩ :=
          ih ⟨x, before.symm⟩ startsBefore
        refine ⟨front, p, back ++ [q], t, y ++ added, by simp, ht, inPiece, inFront, ?_, by simp⟩
        rw [whole', rest, List.append_assoc]
      · exact absurd (List.suffix_append _ _) inAdded

/-! ### Condition markers -/

/-- Some of the texts end in a brace, and with what follows it makes up a condition marker. -/
def Rejoined (texts : List (List Char)) : Prop :=
  ∃ front back x w, texts = front ++ back ∧ Form.condition.IsMarker w ∧
    collapse front = x ++ ['{'] ∧ x ++ w <+: collapse texts

/-- Settled texts make up a condition marker only where two of them meet. -/
theorem first?_collapse_eq_none_iff {init : List (List Char)} {last : List Char}
    (settled : ∀ t ∈ init, Form.condition.Settled t) (h : Marker.first? .condition last = none) :
    Marker.first? .condition (collapse (init ++ [last])) = none ↔ ¬ Rejoined (init ++ [last]) := by
  constructor
  · rintro none ⟨front, back, x, w, -, isMarker, -, z, whole⟩
    exact Marker.first?_eq_none_iff.mp none w isMarker ⟨x, z, whole⟩
  · intro apart
    refine Marker.first?_eq_none_iff.mpr fun w isMarker ⟨x, z, whole⟩ => ?_
    rw [List.append_assoc] at whole
    obtain ⟨front, p, back, t, y, pieces, ht, inPiece, ⟨x', inFront⟩, rest, starts⟩ :=
      exists_piece_of_suffix ⟨x, whole⟩ (by simp [Form.ne_nil_of_isMarker isMarker])
    match t with
    | [c] =>
      have brace : c = '{' := by
        obtain ⟨content, -, -, rfl⟩ := isMarker
        cases starts
        rfl
      subst brace
      refine apart ⟨front ++ [p], back, x', w, by simp [pieces], isMarker, inFront.symm, z, ?_⟩
      rw [rest, ← inFront, List.append_assoc, starts, List.append_assoc]
    | c :: d :: t =>
      obtain rfl | ⟨back', b, rfl⟩ := List.eq_nil_or_concat back
      · obtain ⟨rfl, same⟩ := List.append_inj' pieces rfl
        cases same
        obtain rfl : y = [] := by simpa using rest
        rw [List.append_nil] at starts
        exact Marker.first?_eq_none_iff.mp h w isMarker
          (List.IsInfix.trans ⟨[], z, starts⟩ inPiece.isInfix)
      · have among : p ∈ init := by
          have cut : init ++ [last] = (front ++ p :: back') ++ [b] := by simp [pieces]
          rw [(List.append_inj' cut rfl).1]
          simp
        exact settled p among _ inPiece (by simp) w y isMarker ⟨z, starts⟩

/-- A text without a condition marker is resolved to itself. -/
lemma resolve_of_first?_eq_none {text : List Char} (h : Marker.first? .condition text = none)
    (scope : Scope) : resolve text scope = .ok text := by
  rw [resolve, segments, Markers.ofText_of_none h]
  rfl

/-- A text without a substitution marker is substituted by itself. -/
lemma substitute_of_first?_eq_none {text : List Char}
    (h : Marker.first? .substitution text = none) (scope : Scope) :
    substitute text scope = .ok text := by
  rw [substitute, Markers.ofText_of_none h]
  rfl

/-- A text without an opening brace renders to itself. -/
lemma render_of_notMem {src : String} (h : '{' ∉ src.toList) (scope : Scope) :
    render src scope = .ok src := by
  rw [render, renderChars,
    resolve_of_first?_eq_none (Marker.first?_eq_none_of_notMem h) scope]
  change (substitute src.toList scope).map String.ofList = _
  rw [substitute_of_first?_eq_none (Marker.first?_eq_none_of_notMem h) scope]
  exact congrArg Except.ok String.ofList_toList

/-! ### Markers around values -/

/-- The value of a marker of the text. -/
def Inserts (text : List Char) (scope : Scope) (v : Value) : Prop :=
  ∃ m ∈ (Markers.ofText .substitution text).list, Expr.evaluateText m.expression scope = .ok v

/-- A character that is not in the value stands in the literal before it or after it. -/
lemma exists_of_append_eq {l v out x u : List Char} {c : Char} (h : l ++ (v ++ out) = x ++ c :: u)
    (notMem : c ∉ v) :
    (∃ l', l = x ++ c :: l' ∧ u = l' ++ (v ++ out)) ∨
      ∃ x', x = l ++ v ++ x' ∧ out = x' ++ c :: u := by
  obtain ⟨s, rfl, after⟩ | ⟨s, rfl, after⟩ := List.append_eq_append_iff.mp h
  · obtain ⟨s', rfl, rest⟩ | ⟨s', rfl, rest⟩ := List.append_eq_append_iff.mp after
    · exact .inr ⟨s', by simp, rest⟩
    · cases s' with
      | nil => exact .inr ⟨[], by simp, rest.symm⟩
      | cons d s' =>
        cases rest
        simp at notMem
  · cases s with
    | nil =>
      cases v with
      | nil => exact .inr ⟨[], by simp, after.symm⟩
      | cons d v =>
        cases after
        simp at notMem
    | cons d s =>
      cases after
      exact .inl ⟨s, rfl, rfl⟩

/-- Two characters in a row that are not in the value stand in the literal before it or after it. -/
lemma exists_of_append_eq_pair {l v out x u : List Char} {c d : Char}
    (h : l ++ (v ++ out) = x ++ c :: d :: u) (nonempty : v ≠ []) (hc : c ∉ v) (hd : d ∉ v) :
    (∃ l', l = x ++ c :: d :: l' ∧ u = l' ++ (v ++ out)) ∨
      ∃ x', x = l ++ v ++ x' ∧ out = x' ++ c :: d :: u := by
  obtain ⟨l', before, after⟩ | afterwards := exists_of_append_eq h hc
  · cases l' with
    | nil =>
      obtain ⟨first, others, rfl⟩ := List.exists_cons_of_ne_nil nonempty
      obtain rfl := (List.cons.inj after).1
      exact absurd List.mem_cons_self hd
    | cons first l' =>
      obtain ⟨rfl, rest⟩ := List.cons.inj after
      exact .inl ⟨l', before, rest⟩
  · exact .inr afterwards

/-! ### Substitution markers -/

/-- A brace before a substitution marker belongs to the marker. -/
lemma getLast?_before {cs : List Char} {m : Marker}
    (h : Marker.first? .substitution cs = some m) : m.before.getLast? ≠ some '{' := by
  intro ends
  obtain ⟨b, before⟩ := List.getLast?_eq_some_iff.mp ends
  have oneLine := (Marker.content_of_first? h).2
  refine Marker.not_prefix_of_suffix_before h ⟨b, before.symm⟩ (by simp)
    ⟨'{' :: m.content, by simp, by simpa using oneLine, rfl⟩ ⟨m.after, ?_⟩
  simp [Marker.raw, Marker.form_of_first? h, Form.opening]

/-- Values without braces leave no substitution marker when they fill a layout. -/
lemma first?_fill_eq_none {markers : List Marker} {rest out : List Char} {scope : Scope}
    (found : ∀ m ∈ markers, ∃ left, Marker.first? .substitution left = some m)
    (h : Marker.first? .substitution rest = none)
    (braceFree : ∀ m ∈ markers, ∀ v, Expr.evaluateText m.expression scope = .ok v →
      '{' ∉ v.toText.toList)
    (filled : (Layout.ofMarkers rest markers).fill scope = .ok out) :
    Marker.first? .substitution out = none := by
  induction markers generalizing out with
  | nil =>
    cases filled
    exact h
  | cons m more ih =>
    obtain ⟨⟨left, first⟩, found⟩ := List.forall_mem_cons.mp found
    obtain ⟨noBrace, braceFree⟩ := List.forall_mem_cons.mp braceFree
    obtain ⟨v, out', evaluates, filled', rfl⟩ := Layout.fill_cons_eq_ok_iff.mp filled
    have noBrace := noBrace v evaluates
    have after : Marker.first? .substitution (v.toText.toList ++ out') = none :=
      Marker.first?_append_eq_none (Form.settled_of_notMem noBrace)
        (fun ends => absurd (List.mem_of_getLast? ends) noBrace) (ih found braceFree filled')
    exact Marker.first?_append_eq_none (Marker.settled_before first)
      (fun ends => absurd ends (getLast?_before first)) after

/-- Substitution leaves no substitution marker behind when no inserted text has an opening brace,
and then changes nothing when it is done again in any scope; and so does rendering. -/
theorem substitute_leaves_no_marker :
    (∀ (src : List Char) scope out, substitute src scope = .ok out →
      (∀ v, Inserts src scope v → '{' ∉ v.toText.toList) →
      Marker.first? .substitution out = none ∧ ∀ scope', substitute out scope' = .ok out) ∧
    ∀ (src : String) scope out, render src scope = .ok out →
      (∀ text, resolve src.toList scope = .ok text →
        ∀ v, Inserts text scope v → '{' ∉ v.toText.toList) →
      Marker.first? .substitution out.toList = none ∧
        ∀ scope', substitute out.toList scope' = .ok out.toList := by
  have substituted : ∀ (src : List Char) scope out, substitute src scope = .ok out →
      (∀ v, Inserts src scope v → '{' ∉ v.toText.toList) →
      Marker.first? .substitution out = none ∧ ∀ scope', substitute out scope' = .ok out := by
    intro src scope out h braceFree
    rw [Layout.substitute_eq_fill] at h
    have none : Marker.first? .substitution out = none :=
      first?_fill_eq_none (fun m => Markers.exists_first?_of_mem) (Markers.first?_rest _ src)
        (fun m among v evaluates => braceFree v ⟨m, among, evaluates⟩) h
    exact ⟨none, substitute_of_first?_eq_none none⟩
  refine ⟨substituted, fun src scope out h braceFree => ?_⟩
  obtain ⟨chars, rendered, h⟩ := bind_eq_ok_iff.mp h
  cases h
  obtain ⟨text, resolved, filled⟩ := bind_eq_ok_iff.mp rendered
  rw [String.toList_ofList]
  exact substituted text scope chars filled (braceFree text resolved)

/-- A value that closes a brace before it leaves no marker behind. -/
theorem substitute_leaves_no_marker_closing :
    let src := "\x7b\n\x7b\x7b a \x7d\x7d\x7d".toList
    let scope : Scope := fun _ => some (.text "\x7d\x7d")
    let out := "\x7b\n\x7d\x7d\x7d".toList
    substitute src scope = .ok out ∧ Marker.first? .substitution out = none ∧
      substitute out (fun _ => none) = .ok out := by
  intro src scope out
  have filled : substitute src scope = .ok out := by decide +kernel
  have texts : ∀ m ∈ (Markers.ofText .substitution src).list,
      (Expr.evaluateText m.expression scope).map Value.toText = .ok "\x7d\x7d" := by decide +kernel
  have noBrace : ∀ v, Inserts src scope v → '{' ∉ v.toText.toList := by
    rintro v ⟨m, among, evaluates⟩
    have text := texts m among
    rw [evaluates] at text
    rw [Except.ok.inj text]
    decide
  have left := substitute_leaves_no_marker.1 src scope out filled noBrace
  exact ⟨filled, left.1, left.2 _⟩

/-! ### Condition markers around values -/

/-- The text of the value is not empty and has no character of a condition marker's delimiters. -/
structure Plain (v : Value) : Prop where
  nonempty : v.toText.toList ≠ []
  noBrace : '{' ∉ v.toText.toList
  noMark : '?' ∉ v.toText.toList
  noClosing : '}' ∉ v.toText.toList

/-- The marker is on one line, and its value is plain. -/
structure PlainMarker (scope : Scope) (m : Marker) : Prop where
  oneLine : '\n' ∉ m.content
  plain : ∀ v, Expr.evaluateText m.expression scope = .ok v → Plain v

section

variable {markers : List Marker} {rest out x : List Char} {scope : Scope}

/-- After an opening delimiter among plain values, a layout of its own is filled; in the text it
stands after an opening delimiter too. -/
lemma exists_opening_of_fill {u : List Char} (plain : ∀ m ∈ markers, PlainMarker scope m)
    (filled : (Layout.ofMarkers rest markers).fill scope = .ok out)
    (cut : out = x ++ '{' :: '?' :: u) :
    ∃ rest' markers' x', (∀ m ∈ markers', PlainMarker scope m) ∧
      (Layout.ofMarkers rest' markers').fill scope = .ok u ∧
      (Layout.ofMarkers rest markers).source =
        x' ++ '{' :: '?' :: (Layout.ofMarkers rest' markers').source := by
  induction markers generalizing out x with
  | nil =>
    cases filled
    exact ⟨u, [], x, by simp, rfl, cut⟩
  | cons m more ih =>
    obtain ⟨plain', plain⟩ := List.forall_mem_cons.mp plain
    obtain ⟨v, out', evaluates, filled', rfl⟩ := Layout.fill_cons_eq_ok_iff.mp filled
    have plainV := plain'.plain v evaluates
    obtain ⟨l, before, rfl⟩ | ⟨x', rfl, rfl⟩ :=
      exists_of_append_eq_pair cut plainV.nonempty plainV.noBrace plainV.noMark
    · refine ⟨rest, { m with before := l } :: more, x, ?_, ?_, ?_⟩
      · exact List.forall_mem_cons.mpr ⟨⟨plain'.oneLine, plain'.plain⟩, plain⟩
      · exact Layout.fill_cons_eq_ok_iff.mpr ⟨v, out', evaluates, filled', rfl⟩
      · simp [Layout.ofMarkers, Layout.source, before]
    · obtain ⟨rest', markers', x'', plain'', filled'', source⟩ := ih plain filled' rfl
      refine ⟨rest', markers', m.before ++ (['{', '{'] ++ m.content ++ ['}', '}']) ++ x'', plain'',
        filled'', ?_⟩
      rw [Layout.ofMarkers, Layout.source, source]
      simp

/-- A closing delimiter after plain values on a line stands after the markers in their places. -/
lemma exists_closing_of_fill {y : List Char} (plain : ∀ m ∈ markers, PlainMarker scope m)
    (filled : (Layout.ofMarkers rest markers).fill scope = .ok out)
    (cut : out = x ++ '?' :: '}' :: y) (line : '\n' ∉ x) :
    ∃ x' y', (Layout.ofMarkers rest markers).source = x' ++ '?' :: '}' :: y' ∧ '\n' ∉ x' ∧
      (x ≠ [] → x' ≠ []) := by
  induction markers generalizing out x with
  | nil =>
    cases filled
    exact ⟨x, y, cut, line, id⟩
  | cons m more ih =>
    obtain ⟨plain', plain⟩ := List.forall_mem_cons.mp plain
    obtain ⟨v, out', evaluates, filled', rfl⟩ := Layout.fill_cons_eq_ok_iff.mp filled
    have plainV := plain'.plain v evaluates
    obtain ⟨l, before, -⟩ | ⟨x', rfl, rfl⟩ :=
      exists_of_append_eq_pair cut plainV.nonempty plainV.noMark plainV.noClosing
    · refine ⟨x, l ++ (['{', '{'] ++ m.content ++ ['}', '}'] ++
        (Layout.ofMarkers rest more).source), ?_, line, id⟩
      simp [Layout.ofMarkers, Layout.source, before]
    · simp only [List.mem_append, not_or] at line
      obtain ⟨x'', y', source, line', -⟩ := ih plain filled' rfl line.2
      refine ⟨m.before ++ (['{', '{'] ++ m.content ++ ['}', '}']) ++ x'', y', ?_, ?_, by simp⟩
      · rw [Layout.ofMarkers, Layout.source, source]
        simp
      · simp [line.1.1, line', plain'.oneLine]

/-- Plain values make up no condition marker when they fill a layout whose text has none. -/
lemma first?_condition_fill_eq_none (plain : ∀ m ∈ markers, PlainMarker scope m)
    (filled : (Layout.ofMarkers rest markers).fill scope = .ok out)
    (h : Marker.first? .condition (Layout.ofMarkers rest markers).source = none) :
    Marker.first? .condition out = none := by
  refine Marker.first?_eq_none_iff.mpr fun w ⟨content, nonempty, line, isMarker⟩ ⟨x, z, whole⟩ => ?_
  have opened : out = x ++ '{' :: '?' :: (content ++ '?' :: '}' :: z) := by
    rw [← whole, isMarker]
    simp [Form.opening, Form.closing]
  obtain ⟨rest', markers', x', plain', filled', source⟩ :=
    exists_opening_of_fill plain filled opened
  obtain ⟨content', z', source', line', nonempty'⟩ :=
    exists_closing_of_fill plain' filled' rfl line
  refine Marker.first?_eq_none_iff.mp h _ ⟨content', nonempty' nonempty, line', rfl⟩ ⟨x', z', ?_⟩
  rw [source, source']
  simp [Form.opening, Form.closing]

end

/-- A resolved template has a condition marker exactly where the texts that are left meet in one.
When it has none, it is resolved to itself in every scope, no literal of it has one either, and none
comes about when plain values take the places of its substitution markers. -/
theorem resolve_leaves_no_condition_iff {src out : List Char} {scope : Scope}
    (h : resolve src scope = .ok out) :
    ∃ pieces texts, segments src = .ok pieces ∧ kept scope pieces = .ok texts ∧
      out = collapse texts ∧
      (Marker.first? .condition out = none ↔ ¬ Rejoined texts) ∧
      (Marker.first? .condition out = none →
        (∀ literal ∈ (Layout.ofText out).literals, Marker.first? .condition literal = none) ∧
        ∀ scope', resolve out scope' = .ok out ∧
          ∀ rendered, substitute out scope' = .ok rendered →
            (∀ v, Inserts out scope' v → Plain v) → Marker.first? .condition rendered = none) := by
  obtain ⟨pieces, split, h⟩ := bind_eq_ok_iff.mp h
  obtain ⟨texts, left, same⟩ := bind_eq_ok_iff.mp h
  cases same
  refine ⟨pieces, texts, split, left, rfl, ?_, fun none => ⟨fun literal among => ?_, fun scope' =>
    ⟨resolve_of_first?_eq_none none scope', fun rendered filled plain => ?_⟩⟩⟩
  · obtain ⟨init, last, rfl, settled, noMarker⟩ := settled_of_kept split left
    exact first?_collapse_eq_none_iff settled noMarker
  · have part := Layout.literal_infix_source among
    rw [Layout.source_ofText] at part
    exact Marker.first?_eq_none_of_infix none part
  · rw [Layout.substitute_eq_fill] at filled
    refine first?_condition_fill_eq_none (fun m among => ⟨?_, fun v evaluates => ?_⟩) filled ?_
    · obtain ⟨left, found⟩ := Markers.exists_first?_of_mem among
      exact (Marker.content_of_first? found).2
    · exact plain v ⟨m, among, evaluates⟩
    · exact (Layout.source_ofText (collapse texts)).symm ▸ none

/-- An empty value joins the literals around it. -/
example : render "\x7b? x ?\x7b\x7b '' \x7d\x7d\x7d" (fun _ => none) = .ok "\x7b? x ?\x7d" := by
  decide +kernel

/-- A brace before a dropped block and a question mark after it meet. -/
theorem rejoined_dropped :
    ∃ pieces texts,
      segments "\x7b\x7b? 0 ?\x7dx\x7b? end ?\x7d? y ?\x7d".toList = .ok pieces ∧
      kept (fun _ => none) pieces = .ok texts ∧ Rejoined texts := by
  have resolved : resolve "\x7b\x7b? 0 ?\x7dx\x7b? end ?\x7d? y ?\x7d".toList (fun _ => none) =
      .ok "\x7b? y ?\x7d".toList := by decide +kernel
  have marker : Marker.first? .condition "\x7b? y ?\x7d".toList ≠ none := by decide
  obtain ⟨pieces, texts, split, left, -, meets, -⟩ := resolve_leaves_no_condition_iff resolved
  exact ⟨pieces, texts, split, left, not_not.mp fun apart => marker (meets.mpr apart)⟩

/-- A resolved template can have a condition marker, and then it is not resolved to itself. -/
theorem resolve_makes_condition :
    resolve "\x7b\x7b? 0 ?\x7dx\x7b? end ?\x7d? y ?\x7d".toList (fun _ => none) =
        .ok "\x7b? y ?\x7d".toList ∧
      Marker.first? .condition "\x7b? y ?\x7d".toList ≠ none ∧
      resolve "\x7b? y ?\x7d".toList (fun _ => none) =
        .error (.malformed .unclosed "\x7b? y ?\x7d") := by
  refine ⟨?_, ?_, ?_⟩ <;> decide +kernel

end Stencil.Template
