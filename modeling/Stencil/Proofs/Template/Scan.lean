import Stencil.Proofs.Template.Scanner
import Mathlib.Data.List.Chain

/-!
# The leftmost, shortest marker

A marker of a text is a way to cut it into a prefix, an opening delimiter, a content that is not
empty and holds no newline, a closing delimiter and a postfix (`Marker.Occurs`).  The scanner finds
the marker with the shortest prefix, and of those with this prefix the one with the shortest content
(`Marker.first?_eq_some_iff`).  Going on after each marker, it visits markers that do not overlap,
from left to right, and loses nothing (`Markers.Visits`).
-/

namespace Stencil

namespace Marker

/-- The text has a marker with the content `c` between `p` and `q`. -/
structure Occurs (form : Form) (src p c q : List Char) : Prop where
  whole : src = p ++ form.opening ++ c ++ form.closing ++ q
  nonempty : c ≠ []
  oneLine : '\n' ∉ c

/-- The marker between `p` and `q` is the leftmost of the text and the shortest of those that start
there. -/
structure OccursFirst (form : Form) (src p c q : List Char) : Prop extends
    Occurs form src p c q where
  leftmost : ∀ p' c' q', Occurs form src p' c' q' → p.length ≤ p'.length
  shortest : ∀ c' q', Occurs form src p c' q' → c.length ≤ c'.length

/-- The marker after this one. -/
def next? (m : Marker) : Option Marker := first? m.form m.after

variable {form : Form} {src p c q : List Char}

/-! ### One marker -/

/-- What stands between the delimiters of a marker makes up a marker in the text. -/
lemma Occurs.isMarker (h : Occurs form src p c q) :
    form.IsMarker (form.opening ++ c ++ form.closing) :=
  ⟨c, h.nonempty, h.oneLine, rfl⟩

/-- A text has markers exactly when one stands somewhere in it. -/
lemma exists_occurs_iff :
    (∃ p c q, Occurs form src p c q) ↔ ∃ w, form.IsMarker w ∧ w <:+: src := by
  constructor
  · rintro ⟨p, c, q, h⟩
    exact ⟨_, h.isMarker, p, q, by rw [h.whole]; simp⟩
  · rintro ⟨w, ⟨c, nonempty, oneLine, rfl⟩, p, q, whole⟩
    exact ⟨p, c, q, by rw [← whole]; simp, nonempty, oneLine⟩

/-- Two leftmost, shortest markers of a text are the same. -/
lemma OccursFirst.unique {p' c' q' : List Char} (h : OccursFirst form src p c q)
    (h' : OccursFirst form src p' c' q') : p = p' ∧ c = c' ∧ q = q' := by
  have whole := h.whole.symm.trans h'.whole
  have sameStart : p.length = p'.length :=
    Nat.le_antisymm (h.leftmost _ _ _ h'.toOccurs) (h'.leftmost _ _ _ h.toOccurs)
  simp only [List.append_assoc] at whole
  obtain ⟨rfl, contents⟩ := List.append_inj whole sameStart
  have sameLength : c.length = c'.length :=
    Nat.le_antisymm (h.shortest _ _ h'.toOccurs) (h'.shortest _ _ h.toOccurs)
  obtain ⟨rfl, rests⟩ := List.append_inj (List.append_cancel_left contents) sameLength
  exact ⟨rfl, rfl, List.append_cancel_left rests⟩

/-- The scanner reads the shortest content. -/
lemma length_le_of_content? {cs content after : List Char}
    (h : content? form cs = some (content, after)) (nonempty : c ≠ [])
    (whole : cs = c ++ form.closing ++ q) : content.length ≤ c.length := by
  induction cs generalizing content c with
  | nil => cases h
  | cons x rest ih =>
    obtain ⟨y, c, rfl⟩ := List.exists_cons_of_ne_nil nonempty
    rw [List.cons_append, List.cons_append] at whole
    obtain ⟨rfl, rfl⟩ := List.cons.inj whole
    rw [content?] at h
    split at h
    · cases h
    · split at h
      · cases h
        simp
      · next unclosed =>
        obtain ⟨⟨inner, left⟩, found, same⟩ := Option.map_eq_some_iff.mp h
        cases same
        -- An empty rest of the content would have been closed here.
        have more : c ≠ [] := by
          rintro rfl
          rw [List.nil_append, after?_append] at unclosed
          cases unclosed
        have := ih found more rfl
        simpa using this

/-- The content of the first marker is the one that the scanner reads where the marker is opened. -/
lemma content?_of_first? {cs : List Char} {m : Marker} (h : first? form cs = some m) :
    content? form (m.content ++ form.closing ++ m.after) = some (m.content, m.after) := by
  induction cs generalizing m with
  | nil => cases h
  | cons x rest ih =>
    rw [first?] at h
    split at h
    · next content after found =>
      obtain ⟨rest', -, read⟩ := Option.bind_eq_some_iff.mp found
      cases h
      rw [append_of_content? read]
      exact read
    · obtain ⟨inner, found, rfl⟩ := Option.map_eq_some_iff.mp h
      change content? form (inner.content ++ form.closing ++ inner.after) = _
      exact ih found

/-- The first marker stands where the scanner says. -/
lemma occurs_of_first? {m : Marker} (h : first? form src = some m) :
    Occurs form src m.before m.content m.after := by
  obtain ⟨nonempty, oneLine⟩ := content_of_first? h
  refine ⟨?_, nonempty, oneLine⟩
  rw [← append_of_first? h, raw, form_of_first? h]
  simp

/-- The first marker is leftmost and shortest. -/
theorem occursFirst_of_first? {m : Marker} (h : first? form src = some m) :
    OccursFirst form src m.before m.content m.after where
  toOccurs := occurs_of_first? h
  leftmost p' c' q' other := by
    by_contra! further
    have whole : p' ++ (form.opening ++ c' ++ form.closing ++ q') =
        m.before ++ (m.raw ++ m.after) := by
      rw [← List.append_assoc m.before, append_of_first? h, other.whole]
      simp
    obtain ⟨s, between⟩ : p' <+: m.before :=
      List.prefix_of_prefix_length_le ⟨_, whole⟩ (List.prefix_append _ _) further.le
    have nonempty : s ≠ [] := by
      rintro rfl
      simp [← between] at further
    rw [← between, List.append_assoc p'] at whole
    exact not_prefix_of_suffix_before h ⟨p', between⟩ nonempty other.isMarker
      ⟨q', List.append_cancel_left whole⟩
  shortest c' q' other := by
    have whole : m.content ++ form.closing ++ m.after = c' ++ form.closing ++ q' := by
      have same := (occurs_of_first? h).whole.symm.trans other.whole
      simpa using same
    exact length_le_of_content? (content?_of_first? h) other.nonempty whole

/-- The scanner finds nothing exactly when the text has no marker. -/
theorem first?_eq_none_iff_not_occurs :
    first? form src = none ↔ ∀ p c q, ¬ Occurs form src p c q := by
  have absent : (¬ ∃ p c q, Occurs form src p c q) ↔ ¬ ∃ w, form.IsMarker w ∧ w <:+: src :=
    exists_occurs_iff.not
  simp only [not_exists, not_and] at absent
  rw [absent, first?_eq_none_iff]

/-- The scanner finds exactly the leftmost, shortest marker. -/
theorem first?_eq_some_iff :
    first? form src = some ⟨form, p, c, q⟩ ↔ OccursFirst form src p c q := by
  constructor
  · intro h
    exact occursFirst_of_first? h
  · intro h
    cases found : first? form src with
    | none => exact absurd h.toOccurs (first?_eq_none_iff_not_occurs.mp found p c q)
    | some m =>
      obtain ⟨rfl, rfl, rfl⟩ := h.unique (occursFirst_of_first? found)
      obtain rfl := form_of_first? found
      rfl

end Marker

namespace Markers

/-! ### One marker after another -/

/-- The stretches that markers take up, each from the offset of its first character to the offset
after its last one, when the text before the first marker starts at the given offset. -/
def spans : Nat → List Marker → List (Nat × Nat)
  | _, [] => []
  | start, m :: more =>
    let opening := start + m.before.length
    let closing := opening + m.raw.length
    (opening, closing) :: spans closing more

/-- Going on from each marker to the next one visits these markers and leaves this rest. -/
structure Visits (form : Form) (src : List Char) (ms : Markers) : Prop where
  /-- The first marker of the text is visited first. -/
  head : ms.list.head? = Marker.first? form src
  /-- Each marker is followed by the next one. -/
  chain : ms.list.IsChain fun m n => m.next? = some n
  /-- The last marker has no next one. -/
  last : ∀ m ∈ ms.list.getLast?, m.next? = none
  /-- Each marker stands where its span says, and what follows it is the text after it. -/
  places : ∀ v ∈ ms.list.zip (spans 0 ms.list),
    (src.drop v.2.1).take (v.2.2 - v.2.1) = v.1.raw ∧ src.drop v.2.2 = v.1.after
  /-- Each marker ends before the later ones start. -/
  disjoint : (spans 0 ms.list).Pairwise fun s t => s.2 ≤ t.1
  /-- The texts before the markers, the markers and the rest make up the text. -/
  whole : (ms.list.flatMap fun m => m.before ++ m.raw) ++ ms.rest = src

/-- All spans start at the given offset or after it. -/
lemma le_of_mem_spans {start : Nat} {list : List Marker} {s : Nat × Nat}
    (h : s ∈ spans start list) : start ≤ s.1 := by
  induction list generalizing start with
  | nil => cases h
  | cons m more ih =>
    obtain rfl | later := List.mem_cons.mp h
    · exact Nat.le_add_right _ _
    · have := ih later
      omega

/-- The spans of markers are in order and do not overlap. -/
lemma pairwise_spans (start : Nat) (list : List Marker) :
    (spans start list).Pairwise fun s t => s.2 ≤ t.1 := by
  induction list generalizing start with
  | nil => exact List.Pairwise.nil
  | cons m more ih => exact List.pairwise_cons.mpr ⟨fun t later => le_of_mem_spans later, ih _⟩

/-- The markers of a text stand in their spans, also when other text stands before it. -/
lemma places_ofText (form : Form) (cs done : List Char) :
    ∀ v ∈ (ofText form cs).list.zip (spans done.length (ofText form cs).list),
      ((done ++ cs).drop v.2.1).take (v.2.2 - v.2.1) = v.1.raw ∧
        (done ++ cs).drop v.2.2 = v.1.after := by
  fun_induction ofText form cs generalizing done with
  | case1 =>
    intro v visited
    cases visited
  | case2 cs m found more ih =>
    have whole : done ++ cs = done ++ m.before ++ m.raw ++ m.after := by
      rw [← Marker.append_of_first? found]
      simp
    have offset : (done ++ m.before ++ m.raw).length =
        done.length + m.before.length + m.raw.length := by
      simp only [List.length_append]
    intro v visited
    obtain rfl | later := List.mem_cons.mp visited
    · constructor
      · rw [whole, List.append_assoc (done ++ m.before), ← List.length_append, List.drop_left,
          Nat.add_sub_cancel_left, List.take_left]
      · rw [whole]
        exact List.drop_left' offset
    · rw [whole]
      exact ih (done ++ m.before ++ m.raw) v (by rwa [offset])

/-- The first of the markers of a text is its first marker. -/
lemma head?_ofText (form : Form) (cs : List Char) :
    (ofText form cs).list.head? = Marker.first? form cs := by
  cases found : Marker.first? form cs with
  | none => rw [ofText_of_none found]; rfl
  | some m => rw [ofText_of_some found]; rfl

/-- Each of the markers of a text is followed by the next one, and the last one has none. -/
lemma chain_ofText (form : Form) (cs : List Char) :
    ((ofText form cs).list.IsChain fun m n => m.next? = some n) ∧
      ∀ m ∈ (ofText form cs).list.getLast?, m.next? = none := by
  fun_induction ofText form cs with
  | case1 =>
    refine ⟨List.IsChain.nil, ?_⟩
    intro m isLast
    cases isLast
  | case2 cs m found more ih =>
    have next : m.next? = more.list.head? := by
      rw [head?_ofText, Marker.next?, Marker.form_of_first? found]
    obtain ⟨chain, last⟩ := ih
    refine ⟨List.isChain_cons.mpr ⟨fun n first => next.trans first, chain⟩, ?_⟩
    cases left : more.list with
    | nil =>
      rw [left] at next
      intro n isLast
      obtain rfl : m = n := Option.some.inj isLast
      exact next
    | cons n others =>
      rw [left] at last
      exact last

/-- The markers of a text are visited one after another, and nothing is lost. -/
theorem visits_ofText (form : Form) (src : List Char) : Visits form src (ofText form src) where
  head := head?_ofText form src
  chain := (chain_ofText form src).1
  last := (chain_ofText form src).2
  places := places_ofText form src []
  disjoint := pairwise_spans 0 _
  whole := flatten_ofText form src

/-- For every text and form of markers, the scanner finds exactly the leftmost, shortest marker and
nothing exactly when there is none, and going on from there it visits disjoint markers from left to
right without losing any text. -/
theorem scan_leftmost_shortest (form : Form) (src : List Char) :
    (∀ p c q, Marker.first? form src = some ⟨form, p, c, q⟩ ↔
        Marker.OccursFirst form src p c q) ∧
      (Marker.first? form src = none ↔ ∀ p c q, ¬ Marker.Occurs form src p c q) ∧
      Visits form src (ofText form src) :=
  ⟨fun _ _ _ => Marker.first?_eq_some_iff, Marker.first?_eq_none_iff_not_occurs,
    visits_ofText form src⟩

/-- A delimiter that opens too early is content, and the first close after one character ends it. -/
example : Marker.first? .substitution ['{', '{', '{', '}', '}', '}', '}'] =
    some ⟨.substitution, [], ['{'], ['}', '}']⟩ := by decide

end Markers

end Stencil
