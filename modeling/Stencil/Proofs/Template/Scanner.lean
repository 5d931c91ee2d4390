import Stencil.Proofs.Template.Lines
import Mathlib.Data.List.Infix

/-!
# Where markers stand

A marker, as it is written, is an opening delimiter, a content that is not empty and holds no
newline, and a closing delimiter (`Form.IsMarker`).  The scanner misses none: it finds no marker in
a text exactly when none is written there (`Marker.first?_eq_none_iff`), and none is written in the
text before the first marker or after the last one.

The text before a marker is settled (`Form.Settled`): whatever replaces the marker and the text
after it, no marker starts in it, unless it starts with the last character.
-/

namespace Stencil

namespace Form

/-- The text is a marker. -/
def IsMarker (form : Form) (w : List Char) : Prop :=
  ∃ content, content ≠ [] ∧ '\n' ∉ content ∧ w = form.opening ++ content ++ form.closing

/-- No marker starts in the text, whatever follows it, unless it starts with the last character. -/
def Settled (form : Form) (t : List Char) : Prop :=
  ∀ s, s <:+ t → 2 ≤ s.length → ∀ w y, form.IsMarker w → ¬ w <+: s ++ y

/-- No delimiter and no content holds a newline. -/
lemma newline_notMem_of_isMarker {form : Form} {w : List Char} (h : form.IsMarker w) :
    '\n' ∉ w := by
  obtain ⟨content, -, oneLine, rfl⟩ := h
  simp [oneLine, Marker.newline_notMem_opening, Marker.newline_notMem_closing]

/-- A marker is not empty. -/
lemma ne_nil_of_isMarker {form : Form} {w : List Char} (h : form.IsMarker w) : w ≠ [] := by
  obtain ⟨content, nonempty, -, rfl⟩ := h
  simp [nonempty]

/-- A text without the character that opens markers is settled. -/
lemma settled_of_notMem {form : Form} {t : List Char} (h : '{' ∉ t) : form.Settled t := by
  intro s part long w y isMarker starts
  obtain ⟨content, -, -, rfl⟩ := isMarker
  obtain ⟨z, whole⟩ := starts
  cases s with
  | nil => simp at long
  | cons c s =>
    have brace : c = '{' := by
      cases form <;> exact (List.cons.inj whole).1.symm
    exact h (part.mem (by simp [brace]))

end Form

namespace Marker

variable {form : Form}

/-! ### The scanner finds what is written -/

lemma after?_append (xs rest : List Char) : after? xs (xs ++ rest) = some rest := by
  rw [after?, if_pos (List.isPrefixOf_iff_prefix.mpr (List.prefix_append xs rest)),
    List.drop_left]

/-- The content that the scanner reads is not empty and has no newline. -/
lemma content_of_content? {cs content after : List Char}
    (h : content? form cs = some (content, after)) : content ≠ [] ∧ '\n' ∉ content := by
  induction cs generalizing content with
  | nil => simp [content?] at h
  | cons c rest ih =>
    rw [content?] at h
    split at h
    · cases h
    · next noNewline =>
      split at h
      · cases h
        simpa using Ne.symm noNewline
      · obtain ⟨⟨inner, left⟩, found, same⟩ := Option.map_eq_some_iff.mp h
        cases same
        have := (ih found).2
        simp [Ne.symm noNewline, this]

/-- A content and a closing delimiter are read, if not as they are then up to an earlier closing
delimiter. -/
lemma content?_isSome {content : List Char} (nonempty : content ≠ []) (oneLine : '\n' ∉ content)
    (y : List Char) : (content? form (content ++ form.closing ++ y)).isSome := by
  induction content with
  | nil => exact absurd rfl nonempty
  | cons c content ih =>
    obtain ⟨noNewline, oneLine⟩ := not_or.mp (List.mem_cons.not.mp oneLine)
    rw [List.cons_append, List.cons_append, content?, if_neg (Ne.symm noNewline)]
    cases closed : after? form.closing (content ++ form.closing ++ y) with
    | some after => rfl
    | none =>
      cases content with
      | nil =>
        rw [List.nil_append, after?_append] at closed
        cases closed
      | cons d content =>
        rw [Option.isSome_map]
        exact ih (by simp) oneLine

/-- A marker starts the text exactly when the scanner reads one there. -/
lemma start?_isSome_iff {cs : List Char} :
    (start? form cs).isSome ↔ ∃ w, form.IsMarker w ∧ w <+: cs := by
  constructor
  · intro h
    obtain ⟨⟨content, after⟩, found⟩ := Option.isSome_iff_exists.mp h
    obtain ⟨rest, -, read⟩ := Option.bind_eq_some_iff.mp found
    obtain ⟨nonempty, oneLine⟩ := content_of_content? read
    exact ⟨_, ⟨content, nonempty, oneLine, rfl⟩, after, append_of_start? found⟩
  · rintro ⟨w, ⟨content, nonempty, oneLine, rfl⟩, y, rfl⟩
    rw [start?, List.append_assoc, List.append_assoc, after?_append, ← List.append_assoc]
    exact content?_isSome nonempty oneLine y

lemma start?_eq_none_iff {cs : List Char} :
    start? form cs = none ↔ ∀ w, form.IsMarker w → ¬ w <+: cs := by
  rw [← Option.not_isSome_iff_eq_none, start?_isSome_iff]
  simp only [not_exists, not_and]

/-- The scanner finds no marker exactly when none stands anywhere in the text. -/
theorem first?_eq_none_iff {cs : List Char} :
    first? form cs = none ↔ ∀ w, form.IsMarker w → ¬ w <:+: cs := by
  induction cs with
  | nil =>
    refine ⟨fun _ w isMarker inside => ?_, fun _ => rfl⟩
    exact Form.ne_nil_of_isMarker isMarker (List.infix_nil.mp inside)
  | cons c rest ih =>
    have unfolded : first? form (c :: rest) = none ↔
        start? form (c :: rest) = none ∧ first? form rest = none := by
      rw [first?]
      cases start? form (c :: rest) <;> simp
    rw [unfolded, ih, start?_eq_none_iff]
    simp only [List.infix_cons_iff, not_or]
    exact ⟨fun h w isMarker => ⟨h.1 w isMarker, h.2 w isMarker⟩,
      fun h => ⟨fun w isMarker => (h w isMarker).1, fun w isMarker => (h w isMarker).2⟩⟩

/-- A part of a text without a marker has none. -/
lemma first?_eq_none_of_infix {t cs : List Char} (h : first? form cs = none) (part : t <:+: cs) :
    first? form t = none :=
  first?_eq_none_iff.mpr fun w isMarker inside =>
    first?_eq_none_iff.mp h w isMarker (inside.trans part)

/-- There is no marker in a text without the character that opens markers. -/
lemma first?_eq_none_of_notMem {cs : List Char} (h : '{' ∉ cs) : first? form cs = none := by
  refine first?_eq_none_iff.mpr fun w isMarker inside => h (inside.mem ?_)
  obtain ⟨content, -, -, rfl⟩ := isMarker
  cases form <;> exact List.mem_cons_self

/-! ### The text before a marker -/

/-- The content of a marker is not empty and has no newline. -/
lemma content_of_first? {cs : List Char} {m : Marker} (h : first? form cs = some m) :
    m.content ≠ [] ∧ '\n' ∉ m.content := by
  induction cs generalizing m with
  | nil => cases h
  | cons c rest ih =>
    rw [first?] at h
    split at h
    · next content after found =>
      obtain ⟨rest', -, read⟩ := Option.bind_eq_some_iff.mp found
      cases h
      exact content_of_content? read
    · obtain ⟨inner, found, rfl⟩ := Option.map_eq_some_iff.mp h
      exact (ih found : inner.content ≠ [] ∧ '\n' ∉ inner.content)

/-- No marker starts before the first one. -/
lemma not_prefix_of_suffix_before {cs : List Char} {m : Marker} (h : first? form cs = some m)
    {s : List Char} (part : s <:+ m.before) (nonempty : s ≠ []) {w : List Char}
    (isMarker : form.IsMarker w) : ¬ w <+: s ++ (m.raw ++ m.after) := by
  induction cs generalizing m with
  | nil => cases h
  | cons c rest ih =>
    have whole := append_of_first? h
    rw [first?] at h
    split at h
    · cases h
      exact absurd (List.suffix_nil.mp part) nonempty
    · next none =>
      obtain ⟨inner, found, rfl⟩ := Option.map_eq_some_iff.mp h
      obtain rfl | part := List.suffix_cons_iff.mp part
      · rw [← List.append_assoc, whole]
        exact start?_eq_none_iff.mp none w isMarker
      · change ¬ w <+: s ++ (inner.raw ++ inner.after)
        exact ih found part

/-- The text before a marker is settled. -/
theorem settled_before {cs : List Char} {m : Marker} (h : first? form cs = some m) :
    form.Settled m.before := by
  intro s part long w y isMarker starts
  have nonempty : s ≠ [] := List.ne_nil_of_length_pos (by omega)
  have absent := fun w' => not_prefix_of_suffix_before (w := w') h part nonempty
  obtain within | across := List.prefix_or_prefix_of_prefix starts (List.prefix_append s y)
  · exact absent w isMarker (within.trans (List.prefix_append _ _))
  · -- The text up to the marker is opened and has no newline, so the marker would close it.
    have oneLine := fun inside => Form.newline_notMem_of_isMarker isMarker (across.mem inside)
    obtain ⟨content', -, -, rfl⟩ := isMarker
    have opened : form.opening <+: form.opening ++ content' ++ form.closing :=
      ⟨content' ++ form.closing, by simp⟩
    have short : form.opening.length ≤ s.length := by cases form <;> exact long
    obtain ⟨open', rfl⟩ := List.prefix_of_prefix_length_le opened across short
    have oneLine' := (content_of_first? h).2
    refine absent _ ⟨open' ++ form.opening ++ m.content, ?_, ?_, rfl⟩ ⟨m.after, ?_⟩
    · cases form <;> simp [Form.opening]
    · simp only [List.mem_append, not_or] at oneLine ⊢
      exact ⟨⟨fun inside => oneLine (.inr inside), newline_notMem_opening form⟩, oneLine'⟩
    · simp [raw, form_of_first? h]

/-- A text put in front of one without a marker makes none, when it is settled and the two do not
meet within an opening delimiter. -/
theorem first?_append_eq_none {t x : List Char} (settled : form.Settled t)
    (apart : t.getLast? = form.opening.head? → x.head? ≠ form.opening.getLast?)
    (h : first? form x = none) : first? form (t ++ x) = none := by
  refine first?_eq_none_iff.mpr fun w isMarker ⟨p, z, whole⟩ => ?_
  have absent := first?_eq_none_iff.mp h w isMarker
  rw [List.append_assoc] at whole
  obtain ⟨s, rfl, rest⟩ | ⟨s, -, rfl⟩ := List.append_eq_append_iff.mp whole
  · match s with
    | [] => exact absent ⟨[], z, rest⟩
    | [c] =>
      obtain ⟨content, -, -, rfl⟩ := isMarker
      cases form <;> cases rest <;> exact apart (by simp [Form.opening]) rfl
    | c :: d :: s => exact settled _ (List.suffix_append p _) (by simp) w x isMarker ⟨z, rest⟩
  · exact absent ⟨s, z, by rw [List.append_assoc]⟩

end Marker

namespace Markers

variable {form : Form}

/-- Each marker of a text is the first one of what the scanner had left. -/
lemma exists_first?_of_mem {cs : List Char} {m : Marker} (h : m ∈ (ofText form cs).list) :
    ∃ left, Marker.first? form left = some m := by
  fun_induction ofText form cs with
  | case1 => cases h
  | case2 cs first found more ih =>
    obtain rfl | later := List.mem_cons.mp h
    · exact ⟨cs, found⟩
    · exact ih later

/-- The markers of a text have the form that was looked for. -/
lemma form_of_mem_ofText {cs : List Char} {m : Marker} (h : m ∈ (ofText form cs).list) :
    m.form = form :=
  have ⟨_, found⟩ := exists_first?_of_mem h
  Marker.form_of_first? found

/-- The scanner leaves a text without a marker. -/
lemma first?_rest (form : Form) (cs : List Char) :
    Marker.first? form (ofText form cs).rest = none := by
  fun_induction ofText form cs with
  | case1 cs none => exact none
  | case2 cs first found more ih => exact ih

end Markers

end Stencil
