import Stencil.Template.Block
import Mathlib.Tactic.Common

/-!
# Markers and lines

No marker spans a line, so the markers of a text are those of its lines.  `Markers.ofText_newline`
says this for the markers of a text that is cut at a newline: those before the cut stay as they are,
and those after it are found as if the text began there, except that the first of them has the text
since the last marker before it.
-/

namespace Stencil

namespace Marker

/-- The marker when the text goes on with `x`. -/
def followedBy (x : List Char) (m : Marker) : Marker := { m with after := m.after ++ x }

/-- The marker when the text before it starts with `x`. -/
def precededBy (x : List Char) (m : Marker) : Marker := { m with before := x ++ m.before }

@[simp] lemma expression_followedBy (x : List Char) (m : Marker) :
    (m.followedBy x).expression = m.expression := rfl

@[simp] lemma expression_precededBy (x : List Char) (m : Marker) :
    (m.precededBy x).expression = m.expression := rfl

@[simp] lemma isEnd_followedBy (x : List Char) (m : Marker) :
    (m.followedBy x).isEnd = m.isEnd := rfl

@[simp] lemma isEnd_precededBy (x : List Char) (m : Marker) :
    (m.precededBy x).isEnd = m.isEnd := rfl

@[simp] lemma before_followedBy (x : List Char) (m : Marker) :
    (m.followedBy x).before = m.before := rfl

@[simp] lemma before_precededBy (x : List Char) (m : Marker) :
    (m.precededBy x).before = x ++ m.before := rfl

/-! ### Reading up to a newline -/

/-- A delimiter is not cut by a newline. -/
lemma after?_newline {xs : List Char} (h : '\n' ∉ xs) (a x : List Char) :
    after? xs (a ++ '\n' :: x) = (after? xs a).map (· ++ '\n' :: x) := by
  have same : xs.isPrefixOf (a ++ '\n' :: x) = xs.isPrefixOf a := by
    induction xs generalizing a with
    | nil => simp
    | cons c xs ih =>
      obtain ⟨hc, hxs⟩ := not_or.mp (List.mem_cons.not.mp h)
      cases a with
      | nil => simp [List.isPrefixOf, Ne.symm hc]
      | cons d a => simp [List.isPrefixOf, ih hxs a]
  unfold after?
  rw [same]
  by_cases isPrefix : xs.isPrefixOf a = true
  · have := (List.isPrefixOf_iff_prefix.mp isPrefix).length_le
    rw [if_pos isPrefix, if_pos isPrefix, List.drop_append_of_le_length this]
    rfl
  · rw [if_neg isPrefix, if_neg isPrefix]
    rfl

/-- No delimiter holds a newline. -/
lemma newline_notMem_closing (form : Form) : '\n' ∉ form.closing := by
  cases form <;> decide

lemma newline_notMem_opening (form : Form) : '\n' ∉ form.opening := by
  cases form <;> decide

/-- The content of a marker is read on its line. -/
lemma content?_newline (form : Form) (a x : List Char) :
    content? form (a ++ '\n' :: x) =
      (content? form a).map fun p => (p.1, p.2 ++ '\n' :: x) := by
  induction a with
  | nil => simp [content?]
  | cons c a ih =>
    rw [List.cons_append, content?, content?]
    by_cases hc : c = '\n'
    · rw [if_pos hc, if_pos hc]
      rfl
    · rw [if_neg hc, if_neg hc, after?_newline (newline_notMem_closing form), ih]
      cases after? form.closing a with
      | some after => rfl
      | none => cases content? form a <;> rfl

/-- A marker is read on its line. -/
lemma start?_newline (form : Form) (a x : List Char) :
    start? form (a ++ '\n' :: x) =
      (start? form a).map fun p => (p.1, p.2 ++ '\n' :: x) := by
  rw [start?, start?, after?_newline (newline_notMem_opening form)]
  cases after? form.opening a with
  | none => rfl
  | some rest => exact content?_newline form rest x

/-- No marker starts with a newline. -/
lemma start?_cons_newline (form : Form) (x : List Char) : start? form ('\n' :: x) = none := by
  cases form <;> rfl

/-- The first marker of a text that is cut at a newline is the first one before the cut, or, when
there is none, the first one after it. -/
lemma first?_newline (form : Form) (a x : List Char) :
    first? form (a ++ '\n' :: x) =
      match first? form a with
      | some m => some (m.followedBy ('\n' :: x))
      | none => (first? form x).map (precededBy (a ++ ['\n'])) := by
  induction a with
  | nil =>
    simp only [List.nil_append, first?, start?_cons_newline]
    rfl
  | cons c a ih =>
    rw [List.cons_append, first?, first?, ← List.cons_append, start?_newline, ih]
    cases start? form (c :: a) with
    | some p => rfl
    | none =>
      cases first? form a with
      | some m => rfl
      | none => cases first? form x <;> rfl

end Marker

namespace Markers

/-- The markers when the text before the first of them starts with `x`. -/
def precededBy (x : List Char) : Markers → Markers
  | ⟨[], rest⟩ => ⟨[], x ++ rest⟩
  | ⟨m :: more, rest⟩ => ⟨m.precededBy x :: more, rest⟩

@[simp] lemma precededBy_nil (ms : Markers) : ms.precededBy [] = ms := by
  obtain ⟨_ | ⟨m, more⟩, rest⟩ := ms <;> rfl

/-- A text without a marker is its own rest. -/
lemma ofText_of_none {form : Form} {cs : List Char} (h : Marker.first? form cs = none) :
    ofText form cs = ⟨[], cs⟩ := by
  rw [ofText]
  split
  · rfl
  · next m found => simp [h] at found

/-- The markers of a text are the first one and those after it. -/
lemma ofText_of_some {form : Form} {cs : List Char} {m : Marker}
    (h : Marker.first? form cs = some m) :
    ofText form cs = ⟨m :: (ofText form m.after).list, (ofText form m.after).rest⟩ := by
  rw [ofText]
  split
  · next found => simp [h] at found
  · next m' found =>
    obtain rfl : m = m' := Option.some.inj (h.symm.trans found)
    rfl

/-- The markers of a text that is cut at a newline: those before the cut and those after it. -/
lemma ofText_newline (form : Form) (a x : List Char) :
    ofText form (a ++ '\n' :: x) =
      ⟨(ofText form a).list.map (Marker.followedBy ('\n' :: x)) ++
          ((ofText form x).precededBy ((ofText form a).rest ++ ['\n'])).list,
        ((ofText form x).precededBy ((ofText form a).rest ++ ['\n'])).rest⟩ := by
  fun_induction ofText form a with
  | case1 a none =>
    have first := Marker.first?_newline form a x
    rw [none] at first
    cases found : Marker.first? form x with
    | none =>
      rw [found] at first
      rw [ofText_of_none first, ofText_of_none found]
      simp [precededBy]
    | some m =>
      rw [found] at first
      rw [ofText_of_some first, ofText_of_some found]
      rfl
  | case2 a m found more ih =>
    have first := Marker.first?_newline form a x
    rw [found] at first
    rw [ofText_of_some first]
    change (⟨_ :: (ofText form (m.after ++ '\n' :: x)).list,
      (ofText form (m.after ++ '\n' :: x)).rest⟩ : Markers) = _
    rw [ih]
    rfl

end Markers

end Stencil
