import Stencil.Text.Line
import Mathlib.Tactic.Common

/-!
# Pieces and lines

A text that is cut at a separator has the pieces of its two parts (`splitOn_append`), and so the
lines of a text that is cut at a newline are those of its two parts, the first one with its newline
(`lines_newline`).  A newline at the end of a text changes at most its last line
(`lines_concat_newline_cases`).
-/

namespace Stencil.Text

/-! ### Pieces -/

/-- There is always a piece. -/
lemma splitOn_ne_nil (sep : Char) (a : List Char) : splitOn sep a ≠ [] := by
  cases a with
  | nil => simp [splitOn]
  | cons c a =>
    rw [splitOn]
    split
    · simp
    · split <;> simp

/-- A text that is cut at a separator has the pieces of its two parts. -/
lemma splitOn_append (sep : Char) (a b : List Char) :
    splitOn sep (a ++ sep :: b) = splitOn sep a ++ splitOn sep b := by
  induction a with
  | nil => simp [splitOn]
  | cons c a ih =>
    rw [List.cons_append, splitOn, splitOn]
    by_cases hc : c = sep
    · rw [if_pos hc, if_pos hc, ih]
      rfl
    · rw [if_neg hc, if_neg hc, ih]
      cases cut : splitOn sep a with
      | nil => exact absurd cut (splitOn_ne_nil sep a)
      | cons piece others => rfl

/-- A text without a separator is its only piece. -/
lemma splitOn_of_notMem {sep : Char} {a : List Char} (h : sep ∉ a) : splitOn sep a = [a] := by
  induction a with
  | nil => rfl
  | cons c a ih =>
    obtain ⟨hc, notMem⟩ := not_or.mp (List.mem_cons.not.mp h)
    rw [splitOn, if_neg (Ne.symm hc), ih notMem]

/-- No piece holds a separator. -/
lemma notMem_of_mem_splitOn {sep : Char} {a piece : List Char} (h : piece ∈ splitOn sep a) :
    sep ∉ piece := by
  induction a generalizing piece with
  | nil =>
    rw [splitOn, List.mem_singleton] at h
    simp [h]
  | cons c a ih =>
    rw [splitOn] at h
    split at h
    · rcases List.mem_cons.mp h with rfl | h
      · simp
      · exact ih h
    · next other =>
      split at h
      · rw [List.mem_singleton] at h
        simpa [h] using Ne.symm other
      · next first others cut =>
        rcases List.mem_cons.mp h with rfl | h
        · have : sep ∉ first := ih (cut ▸ List.mem_cons_self)
          simp [this, Ne.symm other]
        · exact ih (cut ▸ List.mem_cons_of_mem _ h)

/-- There is a last piece. -/
lemma exists_splitOn_eq_concat (sep : Char) (a : List Char) :
    ∃ front last, splitOn sep a = front ++ [last] :=
  ⟨_, _, (List.dropLast_concat_getLast (splitOn_ne_nil sep a)).symm⟩

/-- A text is cut at its first separator, and then the rest of it. -/
lemma splitOn_induction (sep : Char) {motive : List Char → Prop}
    (last : ∀ a, sep ∉ a → motive a)
    (cut : ∀ a b, sep ∉ a → motive b → motive (a ++ sep :: b)) (text : List Char) :
    motive text := by
  by_cases h : sep ∈ text
  · obtain ⟨a, b, rfl, notMem⟩ := List.eq_append_cons_of_mem h
    exact cut a b notMem (splitOn_induction sep last cut b)
  · exact last text h
termination_by text.length
decreasing_by
  subst_vars
  simp only [List.length_append, List.length_cons]
  omega

/-! ### Lines -/

/-- A line is chomped by taking a carriage return away from its end. -/
lemma exists_chomp_append (line : List Char) :
    ∃ ending, (ending = [] ∨ ending = ['\r']) ∧ line = chomp line ++ ending := by
  unfold chomp
  split
  · next ends =>
    obtain ⟨front, rfl⟩ := List.getLast?_eq_some_iff.mp ends
    exact ⟨['\r'], .inr rfl, by rw [List.dropLast_concat]⟩
  · exact ⟨[], .inl rfl, (List.append_nil line).symm⟩

/-- The pieces of a text are its lines, but for the last piece, which is one as it stands if it is
not empty. -/
lemma lines_of_splitOn {a : List Char} {front : List (List Char)} {last : List Char}
    (cut : splitOn '\n' a = front ++ [last]) :
    lines a = front.map chomp ++ if last = [] then [] else [last] := by
  unfold lines
  simp only [cut, List.dropLast_concat, List.getLast?_concat]
  cases last with
  | nil => simp
  | cons c last => simp

/-- The pieces of a text are its lines when a newline and another text follow. -/
lemma lines_append_newline (a b : List Char) :
    lines (a ++ '\n' :: b) = (splitOn '\n' a).map chomp ++ lines b := by
  obtain ⟨front, last, cut⟩ := exists_splitOn_eq_concat '\n' b
  have whole : splitOn '\n' (a ++ '\n' :: b) = (splitOn '\n' a ++ front) ++ [last] := by
    rw [splitOn_append, cut, List.append_assoc]
  rw [lines_of_splitOn whole, lines_of_splitOn cut, List.map_append, List.append_assoc]

/-- A newline at the end of a text ends its last line. -/
lemma lines_concat_newline (a : List Char) : lines (a ++ ['\n']) = (splitOn '\n' a).map chomp := by
  have ended : lines (a ++ ['\n']) = (splitOn '\n' a).map chomp ++ lines [] :=
    lines_append_newline a []
  rw [ended]
  exact List.append_nil _

/-- The lines of a text that is cut at a newline are those of its two parts. -/
lemma lines_newline (a b : List Char) :
    lines (a ++ '\n' :: b) = lines (a ++ ['\n']) ++ lines b := by
  rw [lines_append_newline, lines_concat_newline]

/-- A newline at the end of a text chomps its last line, or else adds an empty one. -/
lemma lines_concat_newline_cases (a : List Char) :
    lines (a ++ ['\n']) = lines a ++ [[]] ∨
      ∃ front last, lines a = front ++ [last] ∧ lines (a ++ ['\n']) = front ++ [chomp last] := by
  obtain ⟨front, last, cut⟩ := exists_splitOn_eq_concat '\n' a
  rw [lines_concat_newline, lines_of_splitOn cut, cut, List.map_append]
  cases last with
  | nil => exact .inl (by simp [chomp])
  | cons c last => exact .inr ⟨front.map chomp, c :: last, by simp, rfl⟩

/-- No line holds a newline. -/
lemma newline_notMem_of_mem_lines {a line : List Char} (h : line ∈ lines a) : '\n' ∉ line := by
  have pieces : ∀ piece ∈ splitOn '\n' a, '\n' ∉ piece := fun _ => notMem_of_mem_splitOn
  obtain ⟨front, last, cut⟩ := exists_splitOn_eq_concat '\n' a
  rw [lines_of_splitOn cut, List.mem_append] at h
  rw [cut] at pieces
  rcases h with h | h
  · obtain ⟨piece, mem, rfl⟩ := List.mem_map.mp h
    obtain ⟨ending, -, whole⟩ := exists_chomp_append piece
    have notMem := pieces piece (List.mem_append_left _ mem)
    rw [whole] at notMem
    exact fun inside => notMem (List.mem_append_left _ inside)
  · split at h
    · cases h
    · exact pieces line (List.mem_append_right _ h)

end Stencil.Text
