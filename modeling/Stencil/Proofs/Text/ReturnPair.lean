import Stencil.Text.Line
import Mathlib.Data.List.Infix

/-!
# Carriage returns before newlines

A pair is a carriage return right before a newline.  Joining two texts makes a new pair only where
the first one ends in a carriage return and the second one starts with a newline
(`holdsPair_append_iff`).  Reading line endings takes one carriage return away from each pair, so a
pair is left exactly where two carriage returns stood before a newline (`holdsPair_unixLines_iff`).
-/

namespace Stencil.Text

/-- A carriage return stands right before a newline somewhere in the text. -/
def HoldsPair (cs : List Char) : Prop := ['\r', '\n'] <:+: cs

variable {c : Char} {cs ds : List Char}

/-- An empty text holds no pair. -/
lemma not_holdsPair_nil : ¬ HoldsPair [] := by
  simp [HoldsPair]

/-- A pair starts at the first character or stands after it. -/
lemma holdsPair_cons_iff :
    HoldsPair (c :: cs) ↔ (c = '\r' ∧ cs.head? = some '\n') ∨ HoldsPair cs := by
  have start : ['\r', '\n'] <+: c :: cs ↔ c = '\r' ∧ cs.head? = some '\n' := by
    cases cs with
    | nil => simp
    | cons d cs => simp [List.cons_prefix_cons, eq_comm]
  rw [HoldsPair, List.infix_cons_iff, start, ← HoldsPair]

/-- A pair in two texts joined stands in one of them or where they meet. -/
lemma holdsPair_append_iff :
    HoldsPair (cs ++ ds) ↔
      HoldsPair cs ∨ HoldsPair ds ∨ (cs.getLast? = some '\r' ∧ ds.head? = some '\n') := by
  induction cs with
  | nil => simp [not_holdsPair_nil]
  | cons c cs ih =>
    rw [List.cons_append, holdsPair_cons_iff, holdsPair_cons_iff, ih]
    cases cs with
    | nil => simp [not_holdsPair_nil, or_comm]
    | cons d cs => simp [or_assoc]

/-- A text that holds a pair holds a carriage return. -/
lemma HoldsPair.mem (h : HoldsPair cs) : '\r' ∈ cs :=
  h.subset List.mem_cons_self

/-! ### Reading line endings -/

/-- A newline comes first in what is read when it comes first in the text, alone or in a pair. -/
lemma head?_unixLines_iff :
    (unixLines cs).head? = some '\n' ↔ cs.head? = some '\n' ∨ ['\r', '\n'] <+: cs := by
  fun_cases unixLines cs with
  | case1 => simp
  | case2 rest => simp
  | case3 c rest notPair =>
    have alone : ¬ ['\r', '\n'] <+: c :: rest := by
      rintro ⟨more, same⟩
      obtain ⟨rfl, rfl⟩ := List.cons.inj same
      exact notPair more rfl rfl
    simp [alone]

/-- A pair is left exactly where two carriage returns stood before a newline. -/
theorem holdsPair_unixLines_iff : HoldsPair (unixLines cs) ↔ ['\r', '\r', '\n'] <:+: cs := by
  fun_induction unixLines cs with
  | case1 => simp [HoldsPair]
  | case2 rest ih =>
    rw [holdsPair_cons_iff, ih]
    simp [List.infix_cons_iff, List.cons_prefix_cons]
  | case3 c rest notPair ih =>
    have start : ['\r', '\r', '\n'] <+: c :: rest ↔ c = '\r' ∧ ['\r', '\n'] <+: rest := by
      rw [List.cons_prefix_cons, eq_comm]
    have apart : c = '\r' → rest.head? ≠ some '\n' := by
      rintro rfl first
      obtain ⟨more, rfl⟩ := List.head?_eq_some_iff.mp first
      exact notPair more rfl rfl
    rw [holdsPair_cons_iff, head?_unixLines_iff, ih, List.infix_cons_iff, start]
    refine or_congr_left (and_congr_right fun isReturn => ?_)
    simp [apart isReturn]

/-- A carriage return that is read stood before something other than a newline, or at the end. -/
lemma exists_of_mem_unixLines (h : '\r' ∈ unixLines cs) :
    ∃ before after, cs = before ++ '\r' :: after ∧ after.head? ≠ some '\n' := by
  fun_induction unixLines cs with
  | case1 => cases h
  | case2 rest ih =>
    obtain ⟨before, after, rfl, apart⟩ := ih (by simpa using h)
    exact ⟨'\r' :: '\n' :: before, after, rfl, apart⟩
  | case3 c rest notPair ih =>
    rcases List.mem_cons.mp h with rfl | later
    · refine ⟨[], rest, rfl, fun first => ?_⟩
      obtain ⟨more, rfl⟩ := List.head?_eq_some_iff.mp first
      exact notPair more rfl rfl
    · obtain ⟨before, after, rfl, apart⟩ := ih later
      exact ⟨c :: before, after, rfl, apart⟩

end Stencil.Text
