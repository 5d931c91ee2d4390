import Stencil.Text.Blank
import Mathlib.Data.List.DropRight

/-!
# Trimmed texts

A trimmed text is a part of the text (`trim_infix`), and it is empty exactly when the text is blank
(`trim_eq_nil_iff`).  Blanks after a text make no difference to it (`trim_append`), and trimming
again changes nothing (`trim_trim`).
-/

namespace Stencil.Text

lemma isAllBlank_iff {cs : List Char} : isAllBlank cs = true ↔ ∀ c ∈ cs, isBlank c = true :=
  List.all_eq_true

lemma isAllBlank_append (cs x : List Char) :
    isAllBlank (cs ++ x) = (isAllBlank cs && isAllBlank x) :=
  List.all_append

/-- The blanks that are trimmed from the start make no difference to whether a text is blank. -/
lemma isAllBlank_trimStart (cs : List Char) : isAllBlank (trimStart cs) = isAllBlank cs := by
  have leading : isAllBlank (cs.takeWhile isBlank) = true :=
    isAllBlank_iff.mpr fun _ => List.mem_takeWhile_imp
  conv_rhs => rw [← takeWhile_append_trimStart cs]
  rw [isAllBlank_append, leading, Bool.true_and]

/-- Blanks after a text make no difference to its trimmed end. -/
lemma trimEnd_append_of_blank {x : List Char} (blank : isAllBlank x = true) (cs : List Char) :
    trimEnd (cs ++ x) = trimEnd cs := by
  have reversed : ∀ c ∈ x.reverse, isBlank c = true := by
    simpa using isAllBlank_iff.mp blank
  rw [trimEnd, List.reverse_append, List.dropWhile_append_of_pos reversed, trimEnd]

/-- Blanks after a text make no difference to the trimmed text. -/
lemma trim_append {x : List Char} (blank : isAllBlank x = true) (cs : List Char) :
    trim (cs ++ x) = trim cs := by
  unfold trim trimStart
  rw [List.dropWhile_append]
  split
  · next noText =>
    have noMore : x.dropWhile isBlank = [] :=
      List.dropWhile_eq_nil_iff.mpr (isAllBlank_iff.mp blank)
    rw [noMore, List.isEmpty_iff.mp noText]
  · exact trimEnd_append_of_blank blank _

/-- The trimmed text is the start of the text without its leading blanks. -/
lemma trim_prefix_trimStart (cs : List Char) : trim cs <+: trimStart cs :=
  List.rdropWhile_prefix isBlank _

/-- The trimmed text is a part of the text. -/
lemma trim_infix (cs : List Char) : trim cs <:+: cs :=
  (trim_prefix_trimStart cs).isInfix.trans (List.dropWhile_suffix isBlank).isInfix

/-- Nothing is left of a text exactly when it is blank. -/
lemma trim_eq_nil_iff {cs : List Char} : trim cs = [] ↔ isAllBlank cs = true := by
  rw [← isAllBlank_trimStart, isAllBlank_iff]
  exact List.rdropWhile_eq_nil_iff

/-- A trimmed text starts with no blank. -/
lemma trimStart_trim (cs : List Char) : trimStart (trim cs) = trim cs := by
  have starts := trim_prefix_trimStart cs
  cases trimmed : trim cs with
  | nil => rfl
  | cons c rest =>
    rw [trimmed] at starts
    obtain ⟨after, whole⟩ := starts
    have notBlank := List.head?_dropWhile_not isBlank cs
    rw [← trimStart, ← whole] at notBlank
    exact List.dropWhile_cons_of_neg (by simpa using notBlank)

/-- Trimming a trimmed text changes nothing. -/
lemma trim_trim (cs : List Char) : trim (trim cs) = trim cs := by
  have again : trimEnd (trim cs) = trim cs := List.rdropWhile_idempotent isBlank (trimStart cs)
  rw [trim, trimStart_trim, again]

end Stencil.Text
