import Stencil.Proofs.Text.ReturnPair

/-!
# Line endings

A text can be written with a carriage return before some of its newlines (`EndsLines`).  If no
carriage return stood before a newline in the text, reading such pairs as newlines gives the text
back, whichever newlines were written that way (`unixLines_of_endsLines`).  Of a text that holds
pairs, what is read is the text with a newline for each of them (`readsLines_iff`).
-/

namespace Stencil.Text

/-- The second text is the first with a carriage return written before some of the newlines. -/
inductive EndsLines : List Char → List Char → Prop where
  | nil : EndsLines [] []
  | char {cs written : List Char} (c : Char) (others : EndsLines cs written) :
      EndsLines (c :: cs) (c :: written)
  | pair {cs written : List Char} (others : EndsLines cs written) :
      EndsLines ('\n' :: cs) ('\r' :: '\n' :: written)

/-- A text is written as it is when no newline gets a carriage return. -/
lemma EndsLines.refl (cs : List Char) : EndsLines cs cs := by
  induction cs with
  | nil => exact .nil
  | cons c cs ih => exact .char c ih

/-- A character stays as it is unless it is a carriage return before a newline. -/
lemma unixLines_cons {c : Char} {cs : List Char} (h : c = '\r' → cs.head? ≠ some '\n') :
    unixLines (c :: cs) = c :: unixLines cs := by
  rw [unixLines]
  rintro rest rfl rfl
  exact h rfl rfl

/-- Reading the line endings undoes any choice of them. -/
theorem unixLines_of_endsLines {cs written : List Char} (h : EndsLines cs written)
    (noPair : ¬ ['\r', '\n'] <:+: cs) : unixLines written = cs := by
  induction h with
  | nil => rfl
  | @char cs written c others ih =>
    have rest := ih fun inside => noPair (List.infix_cons inside)
    rw [unixLines_cons, rest]
    -- A newline at the start of what is written stands at the start of the text.
    rintro rfl first
    cases others with
    | nil => cases first
    | pair => cases first
    | char c =>
      cases first
      exact noPair ⟨[], _, rfl⟩
  | pair others ih =>
    rw [unixLines, ih fun inside => noPair (List.infix_cons inside)]

/-! ### What is read -/

/-- The second text is the first with a newline for each pair: up to the first pair, and if there is
none up to the end, the two are the same. -/
inductive ReadsLines : List Char → List Char → Prop where
  | last {cs : List Char} (noPair : ¬ HoldsPair cs) : ReadsLines cs cs
  | pair {cs written read : List Char} (noPair : ¬ HoldsPair cs)
      (others : ReadsLines written read) :
      ReadsLines (cs ++ '\r' :: '\n' :: written) (cs ++ '\n' :: read)

/-- A character in front is read as it is unless it is a carriage return before a newline. -/
lemma ReadsLines.cons {c : Char} {written read : List Char} (h : ReadsLines written read)
    (apart : c = '\r' → written.head? ≠ some '\n') :
    ReadsLines (c :: written) (c :: read) := by
  cases h with
  | last noPair =>
    refine .last fun inside => ?_
    rcases holdsPair_cons_iff.mp inside with ⟨isReturn, first⟩ | later
    · exact apart isReturn first
    · exact noPair later
  | @pair cs written read noPair others =>
    refine @ReadsLines.pair (c :: cs) written read (fun inside => ?_) others
    rcases holdsPair_cons_iff.mp inside with ⟨isReturn, first⟩ | later
    · exact apart isReturn (by rw [List.head?_append, first]; rfl)
    · exact noPair later

/-- A text up to a pair is read as it is when it holds none itself. -/
lemma unixLines_append_pair {cs : List Char} (noPair : ¬ HoldsPair cs) (written : List Char) :
    unixLines (cs ++ '\r' :: '\n' :: written) = cs ++ '\n' :: unixLines written := by
  induction cs with
  | nil => rw [List.nil_append, List.nil_append, unixLines]
  | cons c cs ih =>
    rw [holdsPair_cons_iff, not_or] at noPair
    obtain ⟨apart, noPair⟩ := noPair
    rw [List.cons_append, List.cons_append, unixLines_cons, ih noPair]
    -- The pair itself starts with a carriage return, so no newline comes right after the text.
    rintro rfl first
    cases cs with
    | nil => cases first
    | cons d cs => exact apart ⟨rfl, first⟩

/-- What is read is the text with a newline for each pair, and nothing else is. -/
theorem readsLines_iff {written read : List Char} :
    ReadsLines written read ↔ read = unixLines written := by
  constructor
  · intro h
    induction h with
    | last noPair => exact (unixLines_of_endsLines (.refl _) noPair).symm
    | pair noPair others ih => rw [unixLines_append_pair noPair, ih]
  · rintro rfl
    fun_induction unixLines written with
    | case1 => exact .last not_holdsPair_nil
    | case2 rest ih => exact .pair not_holdsPair_nil ih
    | case3 c rest notPair ih =>
      refine ih.cons fun isReturn first => ?_
      obtain ⟨more, rfl⟩ := List.head?_eq_some_iff.mp first
      exact notPair more isReturn rfl

end Stencil.Text
