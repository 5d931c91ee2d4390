/-!
# Searching and repeating

`occursIn` finds one list inside another, and `repeated` puts copies of a list one after another.
-/

namespace Stencil.Text

/-- Whether `needle` stands somewhere in the text. -/
def occursIn (needle : List Char) : List Char → Bool
  | [] => needle.isEmpty
  | c :: rest => needle.isPrefixOf (c :: rest) || occursIn needle rest

/-- So many copies of a list, one after another.  The branch for the empty list saves going through
copies that add nothing; it changes the running time only, not the result (`repeated_eq`). -/
def repeated {α : Type} (xs : List α) (times : Nat) : List α :=
  if xs.isEmpty then [] else (List.replicate times xs).flatten

theorem occursIn_iff {needle text : List Char} :
    occursIn needle text = true ↔ needle <:+: text := by
  induction text with
  | nil => simp [occursIn, List.isEmpty_iff]
  | cons c rest ih => simp [occursIn, ih, List.infix_cons_iff]

/-- With or without a branch for the empty list, repeating gives the copies joined. -/
theorem repeated_eq {α : Type} (xs : List α) (times : Nat) :
    repeated xs times = (List.replicate times xs).flatten := by
  unfold repeated
  split
  · next h => simp [List.isEmpty_iff.1 h]
  · rfl

end Stencil.Text
