import Stencil.Text.Line
import Mathlib.Data.List.TakeWhile
import Mathlib.Tactic.Common

/-!
# Texts as bytes, with checked slices

The library handles texts as lists of characters, where nothing can go out of range.  A program
that stores texts in UTF-8 names places in them by byte offsets, and stops at once when it slices a
text at an offset beyond the end or inside a character.  The modules of this directory write the
steps of the library down in that form: every operation that a machine cannot always carry out is
checked and gives a `Crash` where it fails.  They show that no check ever fails and that the results
are those of the library (`settled`).  Memory and the depth of the stack are taken to suffice.

Here are the texts: their bytes, their slices, and the excerpts of error messages.  An offset is
that of a cut when the text before it has that many bytes (`cutAt_eq_some_iff`), which is what
`String.Pos.Raw.IsValid` says of strings (`isSome_cutAt_iff`).
-/

namespace Stencil.Checked

/-- What stops a program without a result. -/
inductive Crash where
  | slice (offset : Nat)
  | index (position length : Nat)
  | arithmetic
  | capacity
  | unreachable
  deriving DecidableEq, Repr

/-- Computations that can fail with an error, and could crash. -/
abbrev Guarded (ε : Type) := ExceptT ε (Except Crash)

/-- The computation that does not crash and ends with this result. -/
def settled {ε α : Type} (r : Except ε α) : Guarded ε α := ExceptT.mk (.ok r)

/-- The computation that crashes. -/
def crash {ε α : Type} (c : Crash) : Guarded ε α := ExceptT.mk (.error c)

section Settled

variable {ε ε' α β : Type}

lemma settled_ok (a : α) : settled (.ok a : Except ε α) = pure a := rfl

/-- A computation is settled when it does not crash. -/
theorem exists_eq_settled_iff {x : Guarded ε α} :
    (∃ r, x = settled r) ↔ ∀ c : Crash, x ≠ crash c := by
  constructor
  · rintro ⟨r, rfl⟩ c same
    cases same
  · intro never
    cases run : x.run with
    | error c => exact absurd run (never c)
    | ok r => exact ⟨r, run⟩

/-- A checked step that does not crash is the result of that step. -/
@[simp] lemma liftM_ok (a : α) :
    (liftM (Except.ok a : Except Crash α) : Guarded ε α) = pure a := rfl

/-- A computation in two parts does not crash when neither part does. -/
lemma settled_bind {x : Except ε α} {f : α → Guarded ε β} {g : α → Except ε β}
    (h : ∀ a, x = .ok a → f a = settled (g a)) : settled x >>= f = settled (x >>= g) := by
  cases x with
  | error e => rfl
  | ok a => exact h a rfl

lemma adapt_settled (f : ε → ε') (x : Except ε α) :
    ExceptT.adapt f (settled x) = settled (x.mapError f) := by
  cases x <;> rfl

end Settled

/-! ### Bytes and cuts -/

/-- The bytes of a text in UTF-8. -/
def bytes (cs : List Char) : List UInt8 := cs.flatMap String.utf8EncodeChar

/-- How many bytes a text takes. -/
def byteLength (cs : List Char) : Nat := (bytes cs).length

/-- A text cut after so many bytes; there is no cut beyond its end or inside a character. -/
def cutAt : Nat → List Char → Option (List Char × List Char)
  | 0, cs => some ([], cs)
  | _ + 1, [] => none
  | n + 1, c :: cs =>
    if c.utf8Size ≤ n + 1 then
      (cutAt (n + 1 - c.utf8Size) cs).map fun p => (c :: p.1, p.2)
    else none

/-- The text before an offset. -/
def sliceTo (offset : Nat) (cs : List Char) : Except Crash (List Char) :=
  match cutAt offset cs with
  | some (front, _) => .ok front
  | none => .error (.slice offset)

/-- The text from an offset on. -/
def sliceFrom (offset : Nat) (cs : List Char) : Except Crash (List Char) :=
  match cutAt offset cs with
  | some (_, back) => .ok back
  | none => .error (.slice offset)

/-- The text between two offsets. -/
def slice (start stop : Nat) (cs : List Char) : Except Crash (List Char) := do
  sliceFrom start (← sliceTo stop cs)

variable {cs front middle back : List Char} {n : Nat}

@[simp] lemma bytes_nil : bytes [] = [] := rfl

@[simp] lemma bytes_cons (c : Char) (cs : List Char) :
    bytes (c :: cs) = String.utf8EncodeChar c ++ bytes cs := List.flatMap_cons

@[simp] lemma byteLength_nil : byteLength [] = 0 := rfl

@[simp] lemma byteLength_cons (c : Char) (cs : List Char) :
    byteLength (c :: cs) = c.utf8Size + byteLength cs := by
  simp [byteLength]

@[simp] lemma byteLength_append (cs ds : List Char) :
    byteLength (cs ++ ds) = byteLength cs + byteLength ds := by
  simp [byteLength, bytes]

lemma byteLength_eq_zero_iff : byteLength cs = 0 ↔ cs = [] := by
  cases cs with
  | nil => simp
  | cons c cs =>
    have := c.utf8Size_pos
    simp only [byteLength_cons, reduceCtorEq, iff_false]
    omega

lemma utf8ByteSize_ofList (cs : List Char) : (String.ofList cs).utf8ByteSize = byteLength cs := by
  rw [← String.size_toByteArray, String.toByteArray_ofList]
  simp [byteLength, bytes, List.utf8Encode]

/-- A cut is where the text before it has that many bytes. -/
theorem cutAt_eq_some_iff :
    cutAt n cs = some (front, back) ↔ front ++ back = cs ∧ byteLength front = n := by
  constructor
  · intro h
    fun_induction cutAt n cs generalizing front with
    | case1 cs =>
      obtain ⟨rfl, rfl⟩ := Prod.mk.inj (Option.some.inj h)
      simp
    | case2 => simp at h
    | case3 n c cs fits ih =>
      obtain ⟨⟨inner, rest⟩, found, same⟩ := Option.map_eq_some_iff.1 h
      obtain ⟨rfl, rfl⟩ := Prod.mk.inj same
      obtain ⟨rfl, size⟩ := ih found
      refine ⟨rfl, ?_⟩
      rw [byteLength_cons, size]
      omega
    | case4 => simp at h
  · rintro ⟨rfl, rfl⟩
    induction front with
    | nil => rw [byteLength_nil, List.nil_append, cutAt]
    | cons c front ih =>
      -- a character takes at least a byte, so the offset is not zero and the walk passes it
      obtain ⟨k, size⟩ : ∃ k, byteLength (c :: front) = k + 1 :=
        Nat.exists_eq_succ_of_ne_zero (mt byteLength_eq_zero_iff.1 (List.cons_ne_nil c front))
      have left : k + 1 - c.utf8Size = byteLength front := by
        rw [← size, byteLength_cons]
        omega
      have fits : c.utf8Size ≤ k + 1 := by
        rw [← size, byteLength_cons]
        omega
      rw [size, List.cons_append, cutAt, if_pos fits, left, ih]
      rfl

/-- A slice that starts or ends inside a character crashes. -/
example : sliceTo 1 ['é'] = .error (.slice 1) := by decide

/-- The offsets of cuts are the valid positions of the string. -/
theorem isSome_cutAt_iff :
    (cutAt n cs).isSome ↔ String.Pos.Raw.IsValid (String.ofList cs) ⟨n⟩ := by
  rw [String.Pos.Raw.isValid_ofList, Option.isSome_iff_exists]
  constructor
  · rintro ⟨⟨front, back⟩, cut⟩
    obtain ⟨rfl, rfl⟩ := cutAt_eq_some_iff.1 cut
    exact ⟨front.length, by rw [List.take_left, utf8ByteSize_ofList]⟩
  · rintro ⟨i, same⟩
    exact ⟨(cs.take i, cs.drop i), cutAt_eq_some_iff.2
      ⟨List.take_append_drop i cs, by rw [← utf8ByteSize_ofList]; exact same.symm⟩⟩

lemma sliceTo_eq (whole : front ++ back = cs) (size : byteLength front = n) :
    sliceTo n cs = .ok front := by
  rw [sliceTo, cutAt_eq_some_iff.2 ⟨whole, size⟩]

lemma sliceFrom_eq (whole : front ++ back = cs) (size : byteLength front = n) :
    sliceFrom n cs = .ok back := by
  rw [sliceFrom, cutAt_eq_some_iff.2 ⟨whole, size⟩]

lemma slice_eq {start stop : Nat} (whole : front ++ middle ++ back = cs)
    (first : byteLength front = start) (second : byteLength (front ++ middle) = stop) :
    slice start stop cs = .ok middle := by
  rw [slice, sliceTo_eq whole second]
  exact sliceFrom_eq rfl first

/-! ### Characters and their offsets -/

/-- The characters of a text with the offsets they start at, the first of them at `start`. -/
def indicesFrom (start : Nat) : List Char → List (Nat × Char)
  | [] => []
  | c :: cs => (start, c) :: indicesFrom (start + c.utf8Size) cs

/-- The characters of a text with the offsets they start at. -/
def indices (cs : List Char) : List (Nat × Char) := indicesFrom 0 cs

@[simp] lemma length_indicesFrom (start : Nat) (cs : List Char) :
    (indicesFrom start cs).length = cs.length := by
  induction cs generalizing start with
  | nil => rfl
  | cons c cs ih => simp [indicesFrom, ih]

/-- The offset of a character is the size of the text before it. -/
lemma getElem?_indicesFrom (start : Nat) (cs : List Char) (i : Nat) :
    (indicesFrom start cs)[i]? = cs[i]?.map fun c => (start + byteLength (cs.take i), c) := by
  induction cs generalizing start i with
  | nil => rfl
  | cons c cs ih =>
    cases i with
    | zero => simp [indicesFrom]
    | succ i => simp [indicesFrom, ih, Nat.add_assoc]

/-! ### Excerpts -/

/-- The end of a text: the slice from the character that is `excerptLength` places before the end,
or the whole text when there is no such character. -/
def excerpt (cs : List Char) : Except Crash (List Char) :=
  match (indices cs).reverse[Text.excerptLength - 1]? with
  | some (offset, _) => sliceFrom offset cs
  | none => .ok cs

/-- Excerpts start between characters, so that taking one does not crash. -/
theorem excerpt_eq (cs : List Char) : excerpt cs = .ok (Text.excerpt cs) := by
  by_cases short : cs.length < Text.excerptLength
  · have absent : (indices cs).reverse[Text.excerptLength - 1]? = none := by
      rw [List.getElem?_eq_none_iff, List.length_reverse, indices, length_indicesFrom]
      omega
    rw [excerpt, absent, Text.excerpt, Nat.sub_eq_zero_of_le (by omega), List.drop_zero]
  · have inside : cs.length - Text.excerptLength < cs.length := by
      simp only [Text.excerptLength] at short ⊢
      omega
    have place : cs.length - 1 - (Text.excerptLength - 1) = cs.length - Text.excerptLength := by
      simp only [Text.excerptLength]
      omega
    have found : (indices cs).reverse[Text.excerptLength - 1]? =
        some (byteLength (cs.take (cs.length - Text.excerptLength)),
          cs[cs.length - Text.excerptLength]) := by
      have bound : Text.excerptLength - 1 < (indices cs).length := by
        rw [indices, length_indicesFrom]
        omega
      rw [List.getElem?_reverse bound, indices, length_indicesFrom, place, getElem?_indicesFrom,
        List.getElem?_eq_getElem inside]
      simp
    rw [excerpt, found]
    exact sliceFrom_eq (List.take_append_drop _ cs) rfl

end Stencil.Checked
