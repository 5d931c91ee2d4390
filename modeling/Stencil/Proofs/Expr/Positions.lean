import Stencil.Proofs.Checked.Eval
import Stencil.Proofs.Expr.Comparisons

/-!
# Positions from either end

A position names an item of a sequence or a character of a text.  Those of `n` elements are the
integers from `-n` up to `n - 1`: the ones that are not negative count from the start and the others
from the end, so every element has two positions, `n` apart.  All other integers are refused.  Words
resolve a position without overflow, down to the least one, because a length and a negative word
have different signs (`wordPlace?_eq_some_iff`).  The characters of a text, taken one by one, join
to the text again (`eval_gathered`).  `index_from_either_end` puts this together.
-/

namespace Stencil

namespace Number

/-! ### Places -/

/-- The position is one of `n` elements. -/
def Within (n : Nat) (i : Int64) : Prop := -(n : Int) ≤ i.toInt ∧ i.toInt < n

instance (n : Nat) (i : Int64) : Decidable (Within n i) := inferInstanceAs (Decidable (_ ∧ _))

/-- A position among `n` elements, counted from the start. -/
def fromStart (n : Nat) (i : Int64) : Int := if i.toInt < 0 then n + i.toInt else i.toInt

/-- The place that a position names among `n` elements. -/
def place (n : Nat) (i : Int64) : Nat := (fromStart n i).toNat

lemma within_iff {n : Nat} {i : Int64} :
    Within n i ↔ 0 ≤ fromStart n i ∧ fromStart n i < n := by
  rw [Within, fromStart]
  split <;> omega

lemma place_lt {n : Nat} {i : Int64} (h : Within n i) : place n i < n := by
  rw [within_iff] at h
  rw [place]
  omega

/-- A position that is not negative is a place. -/
lemma place_of_eq {n k : Nat} {i : Int64} (h : i.toInt = k) : place n i = k := by
  rw [place, fromStart, if_neg (by omega), h, Int.toNat_natCast]

/-- A negative position is as far from the end. -/
lemma place_of_add_eq {n k : Nat} {i : Int64} (negative : i.toInt < 0) (h : n + i.toInt = k) :
    place n i = k := by
  rw [place, fromStart, if_pos negative, h, Int.toNat_natCast]

/-! ### Words -/

/-- The length as a signed word, unless it is too large for one. -/
def signed? (length : UInt64) : Option Int64 :=
  if length.toInt64 < 0 then none else some length.toInt64

/-- The sum of two words, unless it is out of range. -/
def checkedSum? (a b : Int64) : Option Int64 :=
  if Int64.minValue.toInt ≤ a.toInt + b.toInt ∧ a.toInt + b.toInt ≤ Int64.maxValue.toInt then
    some (a + b)
  else none

/-- The word that a position is moved to when it counts from the end. -/
def resolved? (length : UInt64) (i : Int64) : Option Int64 :=
  if i < 0 then (signed? length).bind (checkedSum? · i) else some i

/-- The place that a position names, as far as words tell. -/
def wordPlace? (length : UInt64) (i : Int64) : Option UInt64 :=
  ((resolved? length i).bind fun k => if k < 0 then none else some k.toUInt64).filter (· < length)

variable {length : UInt64} {i : Int64}

/-- A length that memory has room for is a signed word. -/
lemma signed?_eq (short : length.toNat < 2 ^ 63) :
    signed? length = some length.toInt64 ∧ length.toInt64.toInt = length.toNat := by
  have value : length.toInt64.toInt = length.toNat := by
    change length.toBitVec.toInt = length.toBitVec.toNat
    rw [BitVec.toInt_eq_toNat_of_lt (by change 2 * length.toNat < 2 ^ 64; omega)]
  refine ⟨if_neg ?_, value⟩
  rw [Int64.lt_iff_toInt_lt, value, Int64.toInt_zero]
  omega

/-- A checked sum has the exact value. -/
lemma checkedSum?_eq_some {a b k : Int64} (sum : k.toInt = a.toInt + b.toInt) :
    checkedSum? a b = some k := by
  have fits : narrow? (a.toInt + b.toInt) = some k := narrow?_eq_some_iff.mpr sum
  have range : Int64.minValue.toInt ≤ a.toInt + b.toInt ∧
      a.toInt + b.toInt ≤ Int64.maxValue.toInt := by
    by_contra out
    rw [narrow?, if_neg out] at fits
    cases fits
  rw [narrow?, if_pos range, Int64.ofInt_add, Int64.ofInt_toInt, Int64.ofInt_toInt] at fits
  rw [checkedSum?, if_pos range, fits]

/-- No position overflows: it is resolved to the exact sum when it counts from the end. -/
lemma resolved?_eq_some (short : length.toNat < 2 ^ 63) (i : Int64) :
    ∃ k, resolved? length i = some k ∧ k.toInt = fromStart length.toNat i := by
  obtain ⟨signed, value⟩ := signed?_eq short
  by_cases negative : i.toInt < 0
  · have below : i < 0 := Int64.lt_iff_toInt_lt.mpr negative
    have opposite : ¬ (length.toInt64.toInt < 0 ↔ i.toInt < 0) := by omega
    obtain ⟨k, sum⟩ := Checked.exists_toInt_eq_add opposite
    refine ⟨k, ?_, ?_⟩
    · rw [resolved?, if_pos below, signed, Option.bind_some, checkedSum?_eq_some sum]
    · rw [fromStart, if_pos negative, sum, value]
  · have above : ¬ i < 0 := fun below => negative (Int64.lt_iff_toInt_lt.mp below)
    exact ⟨i, if_neg above, (if_neg negative).symm⟩

/-- Words tell which place a position names, and whether it names one. -/
lemma wordPlace?_eq_some_iff (short : length.toNat < 2 ^ 63) (k : UInt64) :
    wordPlace? length i = some k ↔ Within length.toNat i ∧ k.toNat = place length.toNat i := by
  obtain ⟨r, resolved, value⟩ := resolved?_eq_some short i
  rw [wordPlace?, resolved, Option.bind_some, within_iff, ← value]
  by_cases negative : r < 0
  · have below := Int64.lt_iff_toInt_lt.mp negative
    rw [Int64.toInt_zero] at below
    rw [if_pos negative]
    exact iff_of_false (by simp) fun within => by omega
  · have above := Int64.not_lt.mp negative
    have moved : r.toUInt64.toNat = r.toInt.toNat := by
      rw [Int64.toNat_toUInt64_of_le above, Int64.toNat_toInt]
    have notNegative := Int64.le_iff_toInt_le.mp above
    rw [Int64.toInt_zero] at notNegative
    rw [if_neg negative, Option.filter_eq_some_iff, Option.some.injEq, decide_eq_true_eq,
      UInt64.lt_iff_toNat_lt, place, ← value]
    constructor
    · rintro ⟨rfl, below⟩
      exact ⟨⟨notNegative, by omega⟩, moved⟩
    · rintro ⟨⟨-, below⟩, same⟩
      exact ⟨UInt64.toNat_inj.mp (moved.trans same.symm), by omega⟩

/-- Words resolve the position among so many elements: nothing overflows, and the place is the one
that the position names. -/
structure WordsResolve (length : UInt64) (i : Int64) : Prop where
  exact : ∃ k, resolved? length i = some k ∧
    k.toInt = if i.toInt < 0 then (length.toNat : Int) + i.toInt else i.toInt
  placed : ∀ k, wordPlace? length i = some k ↔
    (-(length.toNat : Int) ≤ i.toInt ∧ i.toInt < length.toNat) ∧
      (k.toNat : Int) = if i.toInt < 0 then (length.toNat : Int) + i.toInt else i.toInt

lemma wordsResolve (short : length.toNat < 2 ^ 63) (i : Int64) : WordsResolve length i := by
  constructor
  case exact => exact resolved?_eq_some short i
  case placed =>
    intro k
    rw [wordPlace?_eq_some_iff short]
    refine and_congr_right fun within => ?_
    have low := (within_iff.mp within).1
    rw [place, ← fromStart]
    omega

end Number

open Number (Within place)

namespace Value

/-- The elements that positions name: the items of a sequence, and the characters of a text as texts
of their own. -/
def elements? : Value → Option (List Value)
  | .text s => some (s.toList.map fun c => .text c.toString)
  | .sequence items => some items
  | _ => none

variable {v : Value} {es : List Value}

/-- A position within the list names the element at its place. -/
lemma element_of_within {α : Type} (xs : List α) {i : Int64} (h : Within xs.length i) :
    element xs i = .ok (xs.get ⟨place xs.length i, Number.place_lt h⟩) := by
  have low : ¬ Number.fromStart xs.length i < 0 := Int.not_lt.mpr (Number.within_iff.mp h).1
  have found := List.getElem?_eq_getElem (Number.place_lt h)
  rw [element, ← Number.fromStart, if_neg low, ← place, found, List.get_eq_getElem]

/-- All other positions are refused. -/
lemma element_of_not_within {α : Type} (xs : List α) {i : Int64} (h : ¬ Within xs.length i) :
    element xs i = .error (.outOfRange i) := by
  rw [Number.within_iff] at h
  rw [element, ← Number.fromStart]
  split
  · rfl
  · have beyond : xs.length ≤ place xs.length i := by
      rw [place]
      omega
    rw [← place, List.getElem?_eq_none beyond]

/-- Positions name the elements of what has elements. -/
lemma index_integer (h : v.elements? = some es) (i : Int64) :
    v.index (.integer i) = element es i := by
  cases v with
  | text s =>
    obtain rfl := Option.some.inj h
    rw [index]
    by_cases within : Within s.toList.length i
    · have mapped : Within (s.toList.map fun c => Value.text c.toString).length i := by
        rwa [List.length_map]
      rw [element_of_within _ within, element_of_within _ mapped]
      simp only [List.get_eq_getElem, List.getElem_map, List.length_map]
      rfl
    · have mapped : ¬ Within (s.toList.map fun c => Value.text c.toString).length i := by
        rwa [List.length_map]
      rw [element_of_not_within _ within, element_of_not_within _ mapped]
      rfl
  | sequence items =>
    obtain rfl := Option.some.inj h
    rfl
  | _ => cases h

end Value

namespace Expr

/-- The outcome is the element of `es` at position `i`, or the refusal when there is none. -/
structure ElementAt (outcome : Except EvalError Value) (es : List Value) (i : Int64) : Prop where
  succeeds : (∃ w, outcome = .ok w) ↔ -(es.length : Int) ≤ i.toInt ∧ i.toInt < es.length
  fromStart : ∀ (k : Nat) (h : k < es.length), i.toInt = k → outcome = .ok es[k]
  fromEnd : ∀ (k : Nat) (h : k < es.length), i.toInt < 0 → es.length + i.toInt = k →
    outcome = .ok es[k]
  refused : ¬ (-(es.length : Int) ≤ i.toInt ∧ i.toInt < es.length) →
    outcome = .error (.operand (.outOfRange i))

/-- The sum of the elements of `x` at the given positions, after the empty text. -/
def gathered (x : Expr) (positions : List Expr) : Expr :=
  positions.foldl (fun sum y => .binary .add sum (.index x y)) (.literal (.text ""))

variable {scope : Scope} {x : Expr} {v : Value} {es : List Value}

/-- The value of an access to an element. -/
lemma eval_index {y : Expr} {i : Int64} (hx : x.eval scope = .ok v)
    (hy : y.eval scope = .ok (.integer i)) (indexable : v.elements? = some es) :
    (Expr.index x y).eval scope = refuse (Value.element es i) := by
  rw [eval, hx, hy, ← Value.index_integer indexable]
  rfl

/-- An access to an element gives the element at the position. -/
lemma elementAt_of_eq {outcome : Except EvalError Value} {i : Int64}
    (h : outcome = refuse (Value.element es i)) : ElementAt outcome es i := by
  have found (within : Within es.length i) :
      outcome = .ok (es.get ⟨place es.length i, Number.place_lt within⟩) := by
    rw [h, Value.element_of_within es within]
    rfl
  have missing (without : ¬ Within es.length i) :
      outcome = .error (.operand (.outOfRange i)) := by
    rw [h, Value.element_of_not_within es without]
    rfl
  constructor
  case succeeds =>
    constructor
    · rintro ⟨w, ok⟩
      by_contra without
      rw [missing without] at ok
      cases ok
    · exact fun within => ⟨_, found within⟩
  case fromStart =>
    intro k below same
    have within : Within es.length i := ⟨by omega, by omega⟩
    rw [found within]
    simp only [List.get_eq_getElem, Number.place_of_eq same]
  case fromEnd =>
    intro k below negative same
    have within : Within es.length i := ⟨by omega, by omega⟩
    rw [found within]
    simp only [List.get_eq_getElem, Number.place_of_add_eq negative same]
  case refused => exact missing

/-- Characters that are taken from a text one by one are added to the text before them. -/
lemma eval_gathered {positions : List Expr} {cs : List Char}
    (each : List.Forall₂ (fun y (c : Char) =>
      (Expr.index x y).eval scope = .ok (.text c.toString)) positions cs)
    {start : Expr} {s : String} (first : start.eval scope = .ok (.text s)) :
    (positions.foldl (fun sum y => .binary .add sum (.index x y)) start).eval scope =
      .ok (.text (s ++ String.ofList cs)) := by
  induction each generalizing start s with
  | nil => simpa using first
  | @cons y c positions cs taken _ ih =>
    have sum := eval_binary first taken .add
    have text : s ++ c.toString ++ String.ofList cs = s ++ String.ofList (c :: cs) := by
      apply String.toList_inj.mp
      simp
    rw [List.foldl_cons, ih sum, text]

/-- Positions name the elements of a sequence, or the characters of a text, from either end, and
nothing else; words find the same places and never overflow.  Two positions that are as far apart as
the length name the same element, and the characters of a text, one after another, are the text. -/
theorem index_from_either_end (hx : x.eval scope = .ok v) (indexable : v.elements? = some es) :
    (∀ (y : Expr) (i : Int64), y.eval scope = .ok (.integer i) →
      ElementAt ((Expr.index x y).eval scope) es i ∧
        ∀ length : UInt64, length.toNat = es.length → es.length < 2 ^ 63 →
          Number.WordsResolve length i) ∧
      (∀ (y z : Expr) (i j : Int64), y.eval scope = .ok (.integer i) →
        z.eval scope = .ok (.integer j) → 0 ≤ i.toInt → i.toInt < es.length →
        j.toInt = i.toInt - es.length →
        ∃ w, (Expr.index x y).eval scope = .ok w ∧ (Expr.index x z).eval scope = .ok w) ∧
      ∀ s, v = .text s → ∀ positions : List Expr,
        List.Forall₂ (fun y (k : Nat) => ∃ i : Int64, i.toInt = k ∧
          y.eval scope = .ok (.integer i)) positions (List.range es.length) →
        (gathered x positions).eval scope = .ok (.text s) := by
  refine ⟨fun y i hy => ⟨elementAt_of_eq (eval_index hx hy indexable), ?_⟩, ?_, ?_⟩
  · intro length same short
    exact Number.wordsResolve (same ▸ short) i
  · intro y z i j hy hz low high apart
    have first := elementAt_of_eq (eval_index hx hy indexable)
    have second := elementAt_of_eq (eval_index hx hz indexable)
    have below : i.toInt.toNat < es.length := by omega
    exact ⟨_, first.fromStart _ below (by omega), second.fromEnd _ below (by omega) (by omega)⟩
  · rintro s rfl positions counted
    obtain rfl := Option.some.inj indexable
    have each : List.Forall₂ (fun y (c : Char) =>
        (Expr.index x y).eval scope = .ok (.text c.toString)) positions s.toList := by
      rw [List.forall₂_iff_get] at counted ⊢
      refine ⟨by simpa using counted.1, fun k below before => ?_⟩
      obtain ⟨i, same, hy⟩ := counted.2 k below (by simpa using before)
      have taken := (elementAt_of_eq (eval_index hx hy indexable)).fromStart k
        (by rwa [List.length_map]) (by simpa using same)
      simpa using taken
    have start : (Expr.literal (.text "")).eval scope = .ok (.text "") := eval.eq_1 scope _
    rw [gathered, eval_gathered each start]
    simp

/-- The characters of a text take one to four bytes each; the positions of the first and the last
one, the first position after them and the least integer. -/
theorem index_from_either_end_text :
    let scope : Scope := fun _ => none
    let x := Expr.literal (.text "aé𝄞")
    let position (i : Int64) := Expr.literal (.integer i)
    (Expr.index x (position (-3))).eval scope = .ok (.text "a") ∧
      (Expr.index x (position 2)).eval scope = .ok (.text "𝄞") ∧
      (Expr.index x (position 3)).eval scope = .error (.operand (.outOfRange 3)) ∧
      (Expr.index x (position Int64.minValue)).eval scope =
        .error (.operand (.outOfRange Int64.minValue)) ∧
      Number.WordsResolve 3 Int64.minValue ∧
      (gathered x [position 0, position 1, position 2]).eval scope = .ok (.text "aé𝄞") := by
  intro scope x position
  have elements : (Value.text "aé𝄞").elements? =
      some [.text "a", .text "é", .text "𝄞"] := by rfl
  obtain ⟨access, -, whole⟩ :=
    @index_from_either_end scope x (.text "aé𝄞") _ rfl elements
  have first := (access (position (-3)) (-3) rfl).1.fromEnd 0 (by decide) (by decide) (by decide)
  have last := (access (position 2) 2 rfl).1.fromStart 2 (by decide) (by decide)
  have after := (access (position 3) 3 rfl).1.refused (by decide)
  obtain ⟨least, words⟩ := access (position Int64.minValue) Int64.minValue rfl
  refine ⟨first, last, after, least.refused (by decide), words 3 rfl (by decide), ?_⟩
  exact whole "aé𝄞" rfl _
    (.cons ⟨0, rfl, rfl⟩ (.cons ⟨1, rfl, rfl⟩ (.cons ⟨2, rfl, rfl⟩ .nil)))

end Expr

end Stencil
