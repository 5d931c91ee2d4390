import Stencil.Expr.Eval
import Stencil.Proofs.Expr.Comparisons

/-!
# Repetition

A text or a sequence times an integer is so many copies of it, one after another, whichever of the
two operands comes first.  A negative integer counts as zero, and more than `maxRepetition` bytes or
items are refused; a product of words that is checked for overflow tells the same
(`tooLarge_iff`), so no count wraps around.  Copies can be made in two parts (`add_copied`).
`repetition` puts this together.
-/

namespace Stencil

namespace Value

/-- How many bytes a text has, or how many items a sequence; nothing else is repeated. -/
def size? : Value → Option Nat
  | .text s => some s.utf8ByteSize
  | .sequence items => some items.length
  | _ => none

/-- So many copies of a text or a sequence, one after another. -/
def copied (times : Nat) : Value → Value
  | .text s => .text (String.join (List.replicate times s))
  | .sequence items => .sequence (List.replicate times items).flatten
  | v => v

variable {v : Value} {size : Nat}

/-- The characters of a repeated text are repeated. -/
lemma ofList_repeated (s : String) (times : Nat) :
    String.ofList (Text.repeated s.toList times) = String.join (List.replicate times s) := by
  apply String.toList_inj.mp
  rw [String.toList_ofList, Text.repeated_eq, String.toList_join, List.flatMap_def,
    List.map_replicate]

/-- What can be repeated is repeated as often as the integer says, or refused when that is too
much. -/
lemma multiply_integer (h : v.size? = some size) (n : Int64) :
    v.multiply (.integer n) =
      if size * n.toInt.toNat ≤ maxRepetition then .ok (v.copied n.toInt.toNat)
      else .error .repetitionTooLarge := by
  cases v with
  | text s =>
    obtain rfl : s.utf8ByteSize = size := Option.some.inj h
    rw [multiply, repeatText, copies]
    split
    · exact congrArg (fun copies => Except.ok (Value.text copies)) (ofList_repeated s _)
    · rfl
  | sequence items =>
    obtain rfl : items.length = size := Option.some.inj h
    rw [multiply, repeatItems, copies]
    split
    · exact congrArg (fun copies => Except.ok (Value.sequence copies)) (Text.repeated_eq items _)
    · rfl
  | _ => simp [size?] at h

/-- The integer may come first. -/
lemma integer_multiply (h : v.size? = some size) (n : Int64) :
    (Value.integer n).multiply v = v.multiply (.integer n) := by
  cases v with
  | text s => rfl
  | sequence items => rfl
  | _ => simp [size?] at h

/-- Some copies and some more of them are as many together. -/
lemma add_copied (h : v.size? = some size) (j k : Nat) :
    (v.copied j).add (v.copied k) = .ok (v.copied (j + k)) := by
  cases v with
  | text s =>
    have joined : String.join (List.replicate (j + k) s) =
        String.join (List.replicate j s) ++ String.join (List.replicate k s) := by
      apply String.toList_inj.mp
      rw [String.toList_append, String.toList_join, String.toList_join, String.toList_join,
        List.replicate_add, List.flatMap_append]
    rw [copied, copied, copied, add, joined]
  | sequence items =>
    rw [copied, copied, copied, add, List.replicate_add, List.flatten_append]
  | _ => simp [size?] at h

/-! ### Words -/

/-- The product of two words, unless it is out of range. -/
def checkedProduct? (a b : UInt64) : Option UInt64 :=
  if a.toNat * b.toNat < UInt64.size then some (a * b) else none

/-- Whether so many copies of something with this size are too large, as far as words tell. -/
def TooLarge (size : UInt64) (count : Int64) : Prop :=
  match checkedProduct? size (if count < 0 then 0 else count.toUInt64) with
  | some total => 1048576 < total
  | none => True

/-- The count as a word, which is zero instead of a negative number. -/
lemma toNat_clamped (count : Int64) :
    (if count < 0 then 0 else count.toUInt64).toNat = count.toInt.toNat := by
  by_cases negative : count < 0
  · have below := Int64.lt_iff_toInt_lt.mp negative
    rw [Int64.toInt_zero] at below
    rw [if_pos negative, Int.toNat_of_nonpos (Int.le_of_lt below)]
    rfl
  · rw [if_neg negative, Int64.toNat_toUInt64_of_le (Int64.not_lt.mp negative), Int64.toNat_toInt]

/-- Words tell exactly when copies are too large. -/
lemma tooLarge_iff (size : UInt64) (count : Int64) :
    TooLarge size count ↔ 2 ^ 20 < size.toNat * count.toInt.toNat := by
  unfold TooLarge checkedProduct?
  rw [toNat_clamped]
  by_cases fits : size.toNat * count.toInt.toNat < UInt64.size
  · have product : (size * if count < 0 then 0 else count.toUInt64).toNat =
        size.toNat * count.toInt.toNat := by
      rw [UInt64.toNat_mul, toNat_clamped]
      exact Nat.mod_eq_of_lt fits
    rw [if_pos fits, ← product]
    exact UInt64.lt_iff_toNat_lt
  · rw [if_neg fits]
    refine iff_of_true trivial ?_
    have large : 2 ^ 20 < UInt64.size := by decide
    omega

end Value

namespace Expr

variable {scope : Scope} {x m : Expr} {v : Value} {n : Int64} {size : Nat}

/-- The value of a repetition. -/
lemma eval_repetition (hx : x.eval scope = .ok v) (hm : m.eval scope = .ok (.integer n))
    (repeatable : v.size? = some size) :
    (Expr.binary .multiply x m).eval scope =
      if size * n.toInt.toNat ≤ 2 ^ 20 then .ok (v.copied n.toInt.toNat)
      else .error (.operand .repetitionTooLarge) := by
  rw [eval_binary hx hm, Operator.apply, Value.multiply_integer repeatable]
  have limit : Value.maxRepetition = 2 ^ 20 := by decide
  rw [limit]
  split <;> rfl

/-- The sum of two counts that are not negative, when there is one. -/
lemma toNat_of_add {j k : Int64} {w : Value} (hj : 0 ≤ j.toInt) (hk : 0 ≤ k.toInt)
    (added : (Value.integer j).add (.integer k) = .ok w) :
    ∃ total : Int64, w = .integer total ∧
      total.toInt.toNat = j.toInt.toNat + k.toInt.toNat := by
  rw [Value.add, Value.exactInteger] at added
  split at added
  · next total found =>
    have sum := Number.narrow?_eq_some_iff.mp found
    refine ⟨total, (Except.ok.inj added).symm, ?_⟩
    omega
  · cases added

/-- A text or a sequence times an integer, in either order, is as many copies of it as the integer
says, none for a negative one, when these have at most 2^20 bytes or items, which words tell without
wrapping around; else it is refused.  Copies that can be made at once can be made in two parts. -/
theorem repetition (hx : x.eval scope = .ok v) (hm : m.eval scope = .ok (.integer n))
    (repeatable : v.size? = some size) :
    (Expr.binary .multiply m x).eval scope = (Expr.binary .multiply x m).eval scope ∧
      (size * n.toInt.toNat ≤ 2 ^ 20 →
        (Expr.binary .multiply x m).eval scope = .ok (v.copied n.toInt.toNat)) ∧
      (¬ size * n.toInt.toNat ≤ 2 ^ 20 →
        (Expr.binary .multiply x m).eval scope = .error (.operand .repetitionTooLarge)) ∧
      OperandError.repetitionTooLarge.message = "repetition too large" ∧
      (∀ word : UInt64, word.toNat = size →
        (Value.TooLarge word n ↔ ¬ size * n.toInt.toNat ≤ 2 ^ 20)) ∧
      ∀ (y z : Expr) (j k : Int64) (whole : Value), y.eval scope = .ok (.integer j) →
        z.eval scope = .ok (.integer k) → 0 ≤ j.toInt → 0 ≤ k.toInt →
        (Expr.binary .multiply x (.binary .add y z)).eval scope = .ok whole →
        (Expr.binary .add (.binary .multiply x y) (.binary .multiply x z)).eval scope =
          .ok whole := by
  refine ⟨?_, fun fits => ?_, fun large => ?_, rfl, ?_, ?_⟩
  · rw [eval_binary hm hx, eval_binary hx hm, Operator.apply, Operator.apply,
      Value.integer_multiply repeatable]
  · rw [eval_repetition hx hm repeatable, if_pos fits]
  · rw [eval_repetition hx hm repeatable, if_neg large]
  · rintro word rfl
    rw [Value.tooLarge_iff, Nat.not_le]
  · intro y z j k whole hy hz hj hk evaluates
    have sum := eval_binary hy hz .add
    rw [Operator.apply] at sum
    cases added : (Value.integer j).add (.integer k) with
    | error e =>
      rw [added] at sum
      rw [eval, hx, sum] at evaluates
      cases evaluates
    | ok w =>
      obtain ⟨total, rfl, counted⟩ := toNat_of_add hj hk added
      rw [added] at sum
      rw [eval_repetition hx sum repeatable, counted] at evaluates
      split at evaluates
      · next fits =>
        have first : size * j.toInt.toNat ≤ 2 ^ 20 :=
          Nat.le_trans (Nat.mul_le_mul_left size (Nat.le_add_right _ _)) fits
        have second : size * k.toInt.toNat ≤ 2 ^ 20 :=
          Nat.le_trans (Nat.mul_le_mul_left size (Nat.le_add_left _ _)) fits
        have left := eval_repetition hx hy repeatable
        have right := eval_repetition hx hz repeatable
        rw [if_pos first] at left
        rw [if_pos second] at right
        rw [eval_binary left right, Operator.apply, Value.add_copied repeatable]
        exact evaluates
      · cases evaluates

/-- A character of two bytes as often as fits and one time more, the empty text as often as integers
can say, and a sequence that is repeated a negative number of times. -/
theorem repetition_limits :
    let scope : Scope := fun _ => none
    let accent := Expr.literal (.text "é")
    let count (n : Int64) := Expr.literal (.integer n)
    (Expr.binary .multiply accent (count 524288)).eval scope =
        .ok ((Value.text "é").copied 524288) ∧
      (Expr.binary .multiply accent (count 524289)).eval scope =
        .error (.operand .repetitionTooLarge) ∧
      (Expr.binary .multiply (.literal (.text "")) (count Int64.maxValue)).eval scope =
        .ok ((Value.text "").copied 9223372036854775807) ∧
      (Expr.binary .multiply (count (-3)) (.sequence [accent])).eval scope =
        .ok (.sequence []) := by
  intro scope accent count
  have size : (Value.text "é").size? = some 2 := by decide
  obtain ⟨-, fits, -⟩ := @repetition scope accent (count 524288) _ _ _ rfl rfl size
  obtain ⟨-, -, large, -⟩ := @repetition scope accent (count 524289) _ _ _ rfl rfl size
  obtain ⟨-, empty, -⟩ :=
    @repetition scope (.literal (.text "")) (count Int64.maxValue) _ _ 0 rfl rfl rfl
  obtain ⟨swapped, negative, -⟩ :=
    @repetition scope (.sequence [accent]) (count (-3)) _ _ 1 rfl rfl rfl
  exact ⟨fits (by decide), large (by decide), empty (by decide),
    swapped.trans (negative (by decide))⟩

end Expr

end Stencil
