import Stencil.Proofs.Checked.Eval
import Stencil.Proofs.Expr.IntegerText
import Stencil.Proofs.Number.Positional

/-!
# Canonical texts of floats

Integral floats below ten to the sixteenth are written with all their digits and a final `.0`.  From
there on the final `.0` is left out: what is written are the digits of the shortest decimal, which
denotes a natural number then (`exists_shortest_value`).  Floats that are not integral have a point
in their text, because no natural number reads back as one of them (`shortest_value_ne`).  An
integer has no point in its text, so the only floats that can be confused with integers are the
integral ones from ten to the sixteenth on, and these are when they are in the range of integers
(`shortest_range`).  `float_text` puts this together.
-/

namespace Stencil

namespace Number

variable {x : Float} {negative : Bool} {m : Nat} {e : Int}

/-- A finite float has at most 53 binary places, and all of them above the least exponent. -/
lemma Binary.ofFloat_eq_finite (h : Binary.ofFloat x = .finite negative m e) :
    (negative = true ↔ 2 ^ 63 ≤ x.toBits.toNat) ∧ m < 2 ^ 53 ∧
      (Binary.minExponent < e → 2 ^ 52 ≤ m) := by
  have bits : x.toBits.toNat < 2 ^ 64 := x.toBits.toNat_lt
  have implicit : Binary.leastNormal = 2 ^ 52 := by decide
  simp only [Binary.ofFloat, implicit, Nat.pow_eq] at h
  generalize x.toBits.toNat = b at *
  have sign : (b / 2 ^ 63 == 1) = true ↔ 2 ^ 63 ≤ b := by
    rw [beq_iff_eq]
    omega
  split at h
  · split at h <;> cases h
  · split at h
    · cases h
      exact ⟨sign, by omega, fun above => absurd above (lt_irrefl _)⟩
    · cases h
      exact ⟨sign, by omega, fun _ => by omega⟩

/-! ### Integral floats without a point -/

/-- Only zero has the mantissa zero. -/
lemma mantissa_pos (h : ¬ Binary.magnitude m e = (0 : ℕ)) : 0 < m := by
  refine Nat.pos_of_ne_zero fun zero => h ?_
  rw [Binary.magnitude, zero, Nat.cast_zero, zero_mul]

lemma mantissa_pos_of_eq {n : Nat} (h : Binary.magnitude m e = n) (hn : 0 < n) : 0 < m := by
  refine mantissa_pos (e := e) fun zero => ?_
  rw [h, Nat.cast_inj] at zero
  omega

/-- A float from two to the 53rd on ends in binary zeros. -/
lemma exists_magnitude_eq {n : Nat} (small : m < 2 ^ 53) (h : Binary.magnitude m e = n)
    (large : 2 ^ 53 ≤ n) : ∃ j : Nat, e = j ∧ n = m * 2 ^ j := by
  have whole : 0 ≤ e := by
    by_contra! least
    have bounded : Binary.magnitude m e ≤ m := by
      refine mul_le_of_le_one_right (Nat.cast_nonneg m) ?_
      exact zpow_le_one_of_nonpos₀ (by norm_num) least.le
    rw [h, Nat.cast_le] at bounded
    omega
  obtain ⟨j, rfl⟩ := Int.eq_ofNat_of_zero_le whole
  rw [Binary.magnitude, zpow_natCast] at h
  exact ⟨j, rfl, by exact_mod_cast h.symm⟩

/-- The shortest decimal of an integral float that is large denotes a natural number. -/
lemma exists_shortest_value (tieUp : Bool) (small : m < 2 ^ 53) {n : Nat}
    (h : Binary.magnitude m e = n) (large : 10 ^ 16 ≤ n) :
    ∃ k : Nat, (shortest tieUp m e).value = k ∧ 0 < k ∧ |(k : ℚ) - n| ≤ 2 ^ e / 2 := by
  have hm := mantissa_pos_of_eq h (by omega)
  obtain ⟨count, positive, most, exponent, -, reads, -⟩ := shortest_spec tieUp hm small e
  have whole : 0 ≤ (shortest tieUp m e).exponent := by
    have above : (10 : ℚ) ^ (16 : ℤ) < 10 ^ (Shortest.leading m e + 1) := by
      refine lt_of_le_of_lt ?_ (Shortest.leading_spec hm e).2
      rw [h]
      exact_mod_cast large
    have leading := (zpow_lt_zpow_iff_right₀ (by norm_num)).mp above
    rw [exponent, Shortest.grid]
    have : Shortest.maxDigits = 17 := rfl
    omega
  obtain ⟨j, power⟩ := Int.eq_ofNat_of_zero_le whole
  have value : (shortest tieUp m e).value = ((shortest tieUp m e).digits * 10 ^ j : ℕ) := by
    rw [Decimal.value, power]
    push_cast
    rw [zpow_natCast]
  have near := reads.abs_sub_le
  have some_digit := digits_pos_of_readsBack hm reads
  rw [h, value] at near
  exact ⟨_, value, by positivity, near⟩

/-- The shortest decimal of a float that is not integral denotes no natural number. -/
lemma shortest_value_ne (tieUp : Bool) (small : m < 2 ^ 53)
    (h : ¬ ∃ n : Nat, Binary.magnitude m e = n) (k : Nat) : (shortest tieUp m e).value ≠ k := by
  intro same
  have hm : 0 < m := mantissa_pos fun zero => h ⟨0, zero⟩
  have reads := (isShortest_shortest tieUp hm small e).reads
  have broken : e < 0 := by
    by_contra! whole
    obtain ⟨j, rfl⟩ := Int.eq_ofNat_of_zero_le whole
    exact h ⟨m * 2 ^ j, by rw [Binary.magnitude, zpow_natCast]; push_cast; rfl⟩
  obtain ⟨j, rfl⟩ : ∃ j : Nat, e = -j := ⟨(-e).toNat, by omega⟩
  -- natural numbers are floats here, and no other float lies within half of the last place
  have near := reads.abs_sub_le
  rw [same, Binary.magnitude, zpow_neg, zpow_natCast, abs_le] at near
  have unit : (0 : ℚ) < 2 ^ j := by positivity
  have cancel : (2 ^ j : ℚ)⁻¹ * 2 ^ j = 1 := inv_mul_cancel₀ unit.ne'
  have low : (m : ℚ) < (k * 2 ^ j : ℕ) + 1 := by
    push_cast
    nlinarith [near.1]
  have high : ((k * 2 ^ j : ℕ) : ℚ) < m + 1 := by
    push_cast
    nlinarith [near.2]
  have equal : k * 2 ^ j = m := by
    have : m < k * 2 ^ j + 1 := by exact_mod_cast low
    have : k * 2 ^ j < m + 1 := by exact_mod_cast high
    omega
  refine h ⟨k, ?_⟩
  rw [Binary.magnitude, ← equal, zpow_neg, zpow_natCast]
  push_cast
  rw [mul_assoc, mul_inv_cancel₀ unit.ne', mul_one]

/-! ### The range of integers -/

/-- What is at most half of the last place away, in whole numbers. -/
lemma near_bounds {n k j : Nat} (near : |(k : ℚ) - n| ≤ 2 ^ (j : ℤ) / 2) :
    2 * n ≤ 2 * k + 2 ^ j ∧ 2 * k ≤ 2 * n + 2 ^ j := by
  rw [zpow_natCast, abs_le] at near
  have low : (2 * n : ℚ) ≤ 2 * k + 2 ^ j := by linarith [near.1]
  have high : (2 * k : ℚ) ≤ 2 * n + 2 ^ j := by linarith [near.2]
  exact ⟨by exact_mod_cast low, by exact_mod_cast high⟩

/-- Floats below the end of the range are a whole last place below it, because the end is a multiple
of the last place as well. -/
lemma magnitude_add_le {j : Nat} (positive : 0 < m) (inside : m * 2 ^ j < 2 ^ 63) :
    m * 2 ^ j + 2 ^ j ≤ 2 ^ 63 := by
  have short : j < 63 := by
    by_contra! long
    have := Nat.pow_le_pow_right (n := 2) (by decide) long
    have := Nat.le_mul_of_pos_left (2 ^ j) positive
    omega
  have split : 2 ^ 63 = 2 ^ (63 - j) * 2 ^ j := by
    rw [← Nat.pow_add, Nat.sub_add_cancel short.le]
  rw [split] at inside ⊢
  rw [← Nat.succ_mul]
  exact Nat.mul_le_mul_right (2 ^ j) (Nat.lt_of_mul_lt_mul_right inside)

/-- All other floats are two to the 63rd itself or a whole last place above it. -/
lemma le_magnitude_of_ne {j : Nat} (small : m < 2 ^ 53) (normal : 2 ^ 52 ≤ m)
    (outside : 2 ^ 63 ≤ m * 2 ^ j) (other : ¬ (m = 2 ^ 52 ∧ j = 11)) :
    2 ^ 63 + 2 ^ j ≤ m * 2 ^ j := by
  have long : 11 ≤ j := by
    by_contra! short
    have := Nat.pow_le_pow_right (n := 2) (by decide) (show j ≤ 10 by omega)
    have := Nat.mul_le_mul (show m ≤ 2 ^ 53 - 1 by omega) this
    omega
  obtain rfl | more := eq_or_lt_of_le normal
  · have := Nat.pow_le_pow_right (n := 2) (by decide) (show 12 ≤ j by omega)
    omega
  · have := Nat.pow_le_pow_right (n := 2) (by decide) long
    have := Nat.mul_le_mul_right (2 ^ j) (Nat.succ_le_of_lt more)
    rw [Nat.succ_mul] at this
    omega

/-- Two to the 63rd itself is written as a greater number. -/
lemma shortest_two_pow : shortest true (2 ^ 52) (11 : Nat) = ⟨9223372036854776, 3⟩ := by
  decide +kernel

/-- The shortest decimal of a large float is in the range of integers when the float is. -/
lemma shortest_range (small : m < 2 ^ 53) (full : Binary.minExponent < e → 2 ^ 52 ≤ m) {n k : Nat}
    (h : Binary.magnitude m e = n) (large : 2 ^ 53 ≤ n) (value : (shortest true m e).value = k)
    (near : |(k : ℚ) - n| ≤ 2 ^ e / 2) : (n < 2 ^ 63 → k < 2 ^ 63) ∧ (2 ^ 63 ≤ n → 2 ^ 63 < k) := by
  obtain ⟨j, rfl, number⟩ := exists_magnitude_eq small h large
  have normal : 2 ^ 52 ≤ m := full (by rw [Binary.minExponent]; omega)
  obtain ⟨low, high⟩ := near_bounds near
  have unit := Nat.two_pow_pos j
  constructor
  · intro inside
    have := magnitude_add_le (by omega) (number ▸ inside)
    omega
  · intro outside
    by_cases exact : m = 2 ^ 52 ∧ j = 11
    · obtain ⟨rfl, rfl⟩ := exact
      have : (k : ℚ) = (9223372036854776000 : ℕ) := by
        rw [← value, shortest_two_pow, Decimal.value]
        norm_num
      have : k = 9223372036854776000 := by exact_mod_cast this
      omega
    · have := le_magnitude_of_ne small normal (number ▸ outside) exact
      omega

/-! ### Texts of integers -/

/-- A minus sign is no digit. -/
lemma minus_notMem_natDigits (n : Nat) : '-' ∉ natDigits n := by
  intro minus
  have digit := (digits_natDigits n).2 '-' minus
  cases digit

/-- Only one sign and one number have given digits. -/
lemma signed_natDigits_inj {negative negative' : Bool} {k k' : Nat} :
    FloatStyle.signed negative (natDigits k) = FloatStyle.signed negative' (natDigits k') ↔
      negative = negative' ∧ k = k' := by
  refine ⟨fun same => ?_, by rintro ⟨rfl, rfl⟩; rfl⟩
  have digits (h : natDigits k = natDigits k') : k = k' := by
    rw [← ofDigits_natDigits k, h, ofDigits_natDigits]
  cases negative with
  | true =>
    cases negative' with
    | true => exact ⟨rfl, digits (List.cons.inj same).2⟩
    | false =>
      have minus : '-' ∈ natDigits k' := (show '-' :: _ = natDigits k' from same) ▸ .head _
      exact absurd minus (minus_notMem_natDigits k')
  | false =>
    cases negative' with
    | true =>
      have minus : '-' ∈ natDigits k := (show natDigits k = '-' :: _ from same) ▸ .head _
      exact absurd minus (minus_notMem_natDigits k)
    | false => exact ⟨rfl, digits same⟩

/-- The text of an integer is its sign and its digits. -/
lemma toList_integerText (i : Int64) :
    (integerText i).toList =
      FloatStyle.signed (decide (i.toInt < 0)) (natDigits i.toInt.natAbs) := by
  by_cases below : i.toInt < 0
  · rw [toList_integerText_of_neg below, decide_eq_true below]
    rfl
  · rw [toList_integerText_of_nonneg below, decide_eq_false below]
    rfl

/-- The digits of a positive number, with a minus sign or without, are the text of an integer when
this is in range. -/
lemma exists_integerText_iff (negative : Bool) {k : Nat} (hk : 0 < k) :
    (∃ i : Int64, (integerText i).toList = FloatStyle.signed negative (natDigits k)) ↔
      if negative then k ≤ 2 ^ 63 else k < 2 ^ 63 := by
  have lower : Int64.minValue.toInt = -2 ^ 63 := by decide
  have upper : Int64.maxValue.toInt = 2 ^ 63 - 1 := by decide
  simp only [toList_integerText, signed_natDigits_inj]
  constructor
  · rintro ⟨i, rfl, rfl⟩
    have low := i.le_toInt
    have high := i.toInt_lt
    split
    · next below =>
      have := of_decide_eq_true below
      omega
    · next above =>
      have := of_decide_eq_false (Bool.eq_false_iff.mpr above)
      omega
  · intro range
    cases negative with
    | true =>
      rw [if_pos rfl] at range
      obtain ⟨i, same⟩ := Checked.exists_toInt_eq (n := -k) (by omega) (by omega)
      exact ⟨i, decide_eq_true (by omega), by omega⟩
    | false =>
      rw [if_neg Bool.false_ne_true] at range
      obtain ⟨i, same⟩ := Checked.exists_toInt_eq (n := k) (by omega) (by omega)
      exact ⟨i, decide_eq_false (by omega), by omega⟩

/-- There is no point in the text of an integer. -/
lemma point_notMem_integerText (i : Int64) : '.' ∉ (integerText i).toList := by
  by_cases below : i.toInt < 0
  · rw [toList_integerText_of_neg below, List.mem_cons]
    exact not_or.mpr ⟨by decide, point_notMem_natDigits _⟩
  · rw [toList_integerText_of_nonneg below]
    exact point_notMem_natDigits _

lemma FloatStyle.mem_signed {c : Char} {text : List Char} (negative : Bool) (h : c ∈ text) :
    c ∈ FloatStyle.signed negative text := by
  cases negative with
  | true => exact List.mem_cons_of_mem _ h
  | false => exact h

end Number

namespace Value

open Number

variable {x : Float} {negative : Bool} {m : Nat} {e : Int}

/-! ### Canonical texts of floats -/

/-- The text of a finite float is that of its magnitude, with a minus sign or without. -/
lemma toList_display_float (h : Binary.ofFloat x = .finite negative m e) :
    (Value.float x).display.toList = FloatStyle.signed negative (floatStyle.magnitude m e) := by
  change (floatStyle.text x).toList = _
  rw [FloatStyle.text, String.toList_ofList, h]
  rfl

/-- Below the bound of the style, integral floats are written with all digits and a point. -/
lemma magnitude_pointed {n : Nat} (h : Binary.magnitude m e = n) (small : n < 10 ^ 16) :
    floatStyle.magnitude m e = natDigits n ++ ['.', '0'] := by
  have bound : n < floatStyle.pointedBelow := small
  rw [FloatStyle.magnitude, Binary.natural?_eq_some_iff.mpr h.symm]
  exact if_pos bound

/-- From the bound on, they are written with the digits of their shortest decimals. -/
lemma magnitude_unpointed {n k : Nat} (small : m < 2 ^ 53) (h : Binary.magnitude m e = n)
    (large : 10 ^ 16 ≤ n) (value : (shortest true m e).value = k) :
    floatStyle.magnitude m e = natDigits k := by
  have bound : ¬ n < floatStyle.pointedBelow := Nat.not_lt.mpr large
  have hm := mantissa_pos_of_eq h (by omega)
  have reads := (isShortest_shortest true hm small e).reads
  rw [FloatStyle.magnitude, Binary.natural?_eq_some_iff.mpr h.symm,
    ← Decimal.positional_of_value (digits_pos_of_readsBack hm reads) value]
  exact if_neg bound

/-- There is a point in the text of a float that is not integral. -/
lemma point_mem_magnitude (small : m < 2 ^ 53) (h : ¬ ∃ n : Nat, Binary.magnitude m e = n) :
    '.' ∈ floatStyle.magnitude m e := by
  have none : Binary.natural? m e = none := by
    rw [Option.eq_none_iff_forall_ne_some]
    exact fun n found => h ⟨n, (Binary.natural?_eq_some_iff.mp found).symm⟩
  have hm : 0 < m := mantissa_pos fun zero => h ⟨0, zero⟩
  have reads := (isShortest_shortest true hm small e).reads
  rw [FloatStyle.magnitude, none]
  exact Decimal.point_mem_positional (digits_pos_of_readsBack hm reads)
    fun ⟨k, same⟩ => shortest_value_ne true small h k same

/-- An integral float below ten to the sixteenth is written as its digits and `.0`, with a minus
sign when its sign bit is set; from ten to the sixteenth on it is written as digits alone, those of
the shortest decimal that reads back.  All other finite floats have a point as well.  So the finite
floats that have the text of an integer are the integral ones from ten to the sixteenth on that lie
in the range of integers. -/
theorem float_text (finite : Binary.ofFloat x = .finite negative m e) :
    (negative = true ↔ 2 ^ 63 ≤ x.toBits.toNat) ∧
      (Value.float x).toText = (Value.float x).display ∧
      (∀ n : Nat, Binary.magnitude m e = n → n < 10 ^ 16 →
        (Value.float x).display.toList =
          FloatStyle.signed negative (natDigits n ++ ['.', '0'])) ∧
      (∀ n : Nat, Binary.magnitude m e = n → 10 ^ 16 ≤ n →
        ∃ (d : Decimal) (k : Nat), IsShortest m e d ∧ d.value = k ∧ |(k : ℚ) - n| ≤ 2 ^ e / 2 ∧
          (Value.float x).display.toList = FloatStyle.signed negative (natDigits k)) ∧
      ((¬ ∃ n : Nat, Binary.magnitude m e = n) → '.' ∈ (Value.float x).display.toList) ∧
      ((∃ i : Int64, (Value.integer i).toText = (Value.float x).toText) ↔
        ∃ n : Nat, Binary.magnitude m e = n ∧ 10 ^ 16 ≤ n ∧ n < 2 ^ 63) := by
  obtain ⟨sign, small, full⟩ := Binary.ofFloat_eq_finite finite
  have text := toList_display_float finite
  have texts : (∃ i : Int64, (Value.integer i).toText = (Value.float x).toText) ↔
      ∃ i : Int64, (integerText i).toList =
        FloatStyle.signed negative (floatStyle.magnitude m e) := by
    rw [← text]
    exact exists_congr fun i => String.toList_inj.symm
  have pointed (point : '.' ∈ floatStyle.magnitude m e) :
      ¬ ∃ i : Int64, (integerText i).toList =
        FloatStyle.signed negative (floatStyle.magnitude m e) := by
    rintro ⟨i, same⟩
    exact point_notMem_integerText i (same ▸ FloatStyle.mem_signed negative point)
  rw [texts, text]
  refine ⟨sign, rfl, fun n number below => by rw [magnitude_pointed number below], ?_,
    fun broken => FloatStyle.mem_signed negative (point_mem_magnitude small broken), ?_⟩
  · intro n number large
    obtain ⟨k, value, -, near⟩ := exists_shortest_value true small number large
    have hm := mantissa_pos_of_eq number (by omega)
    exact ⟨_, k, isShortest_shortest true hm small e, value, near,
      by rw [magnitude_unpointed small number large value]⟩
  · by_cases integral : ∃ n : Nat, Binary.magnitude m e = n
    · obtain ⟨n, number⟩ := integral
      have only : (∃ n' : Nat, Binary.magnitude m e = n' ∧ 10 ^ 16 ≤ n' ∧ n' < 2 ^ 63) ↔
          10 ^ 16 ≤ n ∧ n < 2 ^ 63 := by
        simp only [number, Nat.cast_inj, exists_eq_left']
      rw [only]
      obtain below | large := Nat.lt_or_ge n (10 ^ 16)
      · refine iff_of_false (pointed ?_) (by omega)
        rw [magnitude_pointed number below]
        simp
      · obtain ⟨k, value, hk, near⟩ := exists_shortest_value true small number large
        obtain ⟨inside, outside⟩ := shortest_range small full number (by omega) value near
        rw [magnitude_unpointed small number large value, exists_integerText_iff negative hk]
        split <;> omega
    · exact iff_of_false (pointed (point_mem_magnitude small integral))
        fun ⟨n, number, _⟩ => integral ⟨n, number⟩

/-- The negative zero, and a large float that has the text of an integer. -/
theorem float_text_negative :
    let zero := Float.ofBits 0x8000000000000000
    let large := Float.ofBits 0xC376345785D89FFF
    Binary.ofFloat zero = .finite true 0 (-1074) ∧
      (Value.float zero).display.toList = ['-', '0', '.', '0'] ∧
      Binary.ofFloat large = .finite true 6249999999999999 4 ∧
      ∃ i : Int64, (Value.integer i).toText = (Value.float large).toText := by
  intro zero large
  have zeroBits : Binary.ofFloat zero = .finite true 0 (-1074) := by decide +kernel
  have largeBits : Binary.ofFloat large = .finite true 6249999999999999 4 := by decide +kernel
  have nothing : Binary.magnitude 0 (-1074) = (0 : ℕ) := by simp [Binary.magnitude]
  have number : Binary.magnitude 6249999999999999 4 = (99999999999999984 : ℕ) := by
    norm_num [Binary.magnitude]
  obtain ⟨-, -, pointed, -⟩ := float_text zeroBits
  obtain ⟨-, -, -, -, -, shared⟩ := float_text largeBits
  exact ⟨zeroBits, pointed 0 nothing (by decide), largeBits,
    shared.mpr ⟨99999999999999984, number, by decide, by decide⟩⟩

/-- Ten to the sixteenth is an integral float, but it is written without a point, as the integer
is. -/
theorem float_text_unpointed :
    let x := Float.ofBits 0x4341C37937E08000
    Binary.ofFloat x = .finite false 5000000000000000 1 ∧
      Binary.magnitude 5000000000000000 1 = (10000000000000000 : ℕ) ∧
      (Value.float x).toText = "10000000000000000" ∧
      (Value.float x).display = "10000000000000000" ∧
      ¬ ['.', '0'] <:+ (Value.float x).toText.toList ∧
      (Value.integer 10000000000000000).toText = (Value.float x).toText := by
  intro x
  have text : (Value.float x).toText = "10000000000000000" := by decide +kernel
  refine ⟨by decide +kernel, by norm_num [Binary.magnitude], text, text, ?_, ?_⟩
  · rw [text]
    decide
  · rw [text]
    decide

end Value

end Stencil
