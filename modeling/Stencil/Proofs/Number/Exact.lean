import Stencil.Proofs.Number.Order

/-!
# Integers that floats tell apart

A float has 53 binary places, so an integer of magnitude below two to the 53rd is itself a float
(`unpack_ofInt`), and two of them are the same float only when they are the same integer
(`eq_of_ofInt_beq`).  Beyond that bound two integers may share a float.
-/

namespace Stencil.Number

open Float.Model (Format UnpackedFloat)
open Float.Model.UnpackedFloat (Accuracy Sign ExtendedMantissa)

/-! ### Packing and rounding without loss -/

/-- The sign of packed components is the sign that was packed. -/
lemma unpackSign_packComponents (s : Sign) (exponent : BitVec 11) (mantissa : BitVec 52) :
    Sign.ofBitVec (UnpackedFloat.unpackSign
      (UnpackedFloat.packComponents Format.binary64 s exponent mantissa)) = s := by
  simp only [UnpackedFloat.unpackSign, UnpackedFloat.packComponents, BitVec.extractLsb]
  rw [BitVec.extractLsb'_append_eq_of_le (by omega), BitVec.extractLsb'_append_eq_of_le (by omega)]
  cases s <;> rfl

/-- A mantissa of 53 bits is packed without loss. -/
lemma unpack_pack {s : Sign} {m : Nat} {e : Int} (hm : 0 < m) (low : 2 ^ 52 ≤ m) (high : m < 2 ^ 53)
    (least : -1074 ≤ e) (most : e ≤ 971) :
    (Float.Model.pack (.finite s m e hm)).unpack = .finite s m e hm := by
  change UnpackedFloat.unpack Format.binary64
    (UnpackedFloat.pack Format.binary64 (.finite s m e hm)) = _
  have log : m.log2 = 52 := (Nat.log2_eq_iff (by omega)).mpr ⟨low, high⟩
  have biased : ((e + Format.binary64.exponentBias + 52).toNat : Int) = e + 1075 := by
    change ((e + 1023 + 52).toNat : Int) = e + 1075
    omega
  rw [UnpackedFloat.pack]
  dsimp only
  generalize (e + Format.binary64.exponentBias + 52).toNat = b at biased
  have small : b + 1 < 2 ^ 11 := by omega
  rw [if_neg (by omega), if_pos (by rw [log]; rfl), UnpackedFloat.unpack]
  simp only [UnpackedFloat.unpackMantissa_packComponents,
    UnpackedFloat.unpackExponent_packComponents, unpackSign_packComponents]
  have exponent : (BitVec.ofNat 11 b).toNat = b := by
    rw [BitVec.toNat_ofNat, Nat.mod_eq_of_lt (by omega)]
  have fraction : (BitVec.ofNat 52 m).toNat = m - 2 ^ 52 := by
    rw [BitVec.toNat_ofNat]
    omega
  have mantissa : (1#1 ++ BitVec.ofNat 52 m).toNat = m := by
    rw [BitVec.toNat_append, ← Nat.shiftLeft_add_eq_or_of_lt (BitVec.isLt _), fraction]
    have implicit : (1#1).toNat <<< 52 = 2 ^ 52 := rfl
    rw [implicit]
    omega
  have notFull : BitVec.ofNat 11 b ≠ -1#11 := fun h => by
    have same := exponent.symm.trans (congrArg BitVec.toNat h)
    change b = 2047 at same
    omega
  have notZero : BitVec.ofNat 11 b ≠ 0#11 := fun h => by
    have same := exponent.symm.trans (congrArg BitVec.toNat h)
    change b = 0 at same
    omega
  rw [if_neg notFull, if_neg notZero]
  simp only [mantissa, exponent, UnpackedFloat.finite.injEq, true_and]
  change (b : Int) - (1023 + 52) = e
  omega

/-- Shifting out zeros loses nothing. -/
lemma shiftRight_exact (m k : Nat) :
    (⟨m * 2 ^ k, false, false⟩ : ExtendedMantissa) >>> k = ⟨m, false, false⟩ := by
  change k.repeat ExtendedMantissa.shiftRightOne _ = _
  induction k generalizing m with
  | zero => simp [Nat.repeat]
  | succ k ih =>
    rw [Nat.repeat, Nat.pow_succ', ← Nat.mul_assoc, ih (m * 2)]
    simp [ExtendedMantissa.shiftRightOne]

/-- A mantissa of 53 bits with zeros after it is rounded without loss. -/
lemma roundWithAccuracy_exact {s : Sign} {m : Nat} {e : Int} (hm : 0 < m) (low : 2 ^ 52 ≤ m)
    (high : m < 2 ^ 53) (least : -1074 ≤ e) (k : Nat) :
    UnpackedFloat.roundWithAccuracy Format.binary64 s (m * 2 ^ k) (e - k) .exact =
      .finite s m e hm := by
  have log (j : Nat) : (m * 2 ^ j).log2 = 52 + j := by
    have positive := Nat.mul_pos hm (Nat.two_pow_pos j)
    refine (Nat.log2_eq_iff positive.ne').mpr ⟨?_, ?_⟩
    · rw [Nat.pow_add]
      exact Nat.mul_le_mul_right _ low
    · rw [show 52 + j + 1 = 53 + j by omega, Nat.pow_add]
      exact Nat.mul_lt_mul_of_pos_right high (Nat.two_pow_pos j)
  have target (j : Nat) : Format.binary64.targetExponent
      (Float.Model.totalExponent (m * 2 ^ j) (e - j)) = e := by
    rw [Format.targetExponent, Float.Model.totalExponent, log]
    change max (((52 + j : Nat) : Int) + 1 + (e - j) - 53) (-1074) = e
    push_cast
    omega
  have shift (j : Nat) : UnpackedFloat.shiftToTargetExponent Format.binary64 (m * 2 ^ j) (e - j)
      .exact = (⟨m, false, false⟩, e) := by
    rw [UnpackedFloat.shiftToTargetExponent, target, UnpackedFloat.shiftToExponent]
    have amount : (e - (e - j)).toNat = j := by omega
    rw [amount]
    refine Prod.ext (shiftRight_exact m j) ?_
    change e - (j : Int) + j = e
    omega
  have again : UnpackedFloat.shiftToTargetExponent Format.binary64 m e .exact =
      (⟨m, false, false⟩, e) := by
    simpa using shift 0
  rw [UnpackedFloat.roundWithAccuracy]
  have rounded : (⟨m, false, false⟩ : ExtendedMantissa).roundedMantissa = m := rfl
  simp only [shift k, rounded, again]
  rw [dif_neg hm.ne']

/-! ### Small integers -/

/-- How far the leading digit of a number below two to the 53rd is from the 53rd place. -/
def headroom (n : Nat) : Nat := 52 - n.log2

/-- Moved up by its headroom, a number below two to the 53rd has 53 places. -/
lemma headroom_spec {n : Nat} (hn : 0 < n) (small : n < 2 ^ 53) :
    headroom n ≤ 52 ∧ 2 ^ 52 ≤ n * 2 ^ headroom n ∧ n * 2 ^ headroom n < 2 ^ 53 := by
  have log : n.log2 < 53 := (Nat.log2_lt hn.ne').mpr small
  have low : 2 ^ n.log2 ≤ n := Nat.log2_self_le hn.ne'
  have high : n < 2 ^ (n.log2 + 1) := Nat.lt_log2_self
  have first : 2 ^ n.log2 * 2 ^ headroom n = 2 ^ 52 := by
    rw [← Nat.pow_add, headroom]
    congr 1
    omega
  have last : 2 ^ (n.log2 + 1) * 2 ^ headroom n = 2 ^ 53 := by
    rw [← Nat.pow_add, headroom]
    congr 1
    omega
  refine ⟨Nat.sub_le _ _, ?_, ?_⟩
  · rw [← first]
    exact Nat.mul_le_mul_right _ low
  · rw [← last]
    exact Nat.mul_lt_mul_of_pos_right high (Nat.two_pow_pos _)

/-- The float nearest to a positive number below two to the 53rd is that number. -/
lemma unpack_ofNat {n : Nat} (hn : 0 < n) (small : n < 2 ^ 53) :
    (Float.ofNat n).toModel.unpack = .finite .positive (n * 2 ^ headroom n) (-(headroom n))
      (Nat.mul_pos hn (Nat.two_pow_pos _)) := by
  obtain ⟨short, low, high⟩ := headroom_spec hn small
  have positive := Nat.mul_pos hn (Nat.two_pow_pos (headroom n))
  change (Float.ofScientific n false 0).toModel.unpack = _
  rw [Float.ofScientific, dif_pos ⟨small, by decide⟩]
  change (Float.Model.pack (UnpackedFloat.mul Format.binary64
    (Float.Model.pack (UnpackedFloat.ofUInt64 Format.binary64 n.toUInt64)).unpack
    (Float.ofBits 0x3FF0000000000000).toModel.unpack)).unpack = _
  have one : (Float.ofBits 0x3FF0000000000000).toModel.unpack =
      .finite .positive (2 ^ 52) (-52) (by decide) := by rfl
  have word : n.toUInt64.toNat = n := by
    change n % 2 ^ 64 = n
    omega
  have converted : UnpackedFloat.ofUInt64 Format.binary64 n.toUInt64 =
      .finite .positive (n * 2 ^ headroom n) (-(headroom n)) positive := by
    change UnpackedFloat.normalize Format.binary64 (n.toUInt64.toNat : Int) 0 .positive = _
    rw [word, UnpackedFloat.normalize]
    have order : compare (n : Int) 0 = .gt := Int.compare_eq_gt.mpr (by omega)
    rw [order]
    have target : Format.binary64.targetExponent (Float.Model.totalExponent n 0) =
        -(headroom n) := by
      have log : n.log2 < 53 := (Nat.log2_lt hn.ne').mpr small
      rw [Format.targetExponent, Float.Model.totalExponent, headroom]
      change max ((n.log2 : Int) + 1 + 0 - 53) (-1074) = _
      omega
    have decreased : UnpackedFloat.decreaseExponent n 0 (-(headroom n)) =
        (n * 2 ^ headroom n, -(headroom n : Int)) := by
      have amount : (0 - -(headroom n : Int)).toNat = headroom n := by omega
      rw [UnpackedFloat.decreaseExponent, amount, Nat.shiftLeft_eq, Int.zero_sub]
    change UnpackedFloat.round Format.binary64 .positive (n : Int).toNat 0 = _
    rw [UnpackedFloat.round, Int.toNat_natCast, target, decreased]
    simpa using roundWithAccuracy_exact (s := .positive) positive low high (e := -(headroom n))
      (by omega) 0
  rw [converted, unpack_pack positive low high (by omega) (by omega), one, UnpackedFloat.mul]
  have product := roundWithAccuracy_exact (s := .positive) positive low high
    (e := -(headroom n)) (by omega) 52
  change (Float.Model.pack (UnpackedFloat.roundWithAccuracy Format.binary64 .positive
    (n * 2 ^ headroom n * 2 ^ 52) (-(headroom n) - (52 : Nat)) .exact)).unpack = _
  rw [product, unpack_pack positive low high (by omega) (by omega)]

/-- The unpacked form of the float nearest to an integer of magnitude below two to the 53rd. -/
def unpackedInt : Int → UnpackedFloat
  | .ofNat 0 => .zero .positive
  | .ofNat (n + 1) => .finite .positive ((n + 1) * 2 ^ headroom (n + 1)) (-(headroom (n + 1)))
      (Nat.mul_pos n.succ_pos (Nat.two_pow_pos _))
  | .negSucc n => .finite .negative ((n + 1) * 2 ^ headroom (n + 1)) (-(headroom (n + 1)))
      (Nat.mul_pos n.succ_pos (Nat.two_pow_pos _))

/-- The float nearest to an integer of magnitude below two to the 53rd is that integer. -/
lemma unpack_ofInt {n : Int} (small : n.natAbs < 2 ^ 53) :
    (Float.ofInt n).toModel.unpack = unpackedInt n := by
  cases n with
  | ofNat n =>
    cases n with
    | zero => rfl
    | succ n => exact unpack_ofNat n.succ_pos small
  | negSucc n =>
    obtain ⟨short, low, high⟩ := headroom_spec n.succ_pos small
    change (Float.Model.pack (Float.ofNat n.succ).toModel.unpack.neg).unpack = _
    rw [unpack_ofNat n.succ_pos small]
    exact unpack_pack _ low high (by omega) (by omega)

/-- Numbers that agree when they are moved up by their headroom are the same. -/
lemma eq_of_moved {m n : Nat}
    (h : (compare (-(headroom m) : Int) (-(headroom n))).then
      (compare (m * 2 ^ headroom m) (n * 2 ^ headroom n)) = .eq) : m = n := by
  obtain ⟨exponents, mantissas⟩ := Ordering.then_eq_eq.mp h
  have sameRoom : headroom m = headroom n := by
    have := Std.compare_eq_iff_eq.mp exponents
    omega
  have sameMantissa := Std.compare_eq_iff_eq.mp mantissas
  rw [sameRoom] at sameMantissa
  exact Nat.eq_of_mul_eq_mul_right (Nat.two_pow_pos _) sameMantissa

/-- Different integers of magnitude below two to the 53rd are different floats. -/
theorem eq_of_ofInt_beq {a b : Int} (ha : a.natAbs < 2 ^ 53) (hb : b.natAbs < 2 ^ 53)
    (same : (Float.ofInt a == Float.ofInt b) = true) : a = b := by
  rw [beq_iff, unpack_ofInt ha, unpack_ofInt hb] at same
  cases a with
  | ofNat m =>
    cases b with
    | ofNat n =>
      cases m with
      | zero =>
        cases n with
        | zero => rfl
        | succ n => cases same
      | succ m =>
        cases n with
        | zero => cases same
        | succ n => exact congrArg Int.ofNat (eq_of_moved (Option.some.inj same))
    | negSucc n => cases m <;> cases same
  | negSucc m =>
    cases b with
    | ofNat n => cases n <;> cases same
    | negSucc n =>
      have moved := Ordering.swap_eq_eq.mp (Option.some.inj same)
      exact congrArg Int.negSucc (Nat.succ.inj (eq_of_moved moved))

end Stencil.Number
