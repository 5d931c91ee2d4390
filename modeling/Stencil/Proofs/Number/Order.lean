import Stencil.Number.Binary
import Mathlib

/-!
# The order of floats

Any two floats that are numbers are in exactly one of the relations "less", "equal" and "greater",
and `Number.compare?` tells which (`exists_compare?_eq`).  The float nearest to an integer is a
number (`isNaN_ofInt`).

Everything here is read off the unpacked form of floats, in which they are zeros, infinities, no
number, or a sign with a mantissa and an exponent.
-/

namespace Stencil.Number

open Float.Model (Format UnpackedFloat)
open Float.Model.UnpackedFloat (Accuracy Sign)

/-! ### Comparing -/

/-- Comparing two floats the other way round swaps the outcome. -/
lemma unpacked_compare_swap (u v : UnpackedFloat) :
    v.compare u = (u.compare v).map Ordering.swap := by
  cases u with
  | notANumber => cases v <;> rfl
  | infinity s =>
    cases v with
    | infinity t => cases s <;> cases t <;> rfl
    | finite t => cases s <;> rfl
    | _ => cases s <;> rfl
  | zero s =>
    cases v with
    | infinity t => cases t <;> rfl
    | finite t => cases t <;> rfl
    | _ => rfl
  | finite s m e hm =>
    cases v with
    | notANumber => rfl
    | infinity t => cases t <;> rfl
    | zero t => cases s <;> rfl
    | finite t n f hn =>
      have exponents : compare f e = (compare e f).swap := Std.OrientedCmp.eq_swap
      have mantissas : compare n m = (compare m n).swap := Std.OrientedCmp.eq_swap
      cases s <;> cases t <;>
        simp [UnpackedFloat.compare, exponents, mantissas, Ordering.swap_then]

/-- Two floats have an order exactly when both are numbers. -/
lemma unpacked_compare_isSome (u v : UnpackedFloat) :
    (u.compare v).isSome = (!u.isNaN && !v.isNaN) := by
  cases u with
  | notANumber => cases v <;> rfl
  | infinity s =>
    cases v with
    | infinity t => cases s <;> cases t <;> rfl
    | _ => cases s <;> rfl
  | zero s =>
    cases v with
    | infinity t => cases t <;> rfl
    | finite t => cases t <;> rfl
    | _ => rfl
  | finite s m e hm =>
    cases v with
    | notANumber => rfl
    | infinity t => cases t <;> rfl
    | zero t => cases s <;> rfl
    | finite t n f hn => cases s <;> cases t <;> rfl

lemma lt_iff (a b : Float) :
    a < b ↔ a.toModel.unpack.compare b.toModel.unpack = some .lt := by
  change decide (a.toModel < b.toModel) = true ↔ _
  rw [decide_eq_true_iff]
  exact beq_iff_eq

lemma beq_iff (a b : Float) :
    (a == b) = true ↔ a.toModel.unpack.compare b.toModel.unpack = some .eq := by
  change (a.toModel.unpack.compare b.toModel.unpack == some .eq) = true ↔ _
  exact beq_iff_eq

/-- The order of two floats is that of their unpacked forms. -/
lemma compare?_eq_compare (a b : Float) :
    compare? a b = a.toModel.unpack.compare b.toModel.unpack := by
  have swapped := unpacked_compare_swap a.toModel.unpack b.toModel.unpack
  rw [compare?]
  simp only [lt_iff, beq_iff, swapped]
  cases a.toModel.unpack.compare b.toModel.unpack with
  | none => rfl
  | some o => cases o <;> rfl

/-- Two floats are equal when their order says so. -/
lemma beq_eq_compare? (a b : Float) : (a == b) = (compare? a b == some .eq) := by
  rw [compare?_eq_compare, Bool.eq_iff_iff, beq_iff, beq_iff_eq]

/-- Any two floats that are numbers have an order. -/
lemma exists_compare?_eq {a b : Float} (ha : a.isNaN = false) (hb : b.isNaN = false) :
    ∃ o, compare? a b = some o := by
  rw [compare?_eq_compare, ← Option.isSome_iff_exists, unpacked_compare_isSome]
  change (!a.isNaN && !b.isNaN) = true
  rw [ha, hb]
  rfl

/-- A float that is a number equals itself. -/
lemma beq_self_of_isNaN {a : Float} (h : a.isNaN = false) : (a == a) = true := by
  obtain ⟨o, order⟩ := exists_compare?_eq h h
  have swapped := unpacked_compare_swap a.toModel.unpack a.toModel.unpack
  rw [← compare?_eq_compare, order] at swapped
  rw [beq_eq_compare?, order]
  cases o with
  | eq => rfl
  | lt => cases swapped
  | gt => cases swapped

/-! ### Integers as floats -/

/-- Packing a float makes no number of what is none, and the other way round. -/
lemma isNaN_pack (u : UnpackedFloat) :
    (Float.Model.pack u).isNaN = u.isNaN := by
  change (UnpackedFloat.unpack Format.binary64 (UnpackedFloat.pack Format.binary64 u)).isNaN = _
  cases u with
  | notANumber => decide
  | infinity s => cases s <;> decide
  | zero s => cases s <;> decide
  | finite s m e hm =>
    have infinite (s : Sign) : (UnpackedFloat.unpack Format.binary64
        (UnpackedFloat.packedInfinity Format.binary64 s)).isNaN = false := by
      cases s <;> decide
    have finite (exponent : BitVec 11) (mantissa : BitVec 52) (h : exponent ≠ -1#11) :
        (UnpackedFloat.unpack Format.binary64
          (UnpackedFloat.packComponents Format.binary64 s exponent mantissa)).isNaN = false := by
      rw [UnpackedFloat.unpack]
      simp only [UnpackedFloat.unpackMantissa_packComponents,
        UnpackedFloat.unpackExponent_packComponents]
      rw [if_neg h]
      split
      · split <;> rfl
      · rfl
    change (UnpackedFloat.unpack Format.binary64 (UnpackedFloat.pack ..)).isNaN = false
    rw [UnpackedFloat.pack]
    dsimp only
    split
    · exact infinite s
    · next small =>
      split
      · refine finite _ _ fun full => ?_
        have := congrArg BitVec.toNat full
        rw [BitVec.toNat_ofNat, Nat.mod_eq_of_lt (by omega)] at this
        simp at this
        omega
      · exact finite _ _ (by decide)

/-- Rounding gives a number. -/
lemma isNaN_roundWithAccuracy (spec : Format) (s : Sign) (m : Nat) (e : Int) (a : Accuracy) :
    (UnpackedFloat.roundWithAccuracy spec s m e a).isNaN = false := by
  unfold UnpackedFloat.roundWithAccuracy
  dsimp only
  split <;> rfl

/-- Rounding an integer gives a number. -/
lemma isNaN_normalize (spec : Format) (m e : Int) (s : Sign) :
    (UnpackedFloat.normalize spec m e s).isNaN = false := by
  unfold UnpackedFloat.normalize
  split
  · exact isNaN_roundWithAccuracy ..
  · rfl
  · exact isNaN_roundWithAccuracy ..

/-- The product of a number and a finite number is a number. -/
lemma isNaN_mul_finite (spec : Format) {u : UnpackedFloat} (h : u.isNaN = false) (s : Sign)
    (m : Nat) (e : Int) (hm : 0 < m) :
    (UnpackedFloat.mul spec u (.finite s m e hm)).isNaN = false := by
  cases u with
  | notANumber => cases h
  | finite t n f hn => exact isNaN_roundWithAccuracy ..
  | _ => rfl

/-- The float nearest to a natural number is a number. -/
lemma isNaN_ofNat (n : Nat) : (Float.ofNat n).isNaN = false := by
  change (Float.ofScientific n false 0).isNaN = false
  rw [Float.ofScientific]
  split
  · change (Float.Model.pack (UnpackedFloat.mul Format.binary64
      (Float.Model.pack (UnpackedFloat.ofUInt64 Format.binary64 n.toUInt64)).unpack
      (Float.ofBits 0x3FF0000000000000).toModel.unpack)).isNaN = false
    have one : (Float.ofBits 0x3FF0000000000000).toModel.unpack =
        .finite .positive (2 ^ 52) (-52) (by decide) := by rfl
    rw [isNaN_pack, one]
    refine isNaN_mul_finite _ ?_ ..
    change (Float.Model.pack _).isNaN = false
    rw [isNaN_pack]
    exact isNaN_normalize ..
  · change (Float.Model.pack (UnpackedFloat.ofScientific Format.binary64 n 0)).isNaN = false
    rw [isNaN_pack, UnpackedFloat.ofScientific]
    split
    · rfl
    · have low : ¬ (0 : Int) < -(2 ^ Format.binary64.exponentBits + n.log2) := by
        change ¬ (0 : Int) < -(2 ^ 11 + n.log2)
        omega
      rw [if_neg (by decide), if_neg low, if_pos (by decide)]
      exact isNaN_mul_finite _ rfl ..

/-- The float nearest to an integer is a number. -/
theorem isNaN_ofInt (n : Int) : (Float.ofInt n).isNaN = false := by
  cases n with
  | ofNat n => exact isNaN_ofNat n
  | negSucc n =>
    change (Float.Model.pack (Float.ofNat n.succ).toModel.unpack.neg).isNaN = false
    rw [isNaN_pack]
    have := isNaN_ofNat n.succ
    change (Float.ofNat n.succ).toModel.unpack.isNaN = false at this
    revert this
    cases (Float.ofNat n.succ).toModel.unpack <;> exact id

end Stencil.Number
