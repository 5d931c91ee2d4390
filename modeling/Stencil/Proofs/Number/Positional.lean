import Stencil.Number.Text
import Stencil.Proofs.Number.Shortest

/-!
# Decimals written out

A decimal is written without the zeros at the end of its digits.  What is left are digits of which
the last is not zero (`Decimal.exists_trimmed`), so the power of ten alone tells whether the decimal
denotes a natural number (`Decimal.whole_iff`).  If it does, the decimal is written as the digits of
this number (`Decimal.positional_of_value`); if it does not, there is a point among the digits
(`Decimal.point_mem_positional`).  With zeros left out, the decimal that the search finds has the
fewest digits of all that read back as the float (`isShortest_shortest`).
-/

namespace Stencil.Number

/-- Zeros at the end of a number. -/
lemma exists_kept {n : Nat} (hn : 0 < n) :
    ∃ k j, n = k * 10 ^ j ∧ k % 10 ≠ 0 ∧
      ((natDigits n).reverse.dropWhile (· == '0')).reverse = natDigits k ∧
      (natDigits n).length = (natDigits k).length + j := by
  induction n using Nat.strongRecOn with
  | _ n ih =>
    by_cases zero : n % 10 = 0
    · have large : 10 ≤ n := by omega
      have digits : natDigits n = natDigits (n / 10) ++ ['0'] := by
        rw [natDigits, Nat.toDigits_of_base_le (by decide) large, zero]
        rfl
      obtain ⟨k, j, whole, last, kept, length⟩ := ih (n / 10) (by omega) (by omega)
      refine ⟨k, j + 1, ?_, last, ?_, ?_⟩
      · rw [Nat.pow_succ, ← Nat.mul_assoc, ← whole]
        omega
      · simpa [digits] using kept
      · rw [digits, List.length_append, length]
        rfl
    · refine ⟨n, 0, by simp, zero, ?_, rfl⟩
      obtain ⟨front, digits⟩ : ∃ front, natDigits n = front ++ [(n % 10).digitChar] := by
        rw [natDigits, Nat.toDigits_eq_if (by decide)]
        split
        · next small => exact ⟨[], by rw [Nat.mod_eq_of_lt small]; rfl⟩
        · exact ⟨_, rfl⟩
      have nonzero : ((n % 10).digitChar == '0') = false := by
        have below : n % 10 < 10 := Nat.mod_lt _ (by decide)
        generalize n % 10 = d at *
        interval_cases d <;> first | omega | rfl
      simp [digits, nonzero]

/-- Zeros after the digits of a number multiply it. -/
lemma natDigits_mul_pow {k : Nat} (hk : 0 < k) (j : Nat) :
    natDigits (k * 10 ^ j) = natDigits k ++ List.replicate j '0' := by
  induction j with
  | zero => simp
  | succ j ih =>
    have positive : 0 < k * 10 ^ j := by positivity
    have zero : natDigits 0 = ['0'] := rfl
    have appended : natDigits (k * 10 ^ j) ++ natDigits 0 = natDigits (10 * (k * 10 ^ j) + 0) :=
      Nat.toDigits_append_toDigits (by decide) positive (by decide)
    rw [List.replicate_succ', ← List.append_assoc, ← ih, ← zero, appended]
    congr 1
    ring

namespace Decimal

/-- A decimal is as many digits, the last of which is not zero, at the power of ten that is left. -/
lemma exists_trimmed {d : Decimal} (hd : 0 < d.digits) :
    ∃ k j : Nat, d.digits = k * 10 ^ j ∧ k % 10 ≠ 0 ∧
      d.trimmed = (natDigits k, d.exponent + j) := by
  obtain ⟨k, j, whole, last, kept, length⟩ := exists_kept hd
  refine ⟨k, j, whole, last, ?_⟩
  rw [trimmed]
  simp only [kept]
  congr 2
  omega

/-- What a decimal without zeros at its end denotes is whole exactly when its power of ten is. -/
lemma whole_iff {k : Nat} (last : k % 10 ≠ 0) (e : Int) :
    (∃ n : Nat, (k : ℚ) * 10 ^ e = n) ↔ 0 ≤ e := by
  constructor
  · rintro ⟨n, same⟩
    by_contra! negative
    obtain ⟨j, rfl⟩ : ∃ j : Nat, e = -(j + 1 : ℕ) := ⟨(-e).toNat - 1, by omega⟩
    rw [zpow_neg, zpow_natCast, ← div_eq_mul_inv, div_eq_iff (by positivity)] at same
    have multiple : k = n * 10 ^ (j + 1) := by exact_mod_cast same
    rw [multiple, Nat.pow_succ, ← Nat.mul_assoc, Nat.mul_mod_left] at last
    exact last rfl
  · intro whole
    obtain ⟨j, rfl⟩ := Int.eq_ofNat_of_zero_le whole
    exact ⟨k * 10 ^ j, by push_cast; rw [zpow_natCast]⟩

/-- A decimal that denotes a natural number is written as the digits of this number. -/
lemma positional_of_value {d : Decimal} (hd : 0 < d.digits) {n : Nat} (h : d.value = n) :
    d.positional = natDigits n := by
  obtain ⟨k, j, whole, last, parts⟩ := exists_trimmed hd
  have value : d.value = k * 10 ^ (d.exponent + j) := by rw [Decimal.value, whole, zeros_zpow]
  have power := (whole_iff last _).mp ⟨n, value.symm.trans h⟩
  have positive : 0 < k := by omega
  have number : k * 10 ^ (d.exponent + j).toNat = n := by
    have scaled : (k : ℚ) * 10 ^ (d.exponent + j).toNat = n := by
      rw [← zpow_natCast, Int.toNat_of_nonneg power, ← value, h]
    exact_mod_cast scaled
  rw [positional, parts, ← number, natDigits_mul_pow positive]
  simp only [if_pos power]

/-- There is a point in every other decimal. -/
lemma point_mem_positional {d : Decimal} (hd : 0 < d.digits) (h : ¬ ∃ n : Nat, d.value = n) :
    '.' ∈ d.positional := by
  obtain ⟨k, j, whole, last, parts⟩ := exists_trimmed hd
  have value : d.value = k * 10 ^ (d.exponent + j) := by rw [Decimal.value, whole, zeros_zpow]
  rw [value, whole_iff last] at h
  rw [positional, parts]
  simp only [if_neg h]
  split <;> simp

/-- How many digits a decimal takes without the zeros at its end. -/
def significant (d : Decimal) : Nat := d.trimmed.1.length

end Decimal

open Shortest

/-- The decimal reads back as the float, and it does so with the fewest digits. -/
structure IsShortest (m : Nat) (e : Int) (d : Decimal) : Prop where
  reads : ReadsBack m e d.value
  fewest : ∀ d' : Decimal, ReadsBack m e d'.value → d.significant ≤ d'.significant

variable {m : Nat} {e : Int}

/-- A decimal that reads back has digits. -/
lemma digits_pos_of_readsBack (hm : 0 < m) {d : Decimal} (h : ReadsBack m e d.value) :
    0 < d.digits := by
  have positive := h.pos hm
  by_contra none
  rw [Decimal.value, show d.digits = 0 by omega] at positive
  simp at positive

/-- The search finds a decimal with the fewest digits. -/
theorem isShortest_shortest (tieUp : Bool) (hm : 0 < m) (small : m < 2 ^ 53) (e : Int) :
    IsShortest m e (shortest tieUp m e) := by
  obtain ⟨count, positive, -, -, digits, reads, least⟩ := shortest_spec tieUp hm small e
  refine ⟨reads, fun d' reads' => le_trans (b := count) ?_ ?_⟩
  · obtain ⟨k, j, whole, last, parts⟩ :=
      Decimal.exists_trimmed (digits_pos_of_readsBack hm reads)
    have bounded : k ≤ 10 ^ count := by
      refine le_trans (Nat.le_mul_of_pos_right k ?_) (whole ▸ digits)
      positivity
    have other : k ≠ 10 ^ count := by
      rintro rfl
      obtain ⟨count, rfl⟩ : ∃ c, count = c + 1 := ⟨count - 1, by omega⟩
      rw [Nat.pow_succ, Nat.mul_mod_left] at last
      exact last rfl
    rw [Decimal.significant, parts, natDigits, Nat.length_toDigits_le_iff (by decide) positive]
    omega
  · obtain ⟨k, j, whole, last, parts⟩ :=
      Decimal.exists_trimmed (digits_pos_of_readsBack hm reads')
    rw [Decimal.value, whole, zeros_zpow] at reads'
    have some_digit : 0 < (natDigits k).length := Nat.length_toDigits_pos
    have fits : k < 10 ^ (natDigits k).length :=
      (Nat.length_toDigits_le_iff (by decide) some_digit).mp le_rfl
    rw [Decimal.significant, parts]
    exact least ⟨k, d'.exponent + j⟩ _ some_digit fits reads'

end Stencil.Number
