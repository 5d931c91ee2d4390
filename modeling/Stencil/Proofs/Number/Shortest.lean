import Stencil.Number.Shortest
import Mathlib

/-!
# Shortest decimals read back

A number reads back as a float when it lies between the middles of the float and its neighbours
(`ReadsBack`).  The search goes through grids of decimals, one digit more each time, and looks at
the two neighbours of the float on a grid; when any decimal of the grid reads back, one of these two
does (`candidate?_ne_none`).  Decimals with so many digits are on the grid, unless they lie below
the leading power of ten, which then reads back itself.  With seventeen digits a step of the grid is
shorter than the way from middle to middle, so the search always ends in a decimal that reads back
(`candidate?_maxDigits`).  `shortest_spec` puts this together.
-/

namespace Stencil.Number

/-- The number that a decimal denotes. -/
def Decimal.value (d : Decimal) : ℚ := d.digits * 10 ^ d.exponent

/-- Powers of ten may move into the exponent. -/
lemma pow_mul_zpow (j : Nat) (e : Int) : ((10 ^ j : ℕ) : ℚ) * 10 ^ e = 10 ^ (e + j) := by
  rw [zpow_add₀ (by norm_num), zpow_natCast, mul_comm]
  push_cast
  rfl

/-- So may the zeros at the end of the digits. -/
lemma zeros_zpow (k j : Nat) (e : Int) :
    ((k * 10 ^ j : ℕ) : ℚ) * 10 ^ e = k * 10 ^ (e + j) := by
  rw [Nat.cast_mul, mul_assoc, pow_mul_zpow]

namespace Binary

/-- The number `mantissa * 2 ^ exponent`. -/
def magnitude (mantissa : Nat) (exponent : Int) : ℚ := mantissa * 2 ^ exponent

/-- The natural number that a mantissa and an exponent make up is the number that they denote. -/
lemma natural?_eq_some_iff {m n : Nat} {e : Int} :
    natural? m e = some n ↔ (n : ℚ) = magnitude m e := by
  rw [magnitude, natural?]
  split
  · next whole =>
    obtain ⟨k, rfl⟩ := Int.eq_ofNat_of_zero_le whole
    simp only [Int.toNat_natCast, Nat.pow_eq, Option.some.injEq, zpow_natCast]
    rw [eq_comm]
    norm_cast
  · next broken =>
    obtain ⟨k, rfl⟩ : ∃ k : Nat, e = -k := ⟨(-e).toNat, by omega⟩
    simp only [neg_neg, Int.toNat_natCast, Nat.pow_eq, zpow_neg, zpow_natCast]
    rw [← div_eq_mul_inv, eq_div_iff (by positivity)]
    norm_cast
    have positive := Nat.two_pow_pos k
    split
    · next divides =>
      rw [Option.some.injEq, Nat.div_eq_iff_eq_mul_left positive (Nat.dvd_of_mod_eq_zero divides),
        eq_comm]
    · next divides =>
      refine iff_of_false (by simp) fun same => divides ?_
      rw [← same, Nat.mul_mod_left]

end Binary

namespace Shortest

open Binary (magnitude)

/-! ### Scales -/

lemma above_pos {b : Nat} (hb : 0 < b) (e : Int) : 0 < above b e := Nat.pow_pos hb

lemma below_pos {b : Nat} (hb : 0 < b) (e : Int) : 0 < below b e := Nat.pow_pos hb

/-- A power is its numerator over its denominator. -/
lemma below_mul_zpow {b : Nat} (hb : 0 < b) (e : Int) : (below b e : ℚ) * b ^ e = above b e := by
  have nonzero : (b : ℚ) ≠ 0 := by exact_mod_cast hb.ne'
  rw [above, below, Nat.pow_eq, Nat.pow_eq, Nat.cast_pow, Nat.cast_pow]
  obtain whole | broken := Int.le_total 0 e
  · obtain ⟨k, rfl⟩ := Int.eq_ofNat_of_zero_le whole
    simp
  · obtain ⟨k, rfl⟩ : ∃ k : Nat, e = -k := ⟨(-e).toNat, by omega⟩
    simp [nonzero]

/-- The digits of a number tell the powers of ten around it. -/
lemma pow_length_bounds {n : Nat} (hn : 0 < n) :
    10 ^ ((Nat.toDigits 10 n).length - 1) ≤ n ∧ n < 10 ^ (Nat.toDigits 10 n).length := by
  have positive : 0 < (Nat.toDigits 10 n).length := Nat.length_toDigits_pos
  have fits {k : Nat} := @Nat.length_toDigits_le_iff 10 n k (by decide)
  refine ⟨?_, (fits positive).mp le_rfl⟩
  obtain one | more := Nat.eq_zero_or_pos ((Nat.toDigits 10 n).length - 1)
  · rw [one]
    omega
  · by_contra short
    have := (fits more).mpr (by omega)
    omega

/-- The digits of a rounded quotient tell the powers of ten around the quotient. -/
lemma quotient_bounds {num den : Nat} (hden : 0 < den) (large : den ≤ num) :
    10 ^ ((Nat.toDigits 10 (num / den)).length - 1) * den ≤ num ∧
      num < 10 ^ (Nat.toDigits 10 (num / den)).length * den := by
  obtain ⟨low, high⟩ := pow_length_bounds (Nat.div_pos large hden)
  exact ⟨(Nat.le_div_iff_mul_le hden).mp low, (Nat.div_lt_iff_lt_mul hden).mp high⟩

/-- The greatest number that is less than a quotient tells the powers of ten around it as well, the
upper one being reached. -/
lemma quotient_bounds_of_lt {num den : Nat} (hnum : 0 < num) (small : num < den) :
    10 ^ ((Nat.toDigits 10 ((den + num - 1) / num - 1)).length - 1) * num < den ∧
      den ≤ 10 ^ (Nat.toDigits 10 ((den + num - 1) / num - 1)).length * num := by
  obtain ⟨q, ceiling⟩ : ∃ q, (den + num - 1) / num - 1 = q := ⟨_, rfl⟩
  have twice : 2 ≤ (den + num - 1) / num := by
    rw [Nat.le_div_iff_mul_le hnum]
    omega
  have quotient : (den + num - 1) / num = q + 1 := by omega
  rw [Nat.div_eq_iff hnum, Nat.succ_mul] at quotient
  obtain ⟨low, high⟩ := pow_length_bounds (show 0 < q by omega)
  rw [ceiling]
  constructor
  · have := Nat.mul_le_mul_right num low
    omega
  · have := Nat.mul_le_mul_right num high
    rw [Nat.succ_mul] at this
    omega

variable {m : Nat} {e : Int}

/-- The leading digit of a float stands at the power of ten below it. -/
lemma leading_spec (hm : 0 < m) (e : Int) :
    10 ^ leading m e ≤ magnitude m e ∧ magnitude m e < 10 ^ (leading m e + 1) := by
  have denominator := below_pos (b := 2) (by decide) e
  have numerator := Nat.mul_pos hm (above_pos (b := 2) (by decide) e)
  have fraction : magnitude m e = ((m * above 2 e : Nat) : ℚ) / below 2 e := by
    have := below_mul_zpow (b := 2) (by decide) e
    rw [eq_div_iff (by exact_mod_cast denominator.ne'), magnitude, Nat.cast_mul, ← this]
    push_cast
    ring
  rw [fraction, leading]
  generalize m * above 2 e = num at numerator
  generalize below 2 e = den at denominator
  have denPos : (0 : ℚ) < den := by exact_mod_cast denominator
  split
  · next large =>
    obtain ⟨low, high⟩ := quotient_bounds denominator large
    have positive : 0 < (Nat.toDigits 10 (num / den)).length := Nat.length_toDigits_pos
    rw [le_div_iff₀ denPos, div_lt_iff₀ denPos, sub_add_cancel, zpow_natCast,
      ← Int.natCast_pred_of_pos positive, zpow_natCast]
    exact ⟨by exact_mod_cast low, by exact_mod_cast high⟩
  · next small =>
    obtain ⟨low, high⟩ := quotient_bounds_of_lt numerator (Nat.lt_of_not_le small)
    have positive : 0 < (Nat.toDigits 10 ((den + num - 1) / num - 1)).length :=
      Nat.length_toDigits_pos
    generalize (Nat.toDigits 10 ((den + num - 1) / num - 1)).length = k at *
    have next : -(k : ℤ) + 1 = -((k - 1 : ℕ) : ℤ) := by omega
    rw [next, zpow_neg, zpow_neg, zpow_natCast, zpow_natCast, le_div_iff₀ denPos,
      div_lt_iff₀ denPos, inv_mul_le_iff₀ (by positivity), lt_inv_mul_iff₀ (by positivity)]
    exact ⟨by exact_mod_cast high, by exact_mod_cast low⟩

/-! ### Reading back -/

/-- How many quarters of its last place a float is above the middle between it and the next float
below, which is nearer to a power of two. -/
def gapBelow (m : Nat) (e : Int) : Nat :=
  if m = Binary.leastNormal ∧ Binary.minExponent < e then 1 else 2

/-- The middle between a float and the next one below. -/
def middleBelow (m : Nat) (e : Int) : ℚ := (4 * m - gapBelow m e) * 2 ^ (e - 2)

/-- The middle between a float and the next one above. -/
def middleAbove (m : Nat) (e : Int) : ℚ := (4 * m + 2) * 2 ^ (e - 2)

/-- The number reads back as the float: it lies between the middles, where a float with an even
mantissa takes them as well. -/
structure ReadsBack (m : Nat) (e : Int) (r : ℚ) : Prop where
  low : middleBelow m e ≤ r
  high : r ≤ middleAbove m e
  inside : m % 2 = 1 → middleBelow m e < r ∧ r < middleAbove m e

lemma gapBelow_cases (m : Nat) (e : Int) :
    gapBelow m e = 2 ∨ gapBelow m e = 1 ∧ m = 2 ^ 52 := by
  rw [gapBelow]
  split
  · next least => exact .inr ⟨rfl, least.1⟩
  · exact .inl rfl

lemma gapBelow_bounds (m : Nat) (e : Int) : (0 : ℚ) < gapBelow m e ∧ (gapBelow m e : ℚ) ≤ 2 := by
  obtain two | ⟨one, -⟩ := gapBelow_cases m e <;> simp [*]

lemma magnitude_eq_quarters (m : Nat) (e : Int) : magnitude m e = 4 * m * 2 ^ (e - 2) := by
  rw [magnitude, zpow_sub₀ (by norm_num)]
  ring

/-- What lies strictly between the middles reads back. -/
lemma readsBack_of_between {r : ℚ} (low : middleBelow m e < r) (high : r < middleAbove m e) :
    ReadsBack m e r :=
  ⟨low.le, high.le, fun _ => ⟨low, high⟩⟩

/-- A float lies strictly between its middles. -/
lemma magnitude_between (m : Nat) (e : Int) :
    middleBelow m e < magnitude m e ∧ magnitude m e < middleAbove m e := by
  have unit : (0 : ℚ) < 2 ^ (e - 2) := by positivity
  have gap := (gapBelow_bounds m e).1
  rw [magnitude_eq_quarters, middleBelow, middleAbove]
  constructor <;> refine mul_lt_mul_of_pos_right ?_ unit <;> linarith

/-- What lies between a number that reads back and the float itself reads back. -/
lemma ReadsBack.of_between {r r' : ℚ} (h : ReadsBack m e r)
    (between : (r ≤ r' ∧ r' ≤ magnitude m e) ∨ (magnitude m e ≤ r' ∧ r' ≤ r)) :
    ReadsBack m e r' := by
  obtain ⟨below, above⟩ := magnitude_between m e
  have := h.low
  have := h.high
  constructor
  case low => obtain between | between := between <;> linarith
  case high => obtain between | between := between <;> linarith
  case inside =>
    intro odd
    have := h.inside odd
    obtain between | between := between <;> constructor <;> linarith

/-- What reads back is at most half of the last place away. -/
lemma ReadsBack.abs_sub_le {r : ℚ} (h : ReadsBack m e r) : |r - magnitude m e| ≤ 2 ^ e / 2 := by
  have unit : (0 : ℚ) < 2 ^ (e - 2) := by positivity
  have last : (2 : ℚ) ^ e = 4 * 2 ^ (e - 2) := by
    rw [zpow_sub₀ (by norm_num)]
    ring
  have gap := mul_le_mul_of_nonneg_right (gapBelow_bounds m e).2 unit.le
  have low := h.low
  have high := h.high
  rw [middleBelow, sub_mul] at low
  rw [middleAbove, add_mul] at high
  rw [abs_le, magnitude_eq_quarters, last]
  constructor <;> linarith

/-- Only positive numbers read back as a positive float. -/
lemma ReadsBack.pos (hm : 0 < m) {r : ℚ} (h : ReadsBack m e r) : 0 < r := by
  have one : (1 : ℚ) ≤ m := by exact_mod_cast hm
  have gap := (gapBelow_bounds m e).2
  refine lt_of_lt_of_le ?_ h.low
  rw [middleBelow]
  exact mul_pos (by linarith) (by positivity)

/-! ### One grid

The search compares natural numbers: quarters of the last place of the float and steps of a grid,
over a common denominator. -/

/-- A quarter of the last place. -/
def quarter (e g : Int) : Nat := above 2 (e - 2) * below 10 g

/-- A step of the grid. -/
def step (e g : Int) : Nat := above 10 g * below 2 (e - 2)

/-- The common denominator of a quarter and a step. -/
def scale (e g : Int) : ℚ := below 10 g * below 2 (e - 2)

/-- Whether so many steps read back. -/
def passes (m : Nat) (e g : Int) (d : Nat) : Bool :=
  if m % 2 = 0 then
    (4 * m - gapBelow m e) * quarter e g ≤ d * step e g &&
      d * step e g ≤ (4 * m + 2) * quarter e g
  else
    (4 * m - gapBelow m e) * quarter e g < d * step e g &&
      d * step e g < (4 * m + 2) * quarter e g

lemma scale_pos (e g : Int) : 0 < scale e g := by
  have := below_pos (b := 10) (by decide) g
  have := below_pos (b := 2) (by decide) (e - 2)
  rw [scale]
  positivity

lemma quarter_eq (e g : Int) : (quarter e g : ℚ) = scale e g * 2 ^ (e - 2) := by
  have := below_mul_zpow (b := 2) (by decide) (e - 2)
  rw [quarter, scale, Nat.cast_mul, ← this]
  push_cast
  ring

lemma step_eq (e g : Int) : (step e g : ℚ) = scale e g * 10 ^ g := by
  have := below_mul_zpow (b := 10) (by decide) g
  rw [step, scale, Nat.cast_mul, ← this]
  push_cast
  ring

/-- So many steps, over the common denominator. -/
lemma mul_step_eq (d : Nat) (e g : Int) :
    ((d * step e g : ℕ) : ℚ) = scale e g * (d * 10 ^ g) := by
  rw [Nat.cast_mul, step_eq]
  ring

/-- The middles, over the common denominator. -/
lemma middles_eq (hm : 0 < m) (e g : Int) :
    (((4 * m - gapBelow m e) * quarter e g : ℕ) : ℚ) = scale e g * middleBelow m e ∧
      (((4 * m + 2) * quarter e g : ℕ) : ℚ) = scale e g * middleAbove m e := by
  have fits : gapBelow m e ≤ 4 * m := by
    obtain two | ⟨one, -⟩ := gapBelow_cases m e <;> omega
  rw [Nat.cast_mul, Nat.cast_mul, Nat.cast_sub fits, quarter_eq, middleBelow, middleAbove]
  push_cast
  constructor <;> ring

/-- The comparisons tell what reads back. -/
lemma passes_iff (hm : 0 < m) (e g : Int) (d : Nat) :
    passes m e g d = true ↔ ReadsBack m e (d * 10 ^ g) := by
  obtain ⟨low, high⟩ := middles_eq hm e g
  have positive := scale_pos e g
  rw [passes]
  split
  · next even =>
    rw [Bool.and_eq_true, decide_eq_true_eq, decide_eq_true_eq, ← Nat.cast_le (α := ℚ), low,
      ← Nat.cast_le (α := ℚ), high, mul_step_eq, mul_le_mul_iff_right₀ positive,
      mul_le_mul_iff_right₀ positive]
    exact ⟨fun ⟨low, high⟩ => ⟨low, high, fun odd => by omega⟩, fun h => ⟨h.low, h.high⟩⟩
  · next odd =>
    rw [Bool.and_eq_true, decide_eq_true_eq, decide_eq_true_eq, ← Nat.cast_lt (α := ℚ), low,
      ← Nat.cast_lt (α := ℚ), high, mul_step_eq, mul_lt_mul_iff_right₀ positive,
      mul_lt_mul_iff_right₀ positive]
    exact ⟨fun ⟨low, high⟩ => readsBack_of_between low high, fun h => h.inside (by omega)⟩

/-- The number of whole steps in a float. -/
def down (m : Nat) (e g : Int) : Nat := 4 * m * quarter e g / step e g

/-- The float lies between its neighbours on the grid. -/
lemma down_spec (m : Nat) (e g : Int) :
    down m e g * 10 ^ g ≤ magnitude m e ∧ magnitude m e < (down m e g + 1 : ℕ) * 10 ^ g := by
  have positive := scale_pos e g
  have value : ((4 * m * quarter e g : ℕ) : ℚ) = scale e g * magnitude m e := by
    rw [Nat.cast_mul, quarter_eq, magnitude_eq_quarters]
    push_cast
    ring
  have stepPos : 0 < step e g :=
    Nat.mul_pos (above_pos (by decide) g) (below_pos (by decide) (e - 2))
  have low : down m e g * step e g ≤ 4 * m * quarter e g := Nat.div_mul_le_self _ _
  have high : 4 * m * quarter e g < (down m e g + 1) * step e g := by
    rw [Nat.mul_comm (down m e g + 1)]
    exact Nat.lt_mul_div_succ _ stepPos
  rw [← Nat.cast_le (α := ℚ), value, mul_step_eq, mul_le_mul_iff_right₀ positive] at low
  rw [← Nat.cast_lt (α := ℚ), value, mul_step_eq, mul_lt_mul_iff_right₀ positive] at high
  exact ⟨low, high⟩

/-- The exponent of the grid with so many digits. -/
def grid (m : Nat) (e : Int) (count : Nat) : Int := leading m e + 1 - count

/-- A float has as many whole steps as so many digits can say. -/
lemma down_lt (hm : 0 < m) (e : Int) (count : Nat) :
    down m e (grid m e count) < 10 ^ count := by
  have below := (down_spec m e (grid m e count)).1.trans_lt (leading_spec hm e).2
  have power : (10 : ℚ) ^ (leading m e + 1) = (10 ^ count : ℕ) * 10 ^ grid m e count := by
    rw [pow_mul_zpow, grid, sub_add_cancel]
  rw [power] at below
  exact_mod_cast lt_of_mul_lt_mul_right below (by positivity)

/-- The search at a grid looks at the two neighbours of the float on it: it finds one that reads
back, unless neither does. -/
lemma candidate?_cases (tieUp : Bool) (hm : 0 < m) (e : Int) (count : Nat) :
    let g := grid m e count
    (candidate? tieUp m e count = none ∧ ¬ ReadsBack m e (down m e g * 10 ^ g) ∧
        ¬ ReadsBack m e ((down m e g + 1 : ℕ) * 10 ^ g)) ∨
      ∃ d, candidate? tieUp m e count = some ⟨d, g⟩ ∧ (d = down m e g ∨ d = down m e g + 1) ∧
        ReadsBack m e (d * 10 ^ g) := by
  intro g
  simp only [← passes_iff hm]
  rw [candidate?]
  split
  · next downReads upReads =>
    dsimp only
    split
    · exact .inr ⟨down m e g, rfl, .inl rfl, downReads⟩
    · exact .inr ⟨down m e g + 1, rfl, .inr rfl, upReads⟩
  · next downReads upReads => exact .inr ⟨down m e g, rfl, .inl rfl, downReads⟩
  · next downReads upReads => exact .inr ⟨down m e g + 1, rfl, .inr rfl, upReads⟩
  · next downReads upReads =>
    exact .inl ⟨rfl, Bool.eq_false_iff.mp downReads, Bool.eq_false_iff.mp upReads⟩

/-- Where a decimal of a grid reads back, the search finds one there. -/
lemma candidate?_ne_none (tieUp : Bool) (hm : 0 < m) {count d : Nat}
    (h : ReadsBack m e (d * 10 ^ grid m e count)) : candidate? tieUp m e count ≠ none := by
  obtain ⟨-, noDown, noUp⟩ | ⟨d', found, -⟩ := candidate?_cases tieUp hm e count
  · exfalso
    obtain ⟨low, high⟩ := down_spec m e (grid m e count)
    have unit : (0 : ℚ) ≤ 10 ^ grid m e count := by positivity
    obtain before | after := Nat.lt_or_ge (down m e (grid m e count)) d
    · refine noUp (h.of_between (.inr ⟨high.le, mul_le_mul_of_nonneg_right ?_ unit⟩))
      exact_mod_cast before
    · refine noDown (h.of_between (.inl ⟨mul_le_mul_of_nonneg_right ?_ unit, low⟩))
      exact_mod_cast after
  · rw [found]
    exact Option.some_ne_none _

/-- Where a decimal with so many digits reads back, the search finds one with so many digits. -/
lemma candidate?_ne_none_of_readsBack (tieUp : Bool) (hm : 0 < m) {d : Decimal} {count : Nat}
    (some_digit : 0 < count) (fits : d.digits < 10 ^ count) (h : ReadsBack m e d.value) :
    candidate? tieUp m e count ≠ none := by
  obtain ⟨low, -⟩ := leading_spec hm e
  rw [Decimal.value] at h
  obtain above | below := le_or_gt ((10 : ℚ) ^ leading m e) (d.digits * 10 ^ d.exponent)
  · -- a decimal above the leading power of ten is one of the grid
    have fine : grid m e count ≤ d.exponent := by
      have scaled : (d.digits * 10 ^ d.exponent : ℚ) < 10 ^ (count + d.exponent) := by
        rw [zpow_add₀ (by norm_num), zpow_natCast]
        refine mul_lt_mul_of_pos_right ?_ (by positivity)
        exact_mod_cast fits
      have := (zpow_lt_zpow_iff_right₀ (by norm_num)).mp (above.trans_lt scaled)
      rw [grid]
      omega
    have moved : d.exponent = grid m e count + (d.exponent - grid m e count).toNat := by omega
    rw [moved, ← zeros_zpow] at h
    exact candidate?_ne_none tieUp hm h
  · -- the leading power of ten itself lies between the decimal and the float
    have power : (10 : ℚ) ^ leading m e = (10 ^ (count - 1) : ℕ) * 10 ^ grid m e count := by
      rw [pow_mul_zpow, grid]
      congr 1
      omega
    have inside := h.of_between (.inl ⟨below.le, low⟩)
    rw [power] at inside
    exact candidate?_ne_none tieUp hm inside

/-- Seventeen digits tell every float from its neighbours. -/
lemma candidate?_maxDigits (tieUp : Bool) (hm : 0 < m) (small : m < 2 ^ 53) (e : Int) :
    candidate? tieUp m e maxDigits ≠ none := by
  obtain ⟨-, noDown, noUp⟩ | ⟨d, found, -⟩ := candidate?_cases tieUp hm e maxDigits
  · exfalso
    obtain ⟨low, high⟩ := down_spec m e (grid m e maxDigits)
    obtain ⟨first, last⟩ := magnitude_between m e
    have unit : (0 : ℚ) < 2 ^ (e - 2) := by positivity
    -- both neighbours lie outside, so a step is as long as the way from middle to middle
    have before := le_of_not_gt fun inside =>
      noDown (readsBack_of_between inside (low.trans_lt last))
    have after := le_of_not_gt fun inside =>
      noUp (readsBack_of_between (first.trans high) inside)
    have long : (2 + gapBelow m e : ℚ) * 2 ^ (e - 2) ≤ 10 ^ grid m e maxDigits := by
      rw [middleBelow] at before
      rw [middleAbove] at after
      push_cast at after
      linarith
    have short : (10 ^ 16 : ℚ) * 10 ^ grid m e maxDigits ≤ 4 * m * 2 ^ (e - 2) := by
      rw [← magnitude_eq_quarters]
      refine le_trans (le_of_eq ?_) (leading_spec hm e).1
      rw [grid, maxDigits, ← zpow_natCast, ← zpow_add₀ (by norm_num)]
      congr 1
      push_cast
      ring
    have bound : (10 ^ 16 : ℚ) * (2 + gapBelow m e) ≤ 4 * m := by
      refine le_of_mul_le_mul_right ?_ unit
      linarith
    have boundNat : 10 ^ 16 * (2 + gapBelow m e) ≤ 4 * m := by exact_mod_cast bound
    obtain two | ⟨one, least⟩ := gapBelow_cases m e <;> omega
  · rw [found]
    exact Option.some_ne_none _

/-- The search gives the first hit. -/
lemma search_spec {tieUp : Bool} {left count last : Nat} (first : count ≤ last)
    (bounded : last < count + left) (hit : candidate? tieUp m e last ≠ none) :
    ∃ c, count ≤ c ∧ c ≤ last ∧ candidate? tieUp m e c = some (search tieUp m e left count) ∧
      ∀ c', count ≤ c' → candidate? tieUp m e c' ≠ none → c ≤ c' := by
  induction left generalizing count with
  | zero => omega
  | succ left ih =>
    cases found : candidate? tieUp m e count with
    | some d => exact ⟨count, le_rfl, first, by rw [search, found], fun c' low _ => low⟩
    | none =>
      have later (c : Nat) (low : count ≤ c) (hit : candidate? tieUp m e c ≠ none) :
          count + 1 ≤ c := by
        obtain rfl | more := eq_or_lt_of_le low
        · exact absurd found hit
        · exact more
      obtain ⟨c, low, high, result, least⟩ := ih (later last first hit) (by omega)
      refine ⟨c, by omega, high, ?_, fun c' low' hit' => least c' (later c' low' hit') hit'⟩
      rw [search, found]
      exact result

end Shortest

open Shortest

/-- The shortest decimal of a float has at most seventeen digits and reads back, and no decimal with
fewer digits does. -/
theorem shortest_spec (tieUp : Bool) {m : Nat} (hm : 0 < m) (small : m < 2 ^ 53) (e : Int) :
    ∃ count, 0 < count ∧ count ≤ maxDigits ∧ (shortest tieUp m e).exponent = grid m e count ∧
      (shortest tieUp m e).digits ≤ 10 ^ count ∧ ReadsBack m e (shortest tieUp m e).value ∧
      ∀ (d : Decimal) (digits : Nat), 0 < digits → d.digits < 10 ^ digits →
        ReadsBack m e d.value → count ≤ digits := by
  obtain ⟨count, positive, most, found, least⟩ :=
    @search_spec m e tieUp maxDigits 1 maxDigits (by decide) (by decide)
      (candidate?_maxDigits tieUp hm small e)
  change candidate? tieUp m e count = some (shortest tieUp m e) at found
  obtain ⟨missing, -⟩ | ⟨d, hit, near, reads⟩ := candidate?_cases tieUp hm e count
  · rw [missing] at found
    cases found
  · have result : shortest tieUp m e = ⟨d, grid m e count⟩ :=
      Option.some.inj (found.symm.trans hit)
    rw [result]
    refine ⟨count, positive, most, rfl, ?_, reads, fun d' digits some_digit fits reads' => ?_⟩
    · have := down_lt hm e count
      dsimp only
      omega
    · have hit' := candidate?_ne_none_of_readsBack tieUp hm some_digit fits reads'
      exact least digits some_digit hit'

end Stencil.Number
