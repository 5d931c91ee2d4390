import Stencil.Expr.Eval
import Stencil.Proofs.Checked.Eval
import Stencil.Proofs.Expr.Comparisons

/-!
# Exact integer arithmetic

Sums, differences, products and negatives of integers are exact, or refused because no 64-bit
integer has the exact value (`Exact`).  Floor division and remainder are refused only where the
divisor is zero or the quotient is out of range; otherwise the quotient is the floor of the exact
one, and what it leaves has the sign of the divisor (`FloorDivision`).  A machine divides toward
zero and then corrects both results by the signs, and the corrections stay in range.
`integer_arithmetic` puts this together.
-/

namespace Stencil

namespace Number

/-! ### Rounding down -/

/-- What rounding down leaves lies between zero and the divisor. -/
lemma fmod_between (a : Int) {b : Int} (nonzero : b ≠ 0) :
    (0 < b ∧ 0 ≤ a.fmod b ∧ a.fmod b < b) ∨ (b < 0 ∧ b < a.fmod b ∧ a.fmod b ≤ 0) := by
  obtain negative | positive := Int.lt_or_gt_of_ne nonzero
  · have least := Int.emod_nonneg a nonzero
    have most := Int.emod_lt_of_neg a negative
    have divides := Int.dvd_iff_emod_eq_zero (a := b) (b := a)
    refine .inr ⟨negative, ?_⟩
    rw [Int.fmod_eq_emod]
    split <;> omega
  · exact .inl ⟨positive, Int.fmod_nonneg_of_pos a positive, Int.fmod_lt_of_pos a positive⟩

variable {a b q r : Int}

/-- What lies between zero and the divisor has its sign, or none, and is smaller. -/
lemma sign_of_between (between : (0 < b ∧ 0 ≤ r ∧ r < b) ∨ (b < 0 ∧ b < r ∧ r ≤ 0)) :
    (r = 0 ∨ r.sign = b.sign) ∧ |r| < |b| := by
  obtain ⟨positive, least, most⟩ | ⟨negative, least, most⟩ := between
  · rw [abs_of_nonneg least, abs_of_pos positive]
    refine ⟨(eq_or_lt_of_le least).imp Eq.symm fun above => ?_, most⟩
    rw [Int.sign_eq_one_of_pos above, Int.sign_eq_one_of_pos positive]
  · rw [abs_of_nonpos most, abs_of_neg negative]
    refine ⟨(eq_or_lt_of_le most).imp id fun below => ?_, Int.neg_lt_neg least⟩
    rw [Int.sign_eq_neg_one_of_neg below, Int.sign_eq_neg_one_of_neg negative]

/-- A quotient that leaves something between zero and the divisor is rounded down. -/
lemma floor_eq_of_between (whole : a = b * q + r)
    (between : (0 < b ∧ 0 ≤ r ∧ r < b) ∨ (b < 0 ∧ b < r ∧ r ≤ 0)) : ⌊(a : ℚ) / b⌋ = q := by
  have cast : (a : ℚ) = b * q + r := by exact_mod_cast whole
  rw [Int.floor_eq_iff]
  obtain ⟨positive, least, most⟩ | ⟨negative, least, most⟩ := between
  · have : (0 : ℚ) < b := by exact_mod_cast positive
    have : (0 : ℚ) ≤ r := by exact_mod_cast least
    have : (r : ℚ) < b := by exact_mod_cast most
    rw [le_div_iff₀ ‹_›, div_lt_iff₀ ‹_›]
    constructor <;> linarith
  · have : (b : ℚ) < 0 := by exact_mod_cast negative
    have : (b : ℚ) < r := by exact_mod_cast least
    have : (r : ℚ) ≤ 0 := by exact_mod_cast most
    rw [le_div_iff_of_neg ‹_›, div_lt_iff_of_neg ‹_›]
    constructor <;> linarith

end Number

namespace Expr

/-- The outcome is the integer with this value, or the refusal when no integer has it. -/
structure Exact (outcome : Except EvalError Value) (n : Int) : Prop where
  fits : Int64.minValue.toInt ≤ n ∧ n ≤ Int64.maxValue.toInt →
    ∃ k : Int64, k.toInt = n ∧ outcome = .ok (.integer k)
  overflow : ¬ (Int64.minValue.toInt ≤ n ∧ n ≤ Int64.maxValue.toInt) →
    outcome = .error (.operand .overflow)

/-- The integers `q` and `r` are the quotient of `a` and `b`, rounded down, and what it leaves. -/
structure FloorDivision (a b q r : Int64) : Prop where
  floor : q.toInt = ⌊(a.toInt : ℚ) / b.toInt⌋
  whole : a.toInt = b.toInt * q.toInt + r.toInt
  sign : r.toInt = 0 ∨ r.toInt.sign = b.toInt.sign
  small : |r.toInt| < |b.toInt|
  /-- The quotient toward zero is corrected without leaving the range. -/
  correctedQuotient : q.toInt =
    if (a % b).toInt ≠ 0 ∧ ¬ (a.toInt < 0 ↔ b.toInt < 0) then (a / b).toInt - 1
    else (a / b).toInt
  /-- So is what it leaves. -/
  correctedRemainder : r.toInt =
    if (a % b).toInt ≠ 0 ∧ ¬ ((a % b).toInt < 0 ↔ b.toInt < 0) then (a % b).toInt + b.toInt
    else (a % b).toInt

variable {scope : Scope} {x y : Expr} {a b : Int64}

/-! ### Exact results -/

/-- An integer that is computed exactly, or refused. -/
lemma exact_of_eq {outcome : Except EvalError Value} {n : Int}
    (h : outcome = refuse (Value.exactInteger n)) : Exact outcome n := by
  rw [h, Value.exactInteger]
  constructor
  case fits =>
    intro range
    obtain ⟨k, same⟩ := Checked.exists_toInt_eq range.1 range.2
    rw [Number.narrow?_eq_some_iff.mpr same]
    exact ⟨k, same, rfl⟩
  case overflow =>
    intro range
    rw [Number.narrow?, if_neg range]
    rfl

/-- The value of unary minus on an integer. -/
lemma eval_negate (hx : x.eval scope = .ok (.integer a)) :
    (Expr.negate x).eval scope = refuse (Value.exactInteger (-a.toInt)) := by
  rw [eval, hx]
  rfl

/-! ### Division -/

/-- What rounding down leaves is an integer in range. -/
lemma exists_toInt_eq_fmod (a b : Int64) : ∃ k : Int64, k.toInt = a.toInt.fmod b.toInt := by
  rw [Checked.fmod_eq_ite, ← Int64.toInt_mod]
  split
  · next corrected => exact Checked.exists_toInt_eq_add corrected.2
  · exact ⟨a % b, rfl⟩

/-- Divisions by zero and out of range are refused. -/
lemma divisions_of_undivided (h : Checked.Undivided a b) :
    (∃ e, Value.floorDivide (.integer a) (.integer b) = .error e) ∧
      ∃ e, Value.remainder (.integer a) (.integer b) = .error e := by
  by_cases zero : b = 0
  · subst zero
    exact ⟨⟨_, rfl⟩, ⟨_, rfl⟩⟩
  · have refused := Checked.exactInteger_fdiv_of_undivided zero h
    rw [Checked.floorDivide_words zero, Checked.remainder_words zero, refused]
    exact ⟨⟨_, rfl⟩, ⟨_, rfl⟩⟩

/-- All other divisions of integers give the quotient rounded down and what it leaves. -/
lemma exists_floorDivision (h : ¬ Checked.Undivided a b) :
    ∃ q r : Int64, FloorDivision a b q r ∧
      Value.floorDivide (.integer a) (.integer b) = .ok (.integer q) ∧
      Value.remainder (.integer a) (.integer b) = .ok (.integer r) := by
  have nonzero : b ≠ 0 := fun zero => h (.inl zero)
  have divisor := Checked.toInt_ne_zero nonzero
  obtain ⟨q, quotient⟩ := Checked.exists_toInt_eq_fdiv nonzero h
  obtain ⟨r, left⟩ := exists_toInt_eq_fmod a b
  have whole : a.toInt = b.toInt * q.toInt + r.toInt := by
    rw [quotient, left, Int.mul_fdiv_add_fmod]
  have between := Number.fmod_between a.toInt divisor
  rw [← left] at between
  refine ⟨q, r, ?_, ?_, ?_⟩
  · constructor
    case floor => exact (Number.floor_eq_of_between whole between).symm
    case whole => exact whole
    case sign => exact (Number.sign_of_between between).1
    case small => exact (Number.sign_of_between between).2
    case correctedQuotient =>
      rw [quotient, Checked.fdiv_eq_ite _ divisor, ← Checked.toInt_div h, ← Int64.toInt_mod]
    case correctedRemainder => rw [left, Checked.fmod_eq_ite, ← Int64.toInt_mod]
  · rw [Checked.floorDivide_words nonzero, Checked.exactInteger_eq quotient]
  · rw [Checked.remainder_words nonzero, Checked.exactInteger_eq quotient,
      Checked.exactInteger_eq left]
    rfl

/-- Sums, differences, products and negatives of integers are exact or refused for overflow; floor
division and remainder are refused exactly where the divisor is zero or the quotient is out of
range, and otherwise give the quotient rounded down and what it leaves, which the checked steps of a
machine give as well. -/
theorem integer_arithmetic (hx : x.eval scope = .ok (.integer a))
    (hy : y.eval scope = .ok (.integer b)) :
    Exact ((Expr.binary .add x y).eval scope) (a.toInt + b.toInt) ∧
      Exact ((Expr.binary .subtract x y).eval scope) (a.toInt - b.toInt) ∧
      Exact ((Expr.binary .multiply x y).eval scope) (a.toInt * b.toInt) ∧
      Exact ((Expr.negate x).eval scope) (-a.toInt) ∧
      OperandError.overflow.message = "integer overflow" ∧
      (∀ op ∈ [Operator.floorDivide, .remainder],
        (∃ e, (Expr.binary op x y).eval scope = .error e) ↔
          b = 0 ∨ a = Int64.minValue ∧ b = -1) ∧
      (¬ (b = 0 ∨ a = Int64.minValue ∧ b = -1) →
        ∃ q r : Int64, FloorDivision a b q r ∧
          (Expr.binary .floorDivide x y).eval scope = .ok (.integer q) ∧
          (Expr.binary .remainder x y).eval scope = .ok (.integer r) ∧
          Checked.floorDivide (.integer a) (.integer b) = pure (.integer q) ∧
          Checked.remainder (.integer a) (.integer b) = pure (.integer r)) := by
  refine ⟨exact_of_eq (eval_binary hx hy .add), exact_of_eq (eval_binary hx hy .subtract),
    exact_of_eq (eval_binary hx hy .multiply), exact_of_eq (eval_negate hx), rfl, ?_, ?_⟩
  · simp only [List.forall_mem_cons, eval_binary hx hy, Operator.apply]
    by_cases undivided : Checked.Undivided a b
    · obtain ⟨⟨e, quotient⟩, e', left⟩ := divisions_of_undivided undivided
      rw [quotient, left]
      exact ⟨iff_of_true ⟨_, rfl⟩ undivided, iff_of_true ⟨_, rfl⟩ undivided, by simp⟩
    · obtain ⟨q, r, -, quotient, left⟩ := exists_floorDivision undivided
      rw [quotient, left]
      exact ⟨iff_of_false (by simp [refuse]) undivided, iff_of_false (by simp [refuse]) undivided,
        by simp⟩
  · intro divided
    obtain ⟨q, r, division, quotient, left⟩ := exists_floorDivision divided
    rw [eval_binary hx hy, eval_binary hx hy, Operator.apply, Operator.apply, quotient, left,
      Checked.floorDivide_eq, Checked.remainder_eq, quotient, left]
    exact ⟨q, r, division, rfl, rfl, rfl, rfl⟩

/-- The least integer, divided by a negative number that leaves something. -/
theorem integer_arithmetic_least :
    let x := Expr.literal (.integer Int64.minValue)
    let y := Expr.literal (.integer (-3))
    let scope : Scope := fun _ => none
    x.eval scope = .ok (.integer Int64.minValue) ∧ y.eval scope = .ok (.integer (-3)) ∧
      Exact ((Expr.negate x).eval scope) 9223372036854775808 ∧
      ∃ q r : Int64, FloorDivision Int64.minValue (-3) q r ∧
        (Expr.binary .floorDivide x y).eval scope = .ok (.integer q) := by
  intro x y scope
  obtain ⟨-, -, -, negated, -, -, divided⟩ :=
    @integer_arithmetic scope x y Int64.minValue (-3) rfl rfl
  obtain ⟨q, r, division, quotient, -⟩ := divided (by decide)
  exact ⟨rfl, rfl, negated, q, r, division, quotient⟩

end Expr

end Stencil
