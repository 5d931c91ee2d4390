/-!
# Exact 64-bit integers

Integer arithmetic is exact or refused: an operation computes over the unbounded integers and keeps
the result only when it lies in the signed 64-bit range (`narrow?_eq_some_iff`).
-/

namespace Stencil.Number

/-- The 64-bit integer with exactly this value, if there is one. -/
def narrow? (n : Int) : Option Int64 :=
  if Int64.minValue.toInt ≤ n ∧ n ≤ Int64.maxValue.toInt then some (Int64.ofInt n) else none

/-- The decimal digits of a natural number, without leading zeros. -/
def natDigits (n : Nat) : List Char :=
  Nat.toDigits 10 n

/-- The text of an integer: its digits, after a minus sign when it is negative. -/
def integerText (n : Int64) : String :=
  let digits := natDigits n.toInt.natAbs
  String.ofList (if n.toInt < 0 then '-' :: digits else digits)

/-- The number that decimal digits denote. -/
def ofDigits (digits : List Char) : Nat :=
  digits.foldl (fun total d => 10 * total + (d.toNat - '0'.toNat)) 0

theorem narrow?_eq_some_iff {n : Int} {k : Int64} : narrow? n = some k ↔ k.toInt = n := by
  have lower : Int64.minValue.toInt = -2 ^ 63 := by decide
  have upper : Int64.maxValue.toInt = 2 ^ 63 - 1 := by decide
  simp only [narrow?, lower, upper]
  constructor
  · intro h
    split at h
    · next range =>
      obtain rfl := Option.some.inj h
      exact Int64.toInt_ofInt_of_le (by omega) (by omega)
    · simp at h
  · rintro rfl
    have low := k.le_toInt
    have high := k.toInt_lt
    rw [if_pos (by omega), Int64.ofInt_toInt]

end Stencil.Number
