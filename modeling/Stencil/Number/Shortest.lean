import Stencil.Number.Binary

/-!
# Shortest decimals

The shortest decimal of a positive float is the one with the fewest digits that reads back as that
float, and among those the nearest; a parameter says which of two equally near ones it is.

A decimal reads back when it lies in the interval of reals that round to the float: half way to the
neighbour on either side, with the ends included exactly when the mantissa is even.  For one digit,
two digits and so on the search looks at the two neighbours of the float on the grid of decimals
with that many digits; if any decimal of a grid reads back, one of these two does.  All comparisons
are made between natural numbers.
-/

namespace Stencil.Number

/-- The decimal number `digits * 10 ^ exponent`. -/
structure Decimal where
  digits : Nat
  exponent : Int
  deriving DecidableEq, Repr

namespace Shortest

/-- The numerator of `base ^ e`. -/
def above (base : Nat) (e : Int) : Nat := Nat.pow base e.toNat

/-- The denominator of `base ^ e`. -/
def below (base : Nat) (e : Int) : Nat := Nat.pow base (-e).toNat

/-- The decimal exponent of the leading digit of `mantissa * 2 ^ exponent`. -/
def leading (mantissa : Nat) (exponent : Int) : Int :=
  let num := mantissa * above 2 exponent
  let den := below 2 exponent
  if den ≤ num then ((Nat.toDigits 10 (num / den)).length : Int) - 1
  else -((Nat.toDigits 10 ((den + num - 1) / num - 1)).length : Int)

/-- The decimal of `count` digits that reads back as `mantissa * 2 ^ exponent` and is nearest to
it, if there is one; `tieUp` says that the greater of two equally near ones counts. -/
def candidate? (tieUp : Bool) (mantissa : Nat) (exponent : Int) (count : Nat) : Option Decimal :=
  let grid := leading mantissa exponent + 1 - count
  -- quarters of the float's last place and steps of the grid, over a common denominator
  let quarter := above 2 (exponent - 2) * below 10 grid
  let step := above 10 grid * below 2 (exponent - 2)
  let value := 4 * mantissa * quarter
  let gapBelow := if mantissa = Binary.leastNormal ∧ Binary.minExponent < exponent then 1 else 2
  let low := (4 * mantissa - gapBelow) * quarter
  let high := (4 * mantissa + 2) * quarter
  let readsBack (d : Nat) : Bool :=
    if mantissa % 2 = 0 then low ≤ d * step && d * step ≤ high
    else low < d * step && d * step < high
  let down := value / step
  let up := down + 1
  match readsBack down, readsBack up with
  | true, true =>
    let toDown := value - down * step
    let toUp := up * step - value
    if toDown < toUp ∨ (toDown = toUp ∧ !tieUp) then some ⟨down, grid⟩ else some ⟨up, grid⟩
  | true, false => some ⟨down, grid⟩
  | false, true => some ⟨up, grid⟩
  | false, false => none

/-- How many digits tell any two floats apart. -/
def maxDigits : Nat := 17

/-- The first hit among the grids of `count` digits and more, `left` of them. -/
def search (tieUp : Bool) (mantissa : Nat) (exponent : Int) : Nat → Nat → Decimal
  | 0, _ => ⟨mantissa, 0⟩
  | left + 1, count =>
    match candidate? tieUp mantissa exponent count with
    | some d => d
    | none => search tieUp mantissa exponent left (count + 1)

end Shortest

/-- The shortest decimal that reads back as the positive float `mantissa * 2 ^ exponent`. -/
def shortest (tieUp : Bool) (mantissa : Nat) (exponent : Int) : Decimal :=
  Shortest.search tieUp mantissa exponent Shortest.maxDigits 1

end Stencil.Number
