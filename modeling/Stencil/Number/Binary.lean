/-!
# The numbers that floats denote

A finite float is a sign, a natural mantissa and a power of two.  `Binary.ofFloat` reads these from
the bits, and everything about floats that has to be exact (their text, their floor) is computed
from them.
-/

namespace Stencil.Number

/-- What a float denotes: no number, an infinity, or `mantissa * 2 ^ exponent` with a sign. -/
inductive Binary where
  | nan
  | infinite (negative : Bool)
  | finite (negative : Bool) (mantissa : Nat) (exponent : Int)
  deriving DecidableEq, Repr

namespace Binary

/-- The exponent of the smallest positive float. -/
def minExponent : Int := -1074

/-- The mantissa of the powers of two, where floats get denser below than above. -/
def leastNormal : Nat := Nat.pow 2 52

/-- The number that a float denotes. -/
def ofFloat (x : Float) : Binary :=
  let bits := x.toBits.toNat
  let negative := bits / Nat.pow 2 63 == 1
  let field : Nat := bits / Nat.pow 2 52 % Nat.pow 2 11
  let fraction : Nat := bits % Nat.pow 2 52
  if field = 2047 then
    if fraction = 0 then .infinite negative else .nan
  else if field = 0 then .finite negative fraction minExponent
  else .finite negative (leastNormal + fraction) (minExponent + (field - 1))

/-- The natural number `mantissa * 2 ^ exponent`, if it is one. -/
def natural? (mantissa : Nat) (exponent : Int) : Option Nat :=
  if 0 ≤ exponent then some (mantissa * Nat.pow 2 exponent.toNat)
  else
    let unit := Nat.pow 2 (-exponent).toNat
    if mantissa % unit = 0 then some (mantissa / unit) else none

end Binary

/-- The greatest integral float that is not above `x`; zeros, infinities and NaN are their own. -/
def floor (x : Float) : Float :=
  match Binary.ofFloat x with
  | .finite negative mantissa exponent =>
    match Binary.natural? mantissa exponent with
    | some _ => x
    | none =>
      let whole := mantissa / Nat.pow 2 (-exponent).toNat
      if negative then -Float.ofNat (whole + 1) else Float.ofNat whole
  | _ => x

/-- The order of two floats; NaN has none. -/
def compare? (a b : Float) : Option Ordering :=
  if a < b then some .lt
  else if b < a then some .gt
  else if a == b then some .eq
  else none

end Stencil.Number
