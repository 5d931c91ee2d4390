import Stencil.Number.Integer
import Stencil.Number.Shortest

/-!
# The text of a float

A float is written positionally, never with an exponent.  Integral floats below a bound show every
digit and a final `.0`; all others have their shortest digits.  The sign of a zero shows.  A
`FloatStyle` fixes what is left to choose.
-/

namespace Stencil.Number

/-- The choices in writing floats. -/
structure FloatStyle where
  /-- Integral floats below this bound are written with a final `.0`. -/
  pointedBelow : Nat
  /-- Of two equally near shortest decimals, whether the greater one is written. -/
  tieUp : Bool
  /-- What is written when there is no number. -/
  nan : String
  /-- What is written for positive infinity. -/
  infinity : String

/-- The digits of a decimal without zeros at their end, and the exponent that goes with them. -/
def Decimal.trimmed (d : Decimal) : List Char × Int :=
  let digits := natDigits d.digits
  let kept := (digits.reverse.dropWhile (· == '0')).reverse
  (kept, d.exponent + (digits.length - kept.length : Nat))

/-- The decimal in positional notation: zeros fill the places between its digits and the point. -/
def Decimal.positional (d : Decimal) : List Char :=
  let (digits, exponent) := d.trimmed
  let places := (-exponent).toNat
  if 0 ≤ exponent then digits ++ List.replicate exponent.toNat '0'
  else if places < digits.length then
    digits.take (digits.length - places) ++ '.' :: digits.drop (digits.length - places)
  else '0' :: '.' :: (List.replicate (places - digits.length) '0' ++ digits)

namespace FloatStyle

/-- The text of the absolute value of a finite float. -/
def magnitude (style : FloatStyle) (mantissa : Nat) (exponent : Int) : List Char :=
  match Binary.natural? mantissa exponent with
  | some n =>
    if n < style.pointedBelow then natDigits n ++ ['.', '0']
    else (shortest style.tieUp mantissa exponent).positional
  | none => (shortest style.tieUp mantissa exponent).positional

/-- A text with a minus sign when the number is negative. -/
def signed (negative : Bool) (text : List Char) : List Char :=
  if negative then '-' :: text else text

/-- The text of what a float denotes. -/
def binaryText (style : FloatStyle) : Binary → List Char
  | .nan => style.nan.toList
  | .infinite negative => signed negative style.infinity.toList
  | .finite negative mantissa exponent => signed negative (style.magnitude mantissa exponent)

/-- The text of a float. -/
def text (style : FloatStyle) (x : Float) : String :=
  String.ofList (style.binaryText (Binary.ofFloat x))

end FloatStyle

end Stencil.Number
