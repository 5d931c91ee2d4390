import Stencil.Expr.EvalError
import Stencil.Number.Binary
import Stencil.Text.Search

/-!
# Arithmetic

Two integers are combined exactly or refused.  Any other two numbers are combined as floats.  Plus
also joins two texts or two sequences, and times repeats a text or a sequence, up to
`maxRepetition` bytes or items.  Division always gives a float; floor division and remainder round
the quotient down, so a remainder has the sign of its divisor.
-/

namespace Stencil.Value

/-- The longest text, in bytes, and the longest sequence that repetition may build. -/
def maxRepetition : Nat := 1048576

/-- The integer with this value, or a refusal. -/
def exactInteger (n : Int) : Except OperandError Value :=
  match Number.narrow? n with
  | some k => .ok (.integer k)
  | none => .error .overflow

/-- Two numbers as floats. -/
def floats (op : Operator) (left right : Value) : Except OperandError (Float × Float) :=
  match left.float?, right.float? with
  | some a, some b => .ok (a, b)
  | _, _ => .error (.unsupported op left.kind right.kind)

/-- Two numbers as floats, the second of them not zero. -/
def dividends (op : Operator) (zero : OperandError) (left right : Value) :
    Except OperandError (Float × Float) := do
  let (a, b) ← floats op left right
  if b == 0 then throw zero else return (a, b)

/-- How many copies a repetition makes of something of the given length. -/
def copies (length : Nat) (count : Int64) : Except OperandError Nat :=
  let times := count.toInt.toNat
  if length * times ≤ maxRepetition then .ok times else .error .repetitionTooLarge

/-- A text repeated. -/
def repeatText (s : String) (count : Int64) : Except OperandError Value := do
  let times ← copies s.utf8ByteSize count
  return .text (String.ofList (Text.repeated s.toList times))

/-- A sequence repeated. -/
def repeatItems (items : List Value) (count : Int64) : Except OperandError Value := do
  let times ← copies items.length count
  return .sequence (Text.repeated items times)

/-- Unary minus. -/
def negate : Value → Except OperandError Value
  | .integer n => exactInteger (-n.toInt)
  | .float x => .ok (.float (-x))
  | v => .error (.notNegatable v.kind)

/-- The sum of two numbers, or two texts or sequences joined. -/
def add : Value → Value → Except OperandError Value
  | .integer a, .integer b => exactInteger (a.toInt + b.toInt)
  | .text s, .text t => .ok (.text (s ++ t))
  | .sequence xs, .sequence ys => .ok (.sequence (xs ++ ys))
  | v, w => do
    let (a, b) ← floats .add v w
    return .float (a + b)

/-- The difference of two numbers. -/
def subtract : Value → Value → Except OperandError Value
  | .integer a, .integer b => exactInteger (a.toInt - b.toInt)
  | v, w => do
    let (a, b) ← floats .subtract v w
    return .float (a - b)

/-- The product of two numbers, or a text or sequence repeated. -/
def multiply : Value → Value → Except OperandError Value
  | .integer a, .integer b => exactInteger (a.toInt * b.toInt)
  | .text s, .integer n | .integer n, .text s => repeatText s n
  | .sequence xs, .integer n | .integer n, .sequence xs => repeatItems xs n
  | v, w => do
    let (a, b) ← floats .multiply v w
    return .float (a * b)

/-- The quotient of two numbers, as a float. -/
def divide (v w : Value) : Except OperandError Value := do
  let (a, b) ← dividends .divide .divisionByZero v w
  return .float (a / b)

/-- The quotient of two numbers, rounded down. -/
def floorDivide : Value → Value → Except OperandError Value
  | _, .integer 0 => .error .divisionByZero
  | .integer a, .integer b => exactInteger (a.toInt.fdiv b.toInt)
  | v, w => do
    let (a, b) ← dividends .floorDivide .divisionByZero v w
    return .float (Number.floor (a / b))

/-- What the floor division of two numbers leaves; refused whenever the floor division is. -/
def remainder : Value → Value → Except OperandError Value
  | _, .integer 0 => .error .moduloByZero
  | .integer a, .integer b => do
    discard (exactInteger (a.toInt.fdiv b.toInt))
    exactInteger (a.toInt.fmod b.toInt)
  | v, w => do
    let (a, b) ← dividends .remainder .moduloByZero v w
    return .float (a - b * Number.floor (a / b))

end Stencil.Value
