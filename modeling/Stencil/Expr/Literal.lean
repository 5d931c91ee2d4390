import Stencil.Expr
import Stencil.Number.Integer

/-!
# Literals

The values that quoted strings and numbers stand for, and the words that are not names.
-/

namespace Stencil.Expr

/-- The text that a quoted string stands for. -/
def unescape : List Char → List Char
  | [] => []
  | '\\' :: 'n' :: rest => '\n' :: unescape rest
  | '\\' :: 't' :: rest => '\t' :: unescape rest
  | '\\' :: c :: rest => c :: unescape rest
  | c :: rest => c :: unescape rest

/-- The value of a number: a float when it has a point, else an integer in range. -/
def number? (digits : List Char) : Option Value :=
  match digits.dropWhile (· != '.') with
  | [] => (Number.narrow? (Number.ofDigits digits)).map .integer
  | _ :: places =>
    let whole := digits.takeWhile (· != '.')
    some (.float (Float.ofScientific (Number.ofDigits (whole ++ places)) true places.length))

/-- The words with a meaning of their own. -/
def keywords : List String := ["and", "or", "not", "in", "true", "false", "True", "False"]

end Stencil.Expr
