import Stencil.Token

/-!
# Syntax errors

Why a text is not an expression, with the limits on the length and the nesting of expressions.
-/

namespace Stencil

namespace Expr

/-- The most tokens that an expression may have. -/
def maxTokens : Nat := 512

/-- The deepest nesting of brackets, `not` and unary minus. -/
def maxNesting : Nat := 64

end Expr

/-- Why a text is not an expression. -/
inductive SyntaxError where
  | token (e : TokenError)
  | tooLong
  | tooDeep
  | expected (s : Symbol) (found : Option Token)
  | expectedField (found : Option Token)
  | unexpected (t : Token)
  | unexpectedEnd
  | chainedComparison
  | integerTooLarge (digits : String)
  deriving DecidableEq, Repr

/-- The wording of a syntax error. -/
def SyntaxError.message : SyntaxError → String
  | .token e => e.message
  | .tooLong => s!"expression is longer than {Expr.maxTokens} tokens"
  | .tooDeep => s!"expression nests deeper than {Expr.maxNesting} levels"
  | .expected s (some t) => s!"expected '{s.spelling}' but found '{t.value}'"
  | .expected s none => s!"expected '{s.spelling}' but reached the end"
  | .expectedField (some t) => s!"expected a field name after '.' but found '{t.value}'"
  | .expectedField none => "expected a field name after '.'"
  | .unexpected t => s!"unexpected '{t.value}'"
  | .unexpectedEnd => "unexpected end of expression"
  | .chainedComparison => "chained comparisons are not supported"
  | .integerTooLarge digits => s!"integer '{digits}' is too large"

end Stencil
