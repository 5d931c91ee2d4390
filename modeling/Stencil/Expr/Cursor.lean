import Stencil.Expr.SyntaxError

/-!
# Taking tokens

A parser takes tokens from the front of a list.  `Parser.advance` counts them and refuses to take
more than `maxTokens`.  When the last token is taken and the text goes on with something that is no
token, that is reported at once.
-/

namespace Stencil.Expr

/-- The tokens that remain, how many were taken, and what follows the last token. -/
structure Cursor where
  rest : List Token
  taken : Nat
  fault : Option TokenError

/-- A reader of some of the remaining tokens. -/
abbrev Parser := StateT Cursor (Except SyntaxError)

namespace Parser

/-- The next token, which stays. -/
def peek : Parser (Option Token) := fun c => .ok (c.rest.head?, c)

/-- How many tokens remain. -/
def remaining : Parser Nat := fun c => .ok (c.rest.length, c)

/-- Takes the next token, if there is one. -/
def advance : Parser (Option Token) := fun c =>
  match c.rest with
  | [] => .ok (none, c)
  | t :: rest =>
    if c.taken = maxTokens then .error .tooLong
    else
      match rest, c.fault with
      | [], some e => .error (.token e)
      | _, _ => .ok (some t, { c with rest, taken := c.taken + 1 })

/-- Whether the next token is this symbol. -/
def sees (s : Symbol) : Parser Bool := do
  return (← peek) = some (.symbol s)

/-- Takes the next token if it is this symbol. -/
def eat (s : Symbol) : Parser Bool := do
  if ← sees s then
    discard advance
    return true
  else
    return false

/-- Takes this symbol or fails. -/
def expect (s : Symbol) : Parser Unit := do
  if ← eat s then
    return ()
  else
    throw (.expected s (← peek))

end Parser

end Stencil.Expr
