import Stencil.Expr.Cursor
import Stencil.Expr.Literal

/-!
# Reading expressions

From the weakest to the strongest, the levels of the grammar are `or`, `and`, `not`, one comparison,
sums, products, unary minus, access to fields and items, and the primary expressions.  Binary levels
associate to the left, except that comparisons do not chain.

Brackets, `not` and unary minus nest at most `maxNesting` deep: the parsers of one nesting level are
built from those of the next, and the innermost ones refuse.
-/

namespace Stencil.Expr

namespace Parser

/-! ### Operators -/

/-- The `or` of two expressions, if the token spells it. -/
def orOperator? : Token → Option (Expr → Expr → Expr)
  | .word "or" | .symbol .or => some .or
  | _ => none

/-- The `and` of two expressions, if the token spells it. -/
def andOperator? : Token → Option (Expr → Expr → Expr)
  | .word "and" | .symbol .and => some .and
  | _ => none

/-- The operator of a sum that the token spells. -/
def sumOperator? : Token → Option (Expr → Expr → Expr)
  | .symbol .plus => some (.binary .add)
  | .symbol .minus => some (.binary .subtract)
  | _ => none

/-- The operator of a product that the token spells. -/
def productOperator? : Token → Option (Expr → Expr → Expr)
  | .symbol .times => some (.binary .multiply)
  | .symbol .divide => some (.binary .divide)
  | .symbol .floorDivide => some (.binary .floorDivide)
  | .symbol .remainder => some (.binary .remainder)
  | _ => none

/-- The comparison that a single token spells. -/
def comparisonOperator? : Token → Option Operator
  | .symbol .equal => some .equal
  | .symbol .notEqual => some .notEqual
  | .symbol .less => some .less
  | .symbol .atMost => some .atMost
  | .symbol .greater => some .greater
  | .symbol .atLeast => some .atLeast
  | .word "in" => some .member
  | _ => none

/-- The comparison at the start of some tokens. -/
def comparisonAt? : List Token → Option Operator
  | .word "not" :: .word "in" :: _ => some .notMember
  | t :: _ => comparisonOperator? t
  | [] => none

/-- The comparison that comes next.  Telling `not in` from `not` takes a look at the token after
next, which has to be a token. -/
def comparison? : Parser (Option Operator) := fun c =>
  match c.rest, c.fault with
  | [.word "not"], some e => .error (.token e)
  | tokens, _ => .ok (comparisonAt? tokens, c)

/-- Whether the token spells `not`. -/
def isNot (t : Token) : Bool :=
  t == .word "not" || t == .symbol .not

/-- Goes on with operators of one level and their right operands, at most `fuel` of them. -/
def chainTail (operator? : Token → Option (Expr → Expr → Expr)) (operand : Parser Expr) :
    Nat → Expr → Parser Expr
  | 0, left => pure left
  | fuel + 1, left => do
    match (← peek).bind operator? with
    | none => return left
    | some combine =>
      discard advance
      let right ← operand
      chainTail operator? operand fuel (combine left right)

/-- Operands joined by the operators of one level, to the left. -/
def chain (operator? : Token → Option (Expr → Expr → Expr)) (operand : Parser Expr) :
    Parser Expr := do
  let left ← operand
  chainTail operator? operand (← remaining) left

/-! ### The levels of the grammar -/

/-- The parsers that a bracket, `not` or unary minus hands over to, one nesting level deeper. -/
structure Nested where
  whole : Parser Expr
  negated : Parser Expr
  signed : Parser Expr

/-- The items of a sequence up to its closing bracket, at most `fuel` of them. -/
def items (inner : Nested) : Nat → Parser (List Expr)
  | 0 => pure []
  | fuel + 1 => do
    if ← sees .closeBracket then
      return []
    let item ← inner.whole
    if ← eat .comma then
      return item :: (← items inner fuel)
    else
      return [item]

/-- The expression that a word stands for by itself. -/
def ofWord (w : String) : Parser Expr :=
  if w = "true" ∨ w = "True" then pure (.literal (.boolean true))
  else if w = "false" ∨ w = "False" then pure (.literal (.boolean false))
  else if w ∈ keywords then throw (.unexpected (.word w))
  else pure (.reference w)

/-- A literal, a name, an expression in parentheses or a sequence. -/
def primary (inner : Nested) : Parser Expr := do
  match ← advance with
  | none => throw .unexpectedEnd
  | some (.number digits) =>
    match number? digits.toList with
    | some v => return .literal v
    | none => throw (.integerTooLarge digits)
  | some (.quoted _ raw) => return .literal (.text (String.ofList (unescape raw.toList)))
  | some (.word w) => ofWord w
  | some (.symbol .openParen) =>
    let e ← inner.whole
    expect .closeParen
    return e
  | some (.symbol .openBracket) =>
    let es ← items inner ((← remaining) + 1)
    expect .closeBracket
    return .sequence es
  | some t => throw (.unexpected t)

/-- Goes on with field names and positions, at most `fuel` of them. -/
def accessTail (inner : Nested) : Nat → Expr → Parser Expr
  | 0, e => pure e
  | fuel + 1, e => do
    if ← eat .dot then
      match ← advance with
      | some (.word n) => accessTail inner fuel (.field e n)
      | found => throw (.expectedField found)
    else if ← eat .openBracket then
      let position ← inner.whole
      expect .closeBracket
      accessTail inner fuel (.index e position)
    else
      return e

/-- A primary expression with access to its fields and items. -/
def access (inner : Nested) : Parser Expr := do
  let e ← primary inner
  accessTail inner (← remaining) e

/-- An access, or unary minus before an operand. -/
def signed (inner : Nested) : Parser Expr := do
  if ← eat .minus then
    return .negate (← inner.signed)
  else
    access inner

/-- Signed operands joined by multiplication and the divisions. -/
def product (inner : Nested) : Parser Expr := chain productOperator? (signed inner)

/-- Products joined by plus and minus. -/
def sum (inner : Nested) : Parser Expr := chain sumOperator? (product inner)

/-- A sum, or one comparison of two sums. -/
def comparison (inner : Nested) : Parser Expr := do
  let left ← sum inner
  match ← comparison? with
  | none => return left
  | some op =>
    discard advance
    if op = .notMember then
      discard advance
    let right ← sum inner
    match ← comparison? with
    | some _ => throw .chainedComparison
    | none => return .binary op left right

/-- A comparison, or `not` before an operand. -/
def negated (inner : Nested) : Parser Expr := do
  if (← peek).any isNot then
    discard advance
    return .not (← inner.negated)
  else
    comparison inner

/-- Negated operands joined by `and`. -/
def conjunction (inner : Nested) : Parser Expr := chain andOperator? (negated inner)

/-- Conjunctions joined by `or`. -/
def disjunction (inner : Nested) : Parser Expr := chain orOperator? (conjunction inner)

/-- The parsers with a number of nesting levels left, their own included. -/
def nested : Nat → Nested
  | 0 => ⟨throw .tooDeep, throw .tooDeep, throw .tooDeep⟩
  | levels + 1 =>
    let inner := nested levels
    ⟨disjunction inner, negated inner, signed inner⟩

end Parser

/-- The expression that tokens spell. -/
def ofTokens (tokens : List Token) (fault : Option TokenError) : Except SyntaxError Expr :=
  match tokens, fault with
  | [], some e => .error (.token e)
  | _, _ => do
    let (e, cursor) ← (Parser.nested (maxNesting + 1)).whole ⟨tokens, 0, fault⟩
    match cursor.rest with
    | [] => return e
    | t :: _ => throw (.unexpected t)

/-- The expression that a text spells. -/
def parse (src : String) : Except SyntaxError Expr :=
  let tokens := Tokens.ofText src.toList
  ofTokens (tokens.items.map Prod.fst) tokens.fault

end Stencil.Expr
