import Stencil.Expr.Parser

/-!
# The grammar of expressions

`Derives l n ts e` says that the tokens `ts` spell the expression `e` at the level `l` of the
grammar, and that no point of them is enclosed in more than `n` parentheses, square brackets (of a
position or of an item), operands of `not` and operands of unary minus.

The levels are ordered from the weakest to the strongest.  The operators of the levels
`disjunction`, `conjunction`, `sum` and `product` associate to the left, and a comparison has a sum
on either side, so comparisons do not chain.  `Reading` puts the grammar together with the tokens of
a text and the limits on them.
-/

namespace Stencil.Expr

/-- The levels of the grammar, from the weakest to the strongest. -/
inductive Level where
  | disjunction
  | conjunction
  | negation
  | comparison
  | sum
  | product
  | signed
  | access
  | primary
  deriving DecidableEq, Repr

/-- The next stronger level; no level is stronger than the primary expressions. -/
def Level.operand : Level → Level
  | .disjunction => .conjunction
  | .conjunction => .negation
  | .negation => .comparison
  | .comparison => .sum
  | .sum => .product
  | .product => .signed
  | .signed => .access
  | .access | .primary => .primary

/-- The tokens that join two operands of a level, and the expressions that they make of them. -/
inductive Joins : Level → Token → (Expr → Expr → Expr) → Prop where
  | orWord : Joins .disjunction (.word "or") .or
  | orSymbol : Joins .disjunction (.symbol .or) .or
  | andWord : Joins .conjunction (.word "and") .and
  | andSymbol : Joins .conjunction (.symbol .and) .and
  | plus : Joins .sum (.symbol .plus) (.binary .add)
  | minus : Joins .sum (.symbol .minus) (.binary .subtract)
  | times : Joins .product (.symbol .times) (.binary .multiply)
  | divide : Joins .product (.symbol .divide) (.binary .divide)
  | floorDivide : Joins .product (.symbol .floorDivide) (.binary .floorDivide)
  | remainder : Joins .product (.symbol .remainder) (.binary .remainder)

/-- How the comparisons are spelled; `not in` takes two tokens. -/
inductive Compares : List Token → Operator → Prop where
  | equal : Compares [.symbol .equal] .equal
  | notEqual : Compares [.symbol .notEqual] .notEqual
  | less : Compares [.symbol .less] .less
  | atMost : Compares [.symbol .atMost] .atMost
  | greater : Compares [.symbol .greater] .greater
  | atLeast : Compares [.symbol .atLeast] .atLeast
  | member : Compares [.word "in"] .member
  | notMember : Compares [.word "not", .word "in"] .notMember

/-- Whether a token is no integer outside the range of 64-bit integers. -/
def InRange : Token → Prop
  | .number digits =>
    '.' ∉ digits.toList → (Number.ofDigits digits.toList : Int) ≤ Int64.maxValue.toInt
  | _ => True

/-- The value of a number: the float that its decimal digits denote when it has a point, and the
integer that they denote when it has none and fits. -/
def numberValue (digits : String) : Value :=
  let whole := digits.toList.takeWhile (· != '.')
  let places := (digits.toList.dropWhile (· != '.')).drop 1
  if '.' ∈ digits.toList then
    .float (Float.ofScientific (Number.ofDigits (whole ++ places)) true places.length)
  else .integer (Int64.ofInt (Number.ofDigits digits.toList))

/-- The tokens spell the expression at a level of the grammar, and no point of them is enclosed in
more than so many brackets, operands of `not` and operands of unary minus. -/
inductive Derives : Level → Nat → List Token → Expr → Prop where
  /-- An operand of a level stands for itself. -/
  | lift {l : Level} {n : Nat} {ts : List Token} {e : Expr} (weaker : l ≠ .primary)
      (operand : Derives l.operand n ts e) : Derives l n ts e
  /-- Operators of one level associate to the left. -/
  | join {l : Level} {n : Nat} {ts us : List Token} {t : Token} {combine : Expr → Expr → Expr}
      {a b : Expr} (joins : Joins l t combine) (left : Derives l n ts a)
      (right : Derives l.operand n us b) : Derives l n (ts ++ t :: us) (combine a b)
  | not {n : Nat} {ts : List Token} {t : Token} {e : Expr}
      (spelling : t = .word "not" ∨ t = .symbol .not) (operand : Derives .negation n ts e) :
      Derives .negation (n + 1) (t :: ts) (.not e)
  | compare {n : Nat} {ts ops us : List Token} {op : Operator} {a b : Expr}
      (compares : Compares ops op) (left : Derives .sum n ts a) (right : Derives .sum n us b) :
      Derives .comparison n (ts ++ (ops ++ us)) (.binary op a b)
  | negate {n : Nat} {ts : List Token} {e : Expr} (operand : Derives .signed n ts e) :
      Derives .signed (n + 1) (.symbol .minus :: ts) (.negate e)
  /-- Any word may name a field. -/
  | field {n : Nat} {ts : List Token} {e : Expr} (target : Derives .access n ts e)
      (name : String) :
      Derives .access n (ts ++ [.symbol .dot, .word name]) (.field e name)
  | index {n : Nat} {ts us : List Token} {e position : Expr}
      (target : Derives .access (n + 1) ts e) (inside : Derives .disjunction n us position) :
      Derives .access (n + 1) (ts ++ .symbol .openBracket :: (us ++ [.symbol .closeBracket]))
        (.index e position)
  | number {n : Nat} (digits : String) :
      Derives .primary n [.number digits] (.literal (numberValue digits))
  | quoted {n : Nat} (mark : Quote) (raw : String) :
      Derives .primary n [.quoted mark raw]
        (.literal (.text (String.ofList (unescape raw.toList))))
  | trueWord {n : Nat} {w : String} (spelling : w = "true" ∨ w = "True") :
      Derives .primary n [.word w] (.literal (.boolean true))
  | falseWord {n : Nat} {w : String} (spelling : w = "false" ∨ w = "False") :
      Derives .primary n [.word w] (.literal (.boolean false))
  | name {n : Nat} {w : String} (free : w ∉ keywords) :
      Derives .primary n [.word w] (.reference w)
  | parentheses {n : Nat} {ts : List Token} {e : Expr} (inside : Derives .disjunction n ts e) :
      Derives .primary (n + 1) (.symbol .openParen :: (ts ++ [.symbol .closeParen])) e
  | emptySequence {n : Nat} :
      Derives .primary n [.symbol .openBracket, .symbol .closeBracket] (.sequence [])
  /-- A comma may follow the last item. -/
  | sequence {n : Nat} {parts : List (List Token × Expr)} {ending : List Token}
      (nonempty : parts ≠ []) (inside : ∀ p ∈ parts, Derives .disjunction n p.1 p.2)
      (trailing : ending = [] ∨ ending = [.symbol .comma]) :
      Derives .primary (n + 1)
        (.symbol .openBracket ::
          ([.symbol .comma].intercalate (parts.map Prod.fst) ++
            (ending ++ [.symbol .closeBracket])))
        (.sequence (parts.map Prod.snd))

/-- The text is cut into at most 512 tokens, its integers are in range, and its tokens spell the
expression with at most 64 enclosures around any point. -/
structure Reading (src : String) (e : Expr) : Prop where
  /-- The text is cut into tokens up to its end. -/
  complete : (Tokens.ofText src.toList).fault = none
  short : (Tokens.ofText src.toList).items.length ≤ 512
  inRange : ∀ t ∈ (Tokens.ofText src.toList).items.map Prod.fst, InRange t
  derives : Derives .disjunction 64 ((Tokens.ofText src.toList).items.map Prod.fst) e

end Stencil.Expr
