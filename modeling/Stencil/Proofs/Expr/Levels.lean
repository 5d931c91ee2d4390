import Stencil.Proofs.Expr.Cursor
import Stencil.Proofs.Expr.Grammar
import Mathlib.Data.List.TakeWhile
import Mathlib.Tactic.Common

/-!
# The parsers of the levels

`Parser.reader` gives the parser of each level of the grammar.  The lemmas here say that the tables
of operators and the reader of numbers agree with the grammar.
-/

namespace Stencil.Expr

/-- The operator of a level that a token spells. -/
def Level.operator? : Level → Token → Option (Expr → Expr → Expr)
  | .disjunction => Parser.orOperator?
  | .conjunction => Parser.andOperator?
  | .sum => Parser.sumOperator?
  | .product => Parser.productOperator?
  | _ => fun _ => none

/-- The parser of a level. -/
def Parser.reader (inner : Parser.Nested) : Level → Parser Expr
  | .disjunction => disjunction inner
  | .conjunction => conjunction inner
  | .negation => negated inner
  | .comparison => comparison inner
  | .sum => sum inner
  | .product => product inner
  | .signed => signed inner
  | .access => access inner
  | .primary => primary inner

/-! ### Operators -/

/-- The tables of operators list what joins operands. -/
lemma operator?_eq_some_iff {l : Level} {t : Token} {combine : Expr → Expr → Expr} :
    l.operator? t = some combine ↔ Joins l t combine := by
  constructor
  · intro h
    cases l <;> simp only [Level.operator?, reduceCtorEq] at h
    case disjunction =>
      unfold Parser.orOperator? at h
      split at h <;> cases h <;> constructor
    case conjunction =>
      unfold Parser.andOperator? at h
      split at h <;> cases h <;> constructor
    case sum =>
      unfold Parser.sumOperator? at h
      split at h <;> cases h <;> constructor
    case product =>
      unfold Parser.productOperator? at h
      split at h <;> cases h <;> constructor
  · rintro (_ | _) <;> rfl

/-- The comparison that comes next is the one that the next tokens spell. -/
lemma comparisonAt?_eq_some_iff {tokens : List Token} {op : Operator} :
    Parser.comparisonAt? tokens = some op ↔
      ∃ ops rest, tokens = ops ++ rest ∧ Compares ops op := by
  constructor
  · intro h
    unfold Parser.comparisonAt? at h
    split at h
    · next rest =>
      cases h
      exact ⟨[.word "not", .word "in"], rest, rfl, .notMember⟩
    · next t rest _ =>
      refine ⟨[t], rest, rfl, ?_⟩
      unfold Parser.comparisonOperator? at h
      split at h <;> cases h <;> constructor
    · cases h
  · rintro ⟨ops, rest, rfl, compares⟩
    cases compares <;> rfl

/-- Looking for a comparison takes nothing. -/
lemma Parser.eq_of_comparison?_eq_ok {c c' : Cursor} {op : Option Operator}
    (h : Parser.comparison? c = .ok (op, c')) : op = Parser.comparisonAt? c.rest ∧ c' = c := by
  unfold Parser.comparison? at h
  split at h
  · cases h
  · cases h
    exact ⟨rfl, rfl⟩

/-- When no fault follows the tokens, looking for a comparison succeeds. -/
lemma Parser.comparison?_eq_ok {c : Cursor} (h : c.fault = none) :
    Parser.comparison? c = .ok (Parser.comparisonAt? c.rest, c) := by
  unfold Parser.comparison?
  split
  · next found => simp [h] at found
  · rfl

/-- Going on after a comparison, which may take two tokens. -/
lemma Parser.skip_comparison_bind_eq_ok {β : Type} {f : Unit → Parser β} {b : β}
    {c c' : Cursor} {ops rest : List Token} {op : Operator} (compares : Compares ops op)
    (next : c.rest = ops ++ rest) :
    (discard advance >>= fun _ => if op = .notMember then discard advance >>= f else f ()) c =
        .ok (b, c') ↔
      ∃ mid, c.Takes ops mid ∧ f () mid = .ok (b, c') := by
  cases compares
  case notMember =>
    rw [discard_advance_bind_eq_ok (by rw [next]; rfl)]
    constructor
    · rintro ⟨mid, takesFirst, h⟩
      have after : mid.rest = .word "in" :: rest := by
        simpa [next, eq_comm] using takesFirst.rest
      have second : mid.rest.head? = some (.word "in") := by rw [after]; rfl
      obtain ⟨mid', takesSecond, h⟩ := (discard_advance_bind_eq_ok second).mp h
      exact ⟨mid', takesFirst.cons takesSecond, h⟩
    · rintro ⟨mid', takes, h⟩
      obtain ⟨mid, takesFirst, takesSecond⟩ := Cursor.Takes.cons_iff.mp takes
      have second : mid.rest.head? = some (.word "in") := by rw [takesSecond.rest]; rfl
      exact ⟨mid, takesFirst, (discard_advance_bind_eq_ok second).mpr ⟨mid', takesSecond, h⟩⟩
  all_goals
    rw [discard_advance_bind_eq_ok (by rw [next]; rfl)]
    rfl

/-! ### Numbers -/

/-- A number has a value exactly when it is in range, and the value is the one that it denotes. -/
lemma number?_eq_some_iff {digits : String} {v : Value} :
    number? digits.toList = some v ↔ InRange (.number digits) ∧ v = numberValue digits := by
  have point : '.' ∈ digits.toList ↔ digits.toList.dropWhile (· != '.') ≠ [] := by
    simp [List.dropWhile_eq_nil_iff]
  unfold number?
  split
  · next none =>
    have absent : '.' ∉ digits.toList := by rw [point, none]; simp
    rw [Number.narrow?]
    by_cases upper : (Number.ofDigits digits.toList : Int) ≤ Int64.maxValue.toInt
    · simp [InRange, numberValue, absent, upper, eq_comm]
    · simp [InRange, absent, upper]
  · next c places found =>
    have present : '.' ∈ digits.toList := by rw [point, found]; simp
    simp [InRange, numberValue, present, found, eq_comm]

end Stencil.Expr
