import Stencil.Proofs.Expr.Soundness

/-!
# What the grammar derives is parsed

When the tokens that come next spell an expression and the tokens after them do not go on with it,
the parser of the level takes exactly these tokens and gives the expression
(`reader_eq_ok_of_resumes`, `resumes_of_derives`).  With the soundness of the parsers this says
which texts are expressions (`parse_eq_ok_iff_reading`).

The induction is on the derivation.  For the levels whose operators associate to the left, the
parser does not stop after a derived expression but goes on after it, so what is shown by induction
is how it goes on (`Resumes`).
-/

namespace Stencil.Expr

/-! ### Where expressions end -/

/-- The place of a level in the order from the weakest to the strongest. -/
def Level.rank : Level → Nat
  | .disjunction => 0
  | .conjunction => 1
  | .negation => 2
  | .comparison => 3
  | .sum => 4
  | .product => 5
  | .signed => 6
  | .access => 7
  | .primary => 8

/-- Whether the next tokens go on with an expression of the level. -/
def Level.goesOn : Level → List Token → Bool
  | .comparison, tokens => (Parser.comparisonAt? tokens).isSome
  | .access, tokens =>
    tokens.head? = some (.symbol .dot) || tokens.head? = some (.symbol .openBracket)
  | l, tokens => (tokens.head?.bind l.operator?).isSome

/-- The next tokens do not go on with an expression of the level or of a stronger one. -/
def Stops (l : Level) (tokens : List Token) : Prop :=
  ∀ m : Level, l.rank ≤ m.rank → m.goesOn tokens = false

/-- What stands at a stronger level stands for itself at the weaker ones. -/
lemma derives_of_rank_le {l m : Level} {n : Nat} {ts : List Token} {e : Expr}
    (weaker : l.rank ≤ m.rank) (d : Derives m n ts e) : Derives l n ts e := by
  by_cases same : l = m
  · exact same ▸ d
  · have notPrimary : l ≠ .primary := by
      rintro rfl
      cases m <;> first | exact same rfl | exact absurd weaker (by decide)
    have next : l.operand.rank = l.rank + 1 := by
      cases l <;> first | rfl | exact absurd rfl notPrimary
    have below : l.rank ≠ m.rank := fun h => same (by cases l <;> cases m <;> first | rfl | cases h)
    exact .lift notPrimary (derives_of_rank_le (by omega) d)
termination_by m.rank - l.rank

/-- What stops a level stops its operands. -/
lemma Stops.operand {l : Level} {tokens : List Token} (h : Stops l tokens) :
    Stops l.operand tokens := by
  intro m hm
  refine h m (le_trans ?_ hm)
  cases l <;> decide

/-- Nothing goes on with a primary expression. -/
lemma stops_primary (tokens : List Token) : Stops .primary tokens := by
  intro m hm
  cases m
  case primary => cases tokens <;> rfl
  all_goals exact absurd hm (by decide)

/-- An operator of a level ends its operands. -/
lemma stops_of_joins {l : Level} {t : Token} {combine : Expr → Expr → Expr}
    (joins : Joins l t combine) (tokens : List Token) : Stops l.operand (t :: tokens) := by
  intro m hm
  cases joins <;> cases m <;> first | rfl | exact absurd hm (by decide)

/-- A comparison ends a sum. -/
lemma stops_of_compares {ops : List Token} {op : Operator} (compares : Compares ops op)
    (tokens : List Token) : Stops .sum (ops ++ tokens) := by
  intro m hm
  cases compares <;> cases m <;> first | rfl | exact absurd hm (by decide)

/-- A closing mark or a comma ends every expression, and so does the end of the text. -/
lemma stops_of_closing {tokens : List Token} (l : Level)
    (h : tokens.head? = none ∨ tokens.head? = some (.symbol .closeParen) ∨
      tokens.head? = some (.symbol .closeBracket) ∨ tokens.head? = some (.symbol .comma)) :
    Stops l tokens := by
  intro m _
  rcases tokens with _ | ⟨t, tokens⟩
  · cases m <;> rfl
  · simp only [List.head?_cons, Option.some.injEq, reduceCtorEq, false_or] at h
    rcases h with rfl | rfl | rfl <;> cases m <;> rfl

/-! ### How expressions start -/

/-- The first token of an expression shows whether it starts with `not` or with a sign. -/
lemma exists_head_of_derives {l : Level} {n : Nat} {ts : List Token} {e : Expr}
    (d : Derives l n ts e) :
    ∃ t us, ts = t :: us ∧ t ≠ .symbol .closeBracket ∧
      (Level.comparison.rank ≤ l.rank → Parser.isNot t = false) ∧
      (Level.access.rank ≤ l.rank → t ≠ .symbol .minus) := by
  induction d with
  | @lift l n ts e weaker _ ih =>
    obtain ⟨t, us, rfl, notClosing, notNot, notMinus⟩ := ih
    refine ⟨t, us, rfl, notClosing, fun h => notNot (le_trans h ?_),
      fun h => notMinus (le_trans h ?_)⟩
    all_goals cases l <;> decide
  | @join l n ts us t combine a b joins _ _ ih _ =>
    obtain ⟨t, vs, rfl, notClosing, notNot, notMinus⟩ := ih
    exact ⟨t, _, List.cons_append, notClosing, notNot, notMinus⟩
  | @not n ts t e spelling _ _ =>
    refine ⟨t, ts, rfl, ?_, fun h => absurd h (by decide), fun h => absurd h (by decide)⟩
    rcases spelling with rfl | rfl <;> decide
  | compare _ _ _ ih _ =>
    obtain ⟨t, vs, rfl, notClosing, notNot, notMinus⟩ := ih
    exact ⟨t, _, List.cons_append, notClosing, fun _ => notNot (by decide),
      fun h => absurd h (by decide)⟩
  | negate _ _ =>
    exact ⟨_, _, rfl, by decide, fun _ => by decide, fun h => absurd h (by decide)⟩
  | field _ _ ih | index _ _ ih _ =>
    obtain ⟨t, vs, rfl, notClosing, notNot, notMinus⟩ := ih
    exact ⟨t, _, List.cons_append, notClosing, notNot, notMinus⟩
  | number digits | quoted mark raw =>
    exact ⟨_, _, rfl, by simp, fun _ => rfl, fun _ => by simp⟩
  | trueWord spelling | falseWord spelling =>
    refine ⟨_, _, rfl, by simp, fun _ => ?_, fun _ => by simp⟩
    rcases spelling with rfl | rfl <;> decide
  | @name n w free =>
    refine ⟨_, _, rfl, by simp, fun _ => ?_, fun _ => by simp⟩
    have : w ≠ "not" := fun same => free (by rw [same]; decide)
    simpa [Parser.isNot] using this
  | parentheses _ _ | emptySequence | sequence _ _ _ _ =>
    exact ⟨_, _, rfl, by decide, fun _ => by decide, fun _ => by decide⟩

/-! ### Going on after an expression -/

/-- How the parser of a level that started at `c` goes on when it has read `e` and is at `c'`. -/
def Resumes (inner : Parser.Nested) (l : Level) (e : Expr) (c c' : Cursor) : Prop :=
  match l with
  | .disjunction | .conjunction | .sum | .product =>
    Stops l.operand c'.rest → ∃ fuel, c'.rest.length ≤ fuel ∧
      Parser.reader inner l c =
        Parser.chainTail l.operator? (Parser.reader inner l.operand) fuel e c'
  | .access =>
    ∃ fuel, c'.rest.length ≤ fuel ∧
      Parser.reader inner .access c = Parser.accessTail inner fuel e c'
  | l => Stops l c'.rest → Parser.reader inner l c = .ok (e, c')

/-- Where the tokens come next and nothing after them goes on with the level, the parser takes them
and gives the expression. -/
def Finds (p : Parser Expr) (l : Level) (ts : List Token) (e : Expr) : Prop :=
  ∀ ⦃c c' : Cursor⦄, c.fault = none → c.Takes ts c' → Stops l c'.rest → p c = .ok (e, c')

namespace Parser

variable {inner : Nested} {c c' mid : Cursor} {e a b : Expr}

/-- Where no operator of the level comes next, a chain ends. -/
lemma chainTail_eq_ok {l : Level} {operand : Parser Expr} (fuel : Nat)
    (h : (c.rest.head?.bind l.operator?).isSome = false) :
    chainTail l.operator? operand fuel e c = .ok (e, c) := by
  have noMore : c.rest.head?.bind l.operator? = none := by simpa using h
  cases fuel with
  | zero => rfl
  | succ fuel =>
    have peeked : peek c = .ok (c.rest.head?, c) := rfl
    rw [chainTail, bind_of_eq_ok _ peeked]
    simp only [noMore]
    rfl

/-- A chain goes on with an operator and its right operand. -/
lemma chainTail_succ {l : Level} {t : Token} {combine : Expr → Expr → Expr}
    {operand : Parser Expr} (joins : Joins l t combine) (takes : c.Takes [t] mid)
    (read : operand mid = .ok (b, c')) (fuel : Nat) :
    chainTail l.operator? operand (fuel + 1) a c =
      chainTail l.operator? operand fuel (combine a b) c' := by
  have next : c.rest.head? = some t := by rw [takes.rest]; rfl
  have peeked : peek c = .ok (c.rest.head?, c) := rfl
  have advanced : (discard advance) c = .ok ((), mid) := by
    have := (discard_advance_bind_eq_ok (f := pure) next).mpr ⟨mid, takes, rfl⟩
    simpa using this
  rw [chainTail, bind_of_eq_ok _ peeked]
  simp only [next, Option.bind_some, operator?_eq_some_iff.mpr joins]
  rw [bind_of_eq_ok _ advanced, bind_of_eq_ok _ read]

/-- Where neither a field name nor a position comes next, an access ends. -/
lemma accessTail_eq_ok (fuel : Nat) (h : Level.access.goesOn c.rest = false) :
    accessTail inner fuel e c = .ok (e, c) := by
  have noDot : eat .dot c = .ok (false, c) :=
    eat_eq_ok.mpr (.inr ⟨rfl, by simp_all [Level.goesOn], rfl⟩)
  have noBracket : eat .openBracket c = .ok (false, c) :=
    eat_eq_ok.mpr (.inr ⟨rfl, by simp_all [Level.goesOn], rfl⟩)
  cases fuel with
  | zero => rfl
  | succ fuel =>
    rw [accessTail, bind_of_eq_ok _ noDot, if_neg Bool.false_ne_true, bind_of_eq_ok _ noBracket]
    rfl

/-- Where nothing goes on with a level, its parser is done. -/
lemma reader_eq_ok_of_resumes {l : Level} (resumes : Resumes inner l e c c')
    (stops : Stops l c'.rest) : reader inner l c = .ok (e, c') := by
  have done := stops l le_rfl
  cases l
  case access =>
    obtain ⟨fuel, -, goesOn⟩ := resumes
    rw [goesOn, accessTail_eq_ok fuel done]
  case disjunction | conjunction | sum | product =>
    obtain ⟨fuel, -, goesOn⟩ := resumes stops.operand
    rw [goesOn]
    exact chainTail_eq_ok fuel done
  all_goals exact resumes stops

/-- A parser that goes on as its level does finds what the tokens spell. -/
lemma finds_of_resumes {l : Level} {ts : List Token}
    (h : ∀ {c c' : Cursor}, c.fault = none → c.Takes ts c' → Resumes inner l e c c') :
    Finds (reader inner l) l ts e :=
  fun _ _ sound takes => reader_eq_ok_of_resumes (h sound takes)

/-! ### One rule of the grammar at a time -/

/-- A cursor starts with the first token that is taken from it. -/
lemma head?_rest_of_takes {t : Token} {us : List Token} (h : c.Takes (t :: us) c') :
    c.rest.head? = some t := by
  rw [h.rest]
  rfl

/-- A symbol that comes next is taken. -/
lemma eat_of_takes {s : Symbol} (h : c.Takes [.symbol s] c') : eat s c = .ok (true, c') :=
  eat_eq_ok.mpr (.inl ⟨rfl, h⟩)

/-- A symbol that does not come next is not taken. -/
lemma eat_of_ne {s : Symbol} (h : c.rest.head? ≠ some (.symbol s)) : eat s c = .ok (false, c) :=
  eat_eq_ok.mpr (.inr ⟨rfl, h, rfl⟩)

/-- An operand stands for itself at the next weaker level. -/
lemma resumes_lift {l : Level} {n : Nat} {ts : List Token} (weaker : l ≠ .primary)
    (operand : Derives l.operand n ts e) (sound : c.fault = none) (takes : c.Takes ts c')
    (ih : Resumes inner l.operand e c c') : Resumes inner l e c c' := by
  obtain ⟨t, us, rfl, -, notNot, notMinus⟩ := exists_head_of_derives operand
  have next := head?_rest_of_takes takes
  cases l
  case disjunction | conjunction | sum | product =>
    intro stops
    have read := reader_eq_ok_of_resumes ih stops
    exact ⟨c'.rest.length, le_rfl, bind_of_eq_ok _ read⟩
  case negation =>
    intro stops
    have peeked : peek c = .ok (some t, c) := peek_eq_ok.mpr ⟨next.symm, rfl⟩
    have read := reader_eq_ok_of_resumes ih stops.operand
    have positive : (some t).any isNot = false := notNot le_rfl
    change negated inner c = _
    rw [negated, bind_of_eq_ok _ peeked, if_neg (by simp [positive])]
    exact read
  case comparison =>
    intro stops
    have read : sum inner c = .ok (e, c') := reader_eq_ok_of_resumes ih stops.operand
    have looked := comparison?_eq_ok (takes.fault.trans sound)
    have noMore : comparisonAt? c'.rest = none := by
      simpa [Level.goesOn] using stops .comparison le_rfl
    rw [noMore] at looked
    change comparison inner c = _
    rw [comparison, bind_of_eq_ok _ read, bind_of_eq_ok _ looked]
    rfl
  case signed =>
    intro stops
    have read := reader_eq_ok_of_resumes ih stops.operand
    have unsigned : eat .minus c = .ok (false, c) :=
      eat_of_ne (by rw [next]; simpa using notMinus le_rfl)
    change signed inner c = _
    rw [signed, bind_of_eq_ok _ unsigned, if_neg Bool.false_ne_true]
    exact read
  case access =>
    have read := reader_eq_ok_of_resumes ih (stops_primary _)
    exact ⟨c'.rest.length, le_rfl, bind_of_eq_ok _ read⟩
  case primary => exact absurd rfl weaker

/-- An operator and its right operand go on to the left of what was read. -/
lemma resumes_join {l : Level} {t : Token} {combine : Expr → Expr → Expr}
    (joins : Joins l t combine) (left : Resumes inner l a c mid) {us : List Token}
    (takes : mid.Takes (t :: us) c')
    (right : ∀ {mid'}, mid.Takes [t] mid' → mid'.Takes us c' →
      Resumes inner l.operand b mid' c') :
    Resumes inner l (combine a b) c c' := by
  obtain ⟨mid', takesOperator, takesRight⟩ := Cursor.Takes.cons_iff.mp takes
  have stopsLeft : Stops l.operand mid.rest := by
    rw [takes.rest]
    exact stops_of_joins joins _
  have chained : Stops l.operand c'.rest → ∃ fuel, c'.rest.length ≤ fuel ∧
      reader inner l c =
        chainTail l.operator? (reader inner l.operand) fuel (combine a b) c' := by
    intro stops
    have readRight := reader_eq_ok_of_resumes (right takesOperator takesRight) stops
    have resumes : ∃ fuel, mid.rest.length ≤ fuel ∧
        reader inner l c = chainTail l.operator? (reader inner l.operand) fuel a mid := by
      cases joins <;> exact left stopsLeft
    obtain ⟨fuel, enough, goesOn⟩ := resumes
    have shorter := takesRight.length_le
    rw [takesOperator.rest] at enough
    obtain _ | fuel := fuel
    · simp at enough
    · refine ⟨fuel, ?_, ?_⟩
      · simp only [List.cons_append, List.nil_append, List.length_cons] at enough
        omega
      · rw [goesOn, chainTail_succ joins takesOperator readRight]
  cases joins <;> exact chained

/-- A comparison takes its operator between two sums. -/
lemma comparison_eq_ok {ts ops us : List Token} {op : Operator} (compares : Compares ops op)
    (left : Finds (sum inner) .sum ts a) (right : Finds (sum inner) .sum us b)
    (sound : c.fault = none) (takes : c.Takes (ts ++ (ops ++ us)) c')
    (stops : Stops .comparison c'.rest) : comparison inner c = .ok (.binary op a b, c') := by
  obtain ⟨mid, takesLeft, takesRest⟩ := Cursor.Takes.append_iff.mp takes
  obtain ⟨mid', takesOperator, takesRight⟩ := Cursor.Takes.append_iff.mp takesRest
  have soundMid : mid.fault = none := takesLeft.fault.trans sound
  have soundMid' : mid'.fault = none := takesOperator.fault.trans soundMid
  have next : mid.rest = ops ++ mid'.rest := takesOperator.rest
  have readLeft := left sound takesLeft (by rw [next]; exact stops_of_compares compares _)
  have readRight := right soundMid' takesRight stops.operand
  have looked := comparison?_eq_ok soundMid
  rw [comparisonAt?_eq_some_iff.mpr ⟨ops, _, next, compares⟩] at looked
  have noMore : comparisonAt? c'.rest = none := by
    simpa [Level.goesOn] using stops .comparison le_rfl
  have looked' := comparison?_eq_ok (takesRight.fault.trans soundMid')
  rw [noMore] at looked'
  rw [comparison, bind_of_eq_ok _ readLeft, bind_of_eq_ok _ looked]
  refine (skip_comparison_bind_eq_ok compares next).mpr ⟨mid', takesOperator, ?_⟩
  exact bind_eq_ok.mpr ⟨b, c', readRight, bind_eq_ok.mpr ⟨none, c', looked', rfl⟩⟩

/-- An access goes on with a field name. -/
lemma accessTail_field {name : String} (takes : c.Takes [.symbol .dot, .word name] c')
    (fuel : Nat) : accessTail inner (fuel + 1) e c = accessTail inner fuel (.field e name) c' := by
  obtain ⟨mid, takesDot, takesName⟩ := Cursor.Takes.cons_iff.mp takes
  rw [accessTail, bind_of_eq_ok _ (eat_of_takes takesDot), if_pos rfl,
    bind_of_eq_ok _ (advance_eq_ok_some.mpr takesName)]

/-- An access goes on with a position in brackets. -/
lemma accessTail_index {mid' : Cursor} (opening : c.Takes [.symbol .openBracket] mid)
    (inside : inner.whole mid = .ok (a, mid')) (closing : mid'.Takes [.symbol .closeBracket] c')
    (fuel : Nat) : accessTail inner (fuel + 1) e c = accessTail inner fuel (.index e a) c' := by
  have noDot : eat .dot c = .ok (false, c) := eat_of_ne (by rw [opening.rest]; simp)
  rw [accessTail, bind_of_eq_ok _ noDot, if_neg Bool.false_ne_true,
    bind_of_eq_ok _ (eat_of_takes opening), if_pos rfl, bind_of_eq_ok _ inside,
    bind_of_eq_ok _ (expect_eq_ok.mpr closing)]

/-- An access that is longer by at least one token goes on after it. -/
lemma resumes_access (target : Resumes inner .access a c mid)
    (shorter : c'.rest.length + 1 ≤ mid.rest.length)
    (step : ∀ fuel, accessTail inner (fuel + 1) a mid = accessTail inner fuel e c') :
    Resumes inner .access e c c' := by
  obtain ⟨fuel, enough, goesOn⟩ := target
  obtain _ | fuel := fuel
  · omega
  · exact ⟨fuel, by omega, by rw [goesOn, step]⟩

/-- An access goes on after the name of a field. -/
lemma resumes_field {name : String} (target : Resumes inner .access e c mid)
    (takes : mid.Takes [.symbol .dot, .word name] c') :
    Resumes inner .access (.field e name) c c' := by
  refine resumes_access target ?_ (accessTail_field takes)
  rw [takes.rest]
  simp

/-- An access goes on after a position in brackets. -/
lemma resumes_index {us : List Token} (target : Resumes inner .access e c mid)
    (inside : Finds inner.whole .disjunction us a) (sound : mid.fault = none)
    (takes : mid.Takes (.symbol .openBracket :: (us ++ [.symbol .closeBracket])) c') :
    Resumes inner .access (.index e a) c c' := by
  obtain ⟨mid₁, takesOpening, takesRest⟩ := Cursor.Takes.cons_iff.mp takes
  obtain ⟨mid₂, takesInside, takesClosing⟩ := Cursor.Takes.append_iff.mp takesRest
  have read := inside (takesOpening.fault.trans sound) takesInside
    (stops_of_closing _ (by simp [head?_rest_of_takes takesClosing]))
  refine resumes_access target ?_ (accessTail_index takesOpening read takesClosing)
  rw [takes.rest, List.cons_append, List.length_cons, List.length_append]
  omega

/-- What stands in parentheses is read up to the closing one. -/
lemma parentheses_eq_ok {ts : List Token} (inside : Finds inner.whole .disjunction ts e)
    (sound : c.fault = none)
    (takes : c.Takes (.symbol .openParen :: (ts ++ [.symbol .closeParen])) c') :
    primary inner c = .ok (e, c') := by
  obtain ⟨mid, takesOpening, takesRest⟩ := Cursor.Takes.cons_iff.mp takes
  obtain ⟨mid', takesInside, takesClosing⟩ := Cursor.Takes.append_iff.mp takesRest
  have read := inside (takesOpening.fault.trans sound) takesInside
    (stops_of_closing _ (by simp [head?_rest_of_takes takesClosing]))
  rw [primary, bind_of_eq_ok _ (advance_eq_ok_some.mpr takesOpening)]
  change (inner.whole >>= _) mid = _
  rw [bind_of_eq_ok _ read]
  exact bind_of_eq_ok _ (expect_eq_ok.mpr takesClosing)

/-- After `not` its operand is read. -/
lemma negated_eq_ok {t : Token} {ts : List Token} (spelling : t = .word "not" ∨ t = .symbol .not)
    (operand : Finds inner.negated .negation ts e) (sound : c.fault = none)
    (takes : c.Takes (t :: ts) c') (stops : Stops .negation c'.rest) :
    negated inner c = .ok (.not e, c') := by
  obtain ⟨mid, takesNot, takesOperand⟩ := Cursor.Takes.cons_iff.mp takes
  have next := head?_rest_of_takes takesNot
  have peeked : peek c = .ok (some t, c) := peek_eq_ok.mpr ⟨next.symm, rfl⟩
  have negative : (some t).any isNot = true := by rcases spelling with rfl | rfl <;> decide
  have read := operand (takesNot.fault.trans sound) takesOperand stops
  rw [negated, bind_of_eq_ok _ peeked, if_pos negative]
  exact (discard_advance_bind_eq_ok next).mpr
    ⟨mid, takesNot, bind_eq_ok.mpr ⟨e, c', read, rfl⟩⟩

/-- After a minus its operand is read. -/
lemma signed_eq_ok {ts : List Token} (operand : Finds inner.signed .signed ts e)
    (sound : c.fault = none) (takes : c.Takes (.symbol .minus :: ts) c')
    (stops : Stops .signed c'.rest) : signed inner c = .ok (.negate e, c') := by
  obtain ⟨mid, takesMinus, takesOperand⟩ := Cursor.Takes.cons_iff.mp takes
  have read := operand (takesMinus.fault.trans sound) takesOperand stops
  rw [signed, bind_of_eq_ok _ (eat_of_takes takesMinus), if_pos rfl, bind_of_eq_ok _ read]
  rfl

/-! ### Literals and names -/

/-- An integer within the range stands for its value. -/
lemma primary_number {digits : String} (inRange : InRange (.number digits))
    (takes : c.Takes [.number digits] c') :
    primary inner c = .ok (.literal (numberValue digits), c') := by
  have value := number?_eq_some_iff.mpr ⟨inRange, rfl⟩
  refine (bind_of_eq_ok _ (advance_eq_ok_some.mpr takes)).trans ?_
  simp only [value]
  rfl

/-- A word that comes next is read as what it stands for by itself. -/
lemma primary_word {w : String} (takes : c.Takes [.word w] c') :
    primary inner c = ofWord w c' :=
  bind_of_eq_ok _ (advance_eq_ok_some.mpr takes)

lemma ofWord_true {w : String} (spelling : w = "true" ∨ w = "True") :
    ofWord w c = .ok (.literal (.boolean true), c) := by
  rw [ofWord, if_pos spelling]
  rfl

lemma ofWord_false {w : String} (spelling : w = "false" ∨ w = "False") :
    ofWord w c = .ok (.literal (.boolean false), c) := by
  rcases spelling with rfl | rfl <;> rfl

/-- A word that is no keyword is a name. -/
lemma ofWord_name {w : String} (free : w ∉ keywords) : ofWord w c = .ok (.reference w, c) := by
  have notTrue : ¬ (w = "true" ∨ w = "True") := fun h =>
    free (by rcases h with rfl | rfl <;> decide)
  have notFalse : ¬ (w = "false" ∨ w = "False") := fun h =>
    free (by rcases h with rfl | rfl <;> decide)
  rw [ofWord, if_neg notTrue, if_neg notFalse, if_neg free]
  rfl

/-! ### Sequences -/

/-- There are at most as many items as tokens between brackets, and one more. -/
lemma length_le_length_intercalate {α : Type} (sep : α) (ls : List (List α)) :
    ls.length ≤ ([sep].intercalate ls).length + 1 := by
  induction ls with
  | nil => simp
  | cons l ls ih =>
    by_cases none : ls = []
    · simp [none]
    · rw [List.intercalate_cons_of_ne_nil none]
      simp only [List.length_append, List.length_cons, List.length_nil]
      omega

/-- What an item holds stands between the brackets. -/
lemma mem_intercalate_of_mem {α : Type} {sep l : List α} {ls : List (List α)} {x : α}
    (hl : l ∈ ls) (hx : x ∈ l) : x ∈ sep.intercalate ls := by
  induction ls with
  | nil => simp at hl
  | cons l' ls ih =>
    rcases List.mem_cons.mp hl with rfl | hl
    · by_cases none : ls = []
      · simpa [none] using hx
      · rw [List.intercalate_cons_of_ne_nil none]
        simp [hx]
    · rw [List.intercalate_cons_of_ne_nil (List.ne_nil_of_mem hl)]
      simp [ih hl]

/-- An item of a sequence is the last one without a comma after it, or a comma and the items that
are left follow. -/
lemma takes_item_cases {p : List Token × Expr} {parts : List (List Token × Expr)}
    {ending : List Token} (trailing : ending = [] ∨ ending = [.symbol .comma])
    (takes : c.Takes ([.symbol .comma].intercalate ((p :: parts).map Prod.fst) ++ ending) c') :
    (parts = [] ∧ c.Takes p.1 c') ∨
      ∃ ending', (ending' = [] ∨ parts ≠ [] ∧ ending' = [.symbol .comma]) ∧
        c.Takes (p.1 ++ .symbol .comma :: ([.symbol .comma].intercalate (parts.map Prod.fst) ++
          ending')) c' := by
  by_cases last : parts = []
  · subst last
    rcases trailing with rfl | rfl
    · exact .inl ⟨rfl, by simpa using takes⟩
    · exact .inr ⟨[], .inl rfl, by simpa using takes⟩
  · refine .inr ⟨ending, trailing.imp_right fun h => ⟨last, h⟩, ?_⟩
    rw [List.map_cons, List.intercalate_cons_of_ne_nil (by simpa using last)] at takes
    simpa using takes

/-- The items of a sequence are read up to its closing bracket. -/
lemma items_eq_ok {parts : List (List Token × Expr)} {ending : List Token} {fuel : Nat}
    (enough : parts.length ≤ fuel)
    (starts : ∀ p ∈ parts, ∃ t us, p.1 = t :: us ∧ t ≠ .symbol .closeBracket)
    (reads : ∀ p ∈ parts, Finds inner.whole .disjunction p.1 p.2)
    (trailing : ending = [] ∨ parts ≠ [] ∧ ending = [.symbol .comma])
    (sound : c.fault = none)
    (takes : c.Takes ([.symbol .comma].intercalate (parts.map Prod.fst) ++ ending) c')
    (closing : c'.rest.head? = some (.symbol .closeBracket)) :
    items inner fuel c = .ok (parts.map Prod.snd, c') := by
  induction parts generalizing c fuel ending with
  | nil =>
    obtain rfl : ending = [] := by simpa using trailing
    obtain rfl : c' = c := Cursor.Takes.eq_of_nil (by simpa using takes)
    cases fuel with
    | zero => rfl
    | succ fuel =>
      have seen : sees .closeBracket c' = .ok (true, c') := by
        change Except.ok (decide (c'.rest.head? = _), c') = _
        rw [decide_eq_true closing]
      rw [items, bind_of_eq_ok _ seen]
      rfl
  | cons p parts ih =>
    obtain _ | fuel := fuel
    · simp at enough
    obtain ⟨t, us, start, notClosing⟩ := starts p List.mem_cons_self
    have readFirst := reads p List.mem_cons_self
    have seen : c.rest.head? = some t → sees .closeBracket c = .ok (false, c) := by
      intro next
      change Except.ok (decide (c.rest.head? = _), c) = _
      rw [decide_eq_false (by simpa [next] using notClosing)]
    rcases takes_item_cases (trailing.imp_right And.right) takes with
      ⟨rfl, takesItem⟩ | ⟨ending', trailing', takesAll⟩
    · have next := head?_rest_of_takes (start ▸ takesItem)
      have item := readFirst sound takesItem (stops_of_closing _ (by simp [closing]))
      have noComma : eat .comma c' = .ok (false, c') := eat_of_ne (by simp [closing])
      rw [items, bind_of_eq_ok _ (seen next), if_neg Bool.false_ne_true, bind_of_eq_ok _ item,
        bind_of_eq_ok _ noComma]
      rfl
    · obtain ⟨mid, takesItem, takesMore⟩ := Cursor.Takes.append_iff.mp takesAll
      obtain ⟨mid', takesComma, takesRest⟩ := Cursor.Takes.cons_iff.mp takesMore
      have next := head?_rest_of_takes (start ▸ takesItem)
      have item := readFirst sound takesItem
        (stops_of_closing _ (by simp [head?_rest_of_takes takesComma]))
      have soundRest : mid'.fault = none :=
        takesComma.fault.trans (takesItem.fault.trans sound)
      have others := ih (Nat.le_of_succ_le_succ enough)
        (fun q hq => starts q (List.mem_cons_of_mem _ hq))
        (fun q hq => reads q (List.mem_cons_of_mem _ hq)) trailing' soundRest takesRest
      rw [items, bind_of_eq_ok _ (seen next), if_neg Bool.false_ne_true, bind_of_eq_ok _ item,
        bind_of_eq_ok _ (eat_of_takes takesComma), if_pos rfl, bind_of_eq_ok _ others]
      rfl

/-- A sequence is read from its opening to its closing bracket. -/
lemma sequence_eq_ok {parts : List (List Token × Expr)} {ending : List Token}
    (starts : ∀ p ∈ parts, ∃ t us, p.1 = t :: us ∧ t ≠ .symbol .closeBracket)
    (reads : ∀ p ∈ parts, Finds inner.whole .disjunction p.1 p.2)
    (trailing : ending = [] ∨ parts ≠ [] ∧ ending = [.symbol .comma])
    (sound : c.fault = none)
    (takes : c.Takes (.symbol .openBracket ::
      ([.symbol .comma].intercalate (parts.map Prod.fst) ++
        (ending ++ [.symbol .closeBracket]))) c') :
    primary inner c = .ok (.sequence (parts.map Prod.snd), c') := by
  obtain ⟨mid, takesOpening, takesRest⟩ := Cursor.Takes.cons_iff.mp takes
  rw [← List.append_assoc] at takesRest
  obtain ⟨mid', takesItems, takesClosing⟩ := Cursor.Takes.append_iff.mp takesRest
  have counted : remaining mid = .ok (mid.rest.length, mid) := rfl
  have enough : parts.length ≤ mid.rest.length + 1 := by
    have count := length_le_length_intercalate (Token.symbol .comma) (parts.map Prod.fst)
    have := takesItems.rest
    rw [List.length_map] at count
    rw [takesItems.rest, List.length_append, List.length_append]
    omega
  have read := items_eq_ok enough starts reads trailing (takesOpening.fault.trans sound) takesItems
    (head?_rest_of_takes takesClosing)
  rw [primary, bind_of_eq_ok _ (advance_eq_ok_some.mpr takesOpening)]
  change (remaining >>= _) mid = _
  rw [bind_of_eq_ok _ counted, bind_of_eq_ok _ read,
    bind_of_eq_ok _ (expect_eq_ok.mpr takesClosing)]
  rfl

/-! ### All rules -/

/-- After tokens that the grammar derives, the parser of their level goes on as the level does. -/
lemma resumes_of_derives {l : Level} {n : Nat} {ts : List Token} (derives : Derives l n ts e)
    (range : ∀ t ∈ ts, InRange t) (sound : c.fault = none) (takes : c.Takes ts c') :
    Resumes (nested n) l e c c' := by
  induction derives generalizing c c' with
  | lift weaker operand ih =>
    exact resumes_lift weaker operand sound takes (ih range sound takes)
  | join joins _ _ ihLeft ihRight =>
    obtain ⟨mid, takesLeft, takesRest⟩ := Cursor.Takes.append_iff.mp takes
    obtain ⟨rangeLeft, rangeRest⟩ := List.forall_mem_append.mp range
    have soundMid := takesLeft.fault.trans sound
    exact resumes_join joins (ihLeft rangeLeft sound takesLeft) takesRest
      fun takesOperator takesRight =>
        ihRight (List.forall_mem_cons.mp rangeRest).2 (takesOperator.fault.trans soundMid)
          takesRight
  | @not n ts t e spelling _ ih =>
    have operand : Finds (nested (n + 1)).negated .negation ts e :=
      finds_of_resumes (ih (List.forall_mem_cons.mp range).2)
    exact negated_eq_ok spelling operand sound takes
  | compare compares _ _ ihLeft ihRight =>
    obtain ⟨rangeLeft, rangeRest⟩ := List.forall_mem_append.mp range
    obtain ⟨-, rangeRight⟩ := List.forall_mem_append.mp rangeRest
    exact comparison_eq_ok compares (finds_of_resumes (ihLeft rangeLeft))
      (finds_of_resumes (ihRight rangeRight)) sound takes
  | @negate n ts e _ ih =>
    have operand : Finds (nested (n + 1)).signed .signed ts e :=
      finds_of_resumes (ih (List.forall_mem_cons.mp range).2)
    exact signed_eq_ok operand sound takes
  | field _ name ih =>
    obtain ⟨mid, takesTarget, takesField⟩ := Cursor.Takes.append_iff.mp takes
    have rangeTarget := (List.forall_mem_append.mp range).1
    exact resumes_field (ih rangeTarget sound takesTarget) takesField
  | @index n ts us e position _ _ ihTarget ihInside =>
    obtain ⟨mid, takesTarget, takesIndex⟩ := Cursor.Takes.append_iff.mp takes
    obtain ⟨rangeTarget, rangeRest⟩ := List.forall_mem_append.mp range
    have rangeInside := (List.forall_mem_append.mp (List.forall_mem_cons.mp rangeRest).2).1
    have inside : Finds (nested (n + 1)).whole .disjunction us position :=
      finds_of_resumes (ihInside rangeInside)
    exact resumes_index (ihTarget rangeTarget sound takesTarget) inside
      (takesTarget.fault.trans sound) takesIndex
  | number digits => exact fun _ => primary_number (range _ List.mem_cons_self) takes
  | quoted mark raw => exact fun _ => bind_of_eq_ok _ (advance_eq_ok_some.mpr takes)
  | trueWord spelling => exact fun _ => (primary_word takes).trans (ofWord_true spelling)
  | falseWord spelling => exact fun _ => (primary_word takes).trans (ofWord_false spelling)
  | name free => exact fun _ => (primary_word takes).trans (ofWord_name free)
  | @parentheses n ts e _ ih =>
    have rangeInside := (List.forall_mem_append.mp (List.forall_mem_cons.mp range).2).1
    have inside : Finds (nested (n + 1)).whole .disjunction ts e :=
      finds_of_resumes (ih rangeInside)
    exact fun _ => parentheses_eq_ok inside sound takes
  | @emptySequence n =>
    exact fun _ => @sequence_eq_ok (nested n) c c' [] [] (by simp) (by simp) (.inl rfl) sound
      (by simpa using takes)
  | @sequence n parts ending nonempty inside trailing ih =>
    have starts : ∀ p ∈ parts, ∃ t us, p.1 = t :: us ∧ t ≠ .symbol .closeBracket := by
      intro p hp
      obtain ⟨t, us, start, notClosing, -⟩ := exists_head_of_derives (inside p hp)
      exact ⟨t, us, start, notClosing⟩
    have reads : ∀ p ∈ parts, Finds (nested (n + 1)).whole .disjunction p.1 p.2 := by
      intro p hp
      have rangeItem : ∀ t ∈ p.1, InRange t := fun t ht =>
        range t (List.mem_cons_of_mem _ (List.mem_append_left _
          (mem_intercalate_of_mem (List.mem_map_of_mem hp) ht)))
      exact finds_of_resumes (ih p hp rangeItem)
    exact fun _ => sequence_eq_ok starts reads (trailing.imp_right fun h => ⟨nonempty, h⟩) sound
      takes

end Parser

/-! ### Whole texts -/

/-- Tokens within the limits that the grammar derives spell the expression. -/
lemma ofTokens_eq_ok_of_derives {tokens : List Token} {e : Expr}
    (short : tokens.length ≤ maxTokens) (range : ∀ t ∈ tokens, InRange t)
    (derives : Derives .disjunction maxNesting tokens e) : ofTokens tokens none = .ok e := by
  have takes : (⟨tokens, 0, none⟩ : Cursor).Takes tokens ⟨[], tokens.length, none⟩ := by
    refine ⟨by simp, by simp, rfl, ?_, fun _ _ => rfl⟩
    intro k hk
    change 0 + k ≠ maxTokens
    omega
  have read : (Parser.nested (maxNesting + 1)).whole ⟨tokens, 0, none⟩ =
      .ok (e, ⟨[], tokens.length, none⟩) :=
    Parser.reader_eq_ok_of_resumes (Parser.resumes_of_derives derives range rfl takes)
      (stops_of_closing _ (.inl rfl))
  unfold ofTokens
  split
  · next found => cases found
  · rw [read]
    rfl

/-- A text is an expression exactly when its tokens keep the limits and the grammar derives them,
and then it is only one expression. -/
theorem parse_eq_ok_iff_reading (src : String) :
    (∀ e : Expr, parse src = .ok e ↔ Reading src e) ∧
      ∀ e e' : Expr, Reading src e → Reading src e' → e = e' := by
  have correct : ∀ e : Expr, parse src = .ok e ↔ Reading src e := by
    intro e
    constructor
    · intro h
      obtain ⟨complete, short, inRange, derives⟩ := derives_of_ofTokens_eq_ok h
      rw [List.length_map] at short
      exact ⟨complete, short, inRange, derives⟩
    · rintro ⟨complete, short, inRange, derives⟩
      have read := ofTokens_eq_ok_of_derives (by rwa [List.length_map]) inRange derives
      rw [← complete] at read
      exact read
  refine ⟨correct, fun e e' he he' => ?_⟩
  have same := ((correct e).mpr he).symm.trans ((correct e').mpr he')
  exact Except.ok.inj same

end Stencil.Expr
