import Stencil.Proofs.Expr.Levels

/-!
# Parsers take what the grammar derives

Whenever the parser of a level succeeds, the tokens that it took spell its result at that level, and
the integers among them are in range (`reads_reader`).  The levels are shown from the strongest to
the weakest, for parsers of the enclosed expressions that are already known to be right, and the
nesting is an induction on the number of enclosures that are left.
-/

namespace Stencil.Expr

/-- What the parser takes spells its result at the level, with so many enclosures at most. -/
def Reads (p : Parser Expr) (l : Level) (n : Nat) : Prop :=
  ∀ ⦃c c' : Cursor⦄ ⦃e : Expr⦄, p c = .ok (e, c') →
    ∃ ts, c.Takes ts c' ∧ Derives l n ts e ∧ ∀ t ∈ ts, InRange t

/-- What the parser takes spells its result at the level, with one enclosure less than `n`. -/
def ReadsInside (p : Parser Expr) (l : Level) (n : Nat) : Prop :=
  ∀ ⦃c c' : Cursor⦄ ⦃e : Expr⦄, p c = .ok (e, c') →
    ∃ m ts, n = m + 1 ∧ c.Takes ts c' ∧ Derives l m ts e ∧ ∀ t ∈ ts, InRange t

/-- The parsers of enclosed expressions read what is enclosed at most `n` times. -/
structure ReadsEnclosed (inner : Parser.Nested) (n : Nat) : Prop where
  whole : ReadsInside inner.whole .disjunction n
  negated : ReadsInside inner.negated .negation n
  signed : ReadsInside inner.signed .signed n

@[simp] lemma inRange_symbol (s : Symbol) : InRange (.symbol s) := trivial

@[simp] lemma inRange_word (w : String) : InRange (.word w) := trivial

@[simp] lemma inRange_quoted (mark : Quote) (raw : String) : InRange (.quoted mark raw) := trivial

namespace Parser

/-! ### Chains of operators -/

/-- A level with operators goes on to the left of what was read. -/
lemma reads_chainTail {l : Level} {n : Nat} {operand : Parser Expr}
    (reads : Reads operand l.operand n) {fuel : Nat} {left e : Expr} {c c' : Cursor}
    {us : List Token} (before : Derives l n us left) (range : ∀ t ∈ us, InRange t)
    (h : chainTail l.operator? operand fuel left c = .ok (e, c')) :
    ∃ ts, c.Takes ts c' ∧ Derives l n (us ++ ts) e ∧ ∀ t ∈ us ++ ts, InRange t := by
  induction fuel generalizing left c us with
  | zero =>
    obtain ⟨rfl, rfl⟩ := pure_eq_ok.mp h
    exact ⟨[], .nil c', by simpa using before, by simpa using range⟩
  | succ fuel ih =>
    obtain ⟨next, mid, peeked, h⟩ := bind_eq_ok.mp h
    obtain ⟨rfl, rfl⟩ := peek_eq_ok.mp peeked
    cases spelled : mid.rest.head?.bind l.operator? with
    | none =>
      simp only [spelled] at h
      obtain ⟨rfl, rfl⟩ := pure_eq_ok.mp h
      exact ⟨[], .nil _, by simpa using before, by simpa using range⟩
    | some combine =>
      simp only [spelled] at h
      obtain ⟨t, next, spells⟩ := Option.bind_eq_some_iff.mp spelled
      obtain ⟨mid, takesOperator, h⟩ := (discard_advance_bind_eq_ok next).mp h
      obtain ⟨right, mid', readRight, h⟩ := bind_eq_ok.mp h
      obtain ⟨vs, takesRight, derivesRight, rangeRight⟩ := reads readRight
      have joins := operator?_eq_some_iff.mp spells
      have joined := Derives.join joins before derivesRight
      have rangeOperator : InRange t := by cases joins <;> trivial
      obtain ⟨ws, takes, derives, rangeAll⟩ :=
        ih joined (by simpa [or_imp, forall_and] using ⟨range, rangeOperator, rangeRight⟩) h
      refine ⟨t :: (vs ++ ws), takesOperator.cons (takesRight.trans takes), ?_, ?_⟩
      · simpa using derives
      · simpa using rangeAll

/-- A level with operators reads what its operands and operators derive. -/
lemma reads_chain {l : Level} {n : Nat} {operand : Parser Expr} (weaker : l ≠ .primary)
    (reads : Reads operand l.operand n) : Reads (chain l.operator? operand) l n := by
  intro c c' e h
  obtain ⟨left, mid, readLeft, h⟩ := bind_eq_ok.mp h
  obtain ⟨us, takesLeft, derivesLeft, rangeLeft⟩ := reads readLeft
  obtain ⟨fuel, mid', counted, h⟩ := bind_eq_ok.mp h
  obtain ⟨rfl, rfl⟩ := remaining_eq_ok.mp counted
  obtain ⟨ts, takes, derives, range⟩ :=
    reads_chainTail reads (.lift weaker derivesLeft) rangeLeft h
  exact ⟨us ++ ts, takesLeft.trans takes, derives, range⟩

/-! ### Primary expressions -/

/-- A word by itself is a truth value or a name. -/
lemma derives_ofWord {w : String} {n : Nat} {e : Expr} {c c' : Cursor}
    (h : ofWord w c = .ok (e, c')) : Derives .primary n [.word w] e ∧ c' = c := by
  unfold ofWord at h
  split at h
  · next spelling =>
    obtain ⟨rfl, rfl⟩ := pure_eq_ok.mp h
    exact ⟨.trueWord spelling, rfl⟩
  · split at h
    · next spelling =>
      obtain ⟨rfl, rfl⟩ := pure_eq_ok.mp h
      exact ⟨.falseWord spelling, rfl⟩
    · split at h
      · exact absurd h throw_ne_ok
      · next free =>
        obtain ⟨rfl, rfl⟩ := pure_eq_ok.mp h
        exact ⟨.name free, rfl⟩

/-- The items of a sequence are spelled with commas between them, and one may follow the last. -/
lemma reads_items {inner : Nested} {n : Nat} (reads : ReadsEnclosed inner n) {fuel : Nat}
    {es : List Expr} {c c' : Cursor} (h : items inner fuel c = .ok (es, c')) :
    ∃ (parts : List (List Token × Expr)) (ending : List Token),
      es = parts.map Prod.snd ∧
      c.Takes ([.symbol .comma].intercalate (parts.map Prod.fst) ++ ending) c' ∧
      (∀ p ∈ parts, ∃ m, n = m + 1 ∧ Derives .disjunction m p.1 p.2) ∧
      (ending = [] ∨ parts ≠ [] ∧ ending = [.symbol .comma]) ∧
      ∀ t ∈ [Token.symbol .comma].intercalate (parts.map Prod.fst) ++ ending, InRange t := by
  induction fuel generalizing es c with
  | zero =>
    obtain ⟨rfl, rfl⟩ := pure_eq_ok.mp h
    exact ⟨[], [], rfl, .nil c', by simp, .inl rfl, by simp⟩
  | succ fuel ih =>
    have seen : sees .closeBracket c =
        .ok (decide (c.rest.head? = some (.symbol .closeBracket)), c) :=
      rfl
    rw [items, bind_of_eq_ok _ seen] at h
    split at h
    · obtain ⟨rfl, rfl⟩ := pure_eq_ok.mp h
      exact ⟨[], [], rfl, .nil c', by simp, .inl rfl, by simp⟩
    · obtain ⟨item, mid, readItem, afterItem⟩ := bind_eq_ok.mp h
      obtain ⟨m, ts, rfl, takesItem, derivesItem, rangeItem⟩ := reads.whole readItem
      obtain ⟨more, mid', eaten, afterComma⟩ := bind_eq_ok.mp afterItem
      rcases eat_eq_ok.mp eaten with ⟨rfl, takesComma⟩ | ⟨rfl, -, rfl⟩
      · obtain ⟨others, mid'', readOthers, result⟩ := bind_eq_ok.mp afterComma
        obtain ⟨rfl, rfl⟩ := pure_eq_ok.mp result
        obtain ⟨parts, ending, rfl, takes, derives, trailing, range⟩ := ih readOthers
        have first := takesItem.trans (takesComma.trans takes)
        cases parts with
        | nil =>
          obtain rfl : ending = [] := by simpa using trailing
          refine ⟨[(ts, item)], [.symbol .comma], rfl, by simpa using first, ?_, .inr (by simp), ?_⟩
          · simpa using derivesItem
          · simpa [or_imp, forall_and] using rangeItem
        | cons p parts =>
          have ne : (p :: parts).map Prod.fst ≠ [] := by simp
          refine ⟨(ts, item) :: p :: parts, ending, rfl, ?_, ?_, ?_, ?_⟩
          · rw [List.map_cons, List.intercalate_cons_of_ne_nil ne]
            simpa using first
          · intro q hq
            rcases List.mem_cons.mp hq with rfl | hq
            · exact ⟨m, rfl, derivesItem⟩
            · exact derives q hq
          · simpa using trailing
          · rw [List.map_cons, List.intercalate_cons_of_ne_nil ne]
            intro t ht
            simp only [List.append_assoc, List.mem_append, List.mem_singleton] at ht
            rcases ht with ht | rfl | ht
            · exact rangeItem t ht
            · trivial
            · exact range t (List.mem_append.mpr ht)
      · rw [if_neg Bool.false_ne_true] at afterComma
        obtain ⟨rfl, rfl⟩ := pure_eq_ok.mp afterComma
        refine ⟨[(ts, item)], [], rfl, by simpa using takesItem, ?_, .inl rfl, ?_⟩
        · simpa using derivesItem
        · simpa using rangeItem

/-- Items between square brackets make a sequence, also when there are none. -/
lemma derives_sequence {n : Nat} {parts : List (List Token × Expr)} {ending : List Token}
    (inside : ∀ p ∈ parts, ∃ m, n = m + 1 ∧ Derives .disjunction m p.1 p.2)
    (trailing : ending = [] ∨ parts ≠ [] ∧ ending = [.symbol .comma]) :
    Derives .primary n
      (.symbol .openBracket ::
        ([.symbol .comma].intercalate (parts.map Prod.fst) ++ (ending ++ [.symbol .closeBracket])))
      (.sequence (parts.map Prod.snd)) := by
  by_cases none : parts = []
  · obtain rfl : ending = [] := by simpa [none] using trailing
    subst none
    exact .emptySequence
  · obtain ⟨p, hp⟩ := List.exists_mem_of_ne_nil parts none
    obtain ⟨m, rfl, -⟩ := inside p hp
    refine .sequence none (fun q hq => ?_) (trailing.imp_right And.right)
    obtain ⟨m', same, derives⟩ := inside q hq
    exact Nat.succ.inj same ▸ derives

/-- A primary expression is a literal, a name, an expression in parentheses or a sequence. -/
lemma reads_primary {inner : Nested} {n : Nat} (reads : ReadsEnclosed inner n) :
    Reads (primary inner) .primary n := by
  intro c c' e h
  obtain ⟨first, mid, taken, h⟩ := bind_eq_ok.mp h
  split at h
  · exact absurd h throw_ne_ok
  · next digits =>
    have takes := advance_eq_ok_some.mp taken
    cases value : number? digits.toList with
    | none =>
      simp only [value] at h
      exact absurd h throw_ne_ok
    | some v =>
      simp only [value] at h
      obtain ⟨rfl, rfl⟩ := pure_eq_ok.mp h
      obtain ⟨range, rfl⟩ := number?_eq_some_iff.mp value
      exact ⟨_, takes, .number digits, by simpa using range⟩
  · next mark raw =>
    obtain ⟨rfl, rfl⟩ := pure_eq_ok.mp h
    exact ⟨_, advance_eq_ok_some.mp taken, .quoted mark raw, by simp⟩
  · next w =>
    obtain ⟨derives, rfl⟩ := derives_ofWord h
    exact ⟨_, advance_eq_ok_some.mp taken, derives, by simp⟩
  · obtain ⟨e', mid', readInside, h⟩ := bind_eq_ok.mp h
    obtain ⟨m, ts, rfl, takesInside, derives, range⟩ := reads.whole readInside
    obtain ⟨⟨⟩, mid'', expected, h⟩ := bind_eq_ok.mp h
    obtain ⟨rfl, rfl⟩ := pure_eq_ok.mp h
    have takesOpening := advance_eq_ok_some.mp taken
    have takesClosing := expect_eq_ok.mp expected
    refine ⟨_, takesOpening.cons (takesInside.trans takesClosing), .parentheses derives, ?_⟩
    simpa [or_imp, forall_and] using range
  · obtain ⟨fuel, mid', counted, h⟩ := bind_eq_ok.mp h
    obtain ⟨rfl, rfl⟩ := remaining_eq_ok.mp counted
    obtain ⟨es, mid'', readItems, h⟩ := bind_eq_ok.mp h
    obtain ⟨⟨⟩, mid3, expected, h⟩ := bind_eq_ok.mp h
    obtain ⟨rfl, rfl⟩ := pure_eq_ok.mp h
    have takesOpening := advance_eq_ok_some.mp taken
    have takesClosing := expect_eq_ok.mp expected
    obtain ⟨parts, ending, rfl, takesItems, derives, trailing, range⟩ := reads_items reads readItems
    refine ⟨_, takesOpening.cons (takesItems.trans takesClosing), ?_, ?_⟩
    · simpa using derives_sequence derives trailing
    · intro t ht
      rw [List.mem_cons, List.mem_append, List.mem_singleton] at ht
      rcases ht with rfl | ht | rfl
      · trivial
      · exact range t ht
      · trivial
  · exact absurd h throw_ne_ok

/-! ### Access, signs, comparisons and negations -/

/-- Field names and positions in brackets are read to the right of their target. -/
lemma reads_accessTail {inner : Nested} {n : Nat} (reads : ReadsEnclosed inner n) {fuel : Nat}
    {target e : Expr} {c c' : Cursor} {us : List Token} (before : Derives .access n us target)
    (range : ∀ t ∈ us, InRange t) (h : accessTail inner fuel target c = .ok (e, c')) :
    ∃ ts, c.Takes ts c' ∧ Derives .access n (us ++ ts) e ∧ ∀ t ∈ us ++ ts, InRange t := by
  induction fuel generalizing target c us with
  | zero =>
    obtain ⟨rfl, rfl⟩ := pure_eq_ok.mp h
    exact ⟨[], .nil c', by simpa using before, by simpa using range⟩
  | succ fuel ih =>
    obtain ⟨dotted, mid, eaten, afterDot⟩ := bind_eq_ok.mp h
    rcases eat_eq_ok.mp eaten with ⟨rfl, takesDot⟩ | ⟨rfl, -, rfl⟩
    · obtain ⟨found, mid', taken, afterName⟩ := bind_eq_ok.mp afterDot
      split at afterName
      · next name =>
        have takesName := advance_eq_ok_some.mp taken
        obtain ⟨ts, takes, derives, rangeAll⟩ :=
          ih (.field before name) (by simpa [or_imp, forall_and] using range) afterName
        refine ⟨_, takesDot.cons (takesName.cons takes), ?_, ?_⟩
        · simpa using derives
        · simpa using rangeAll
      · exact absurd afterName throw_ne_ok
    · rw [if_neg Bool.false_ne_true] at afterDot
      obtain ⟨opened, mid', eaten', afterBracket⟩ := bind_eq_ok.mp afterDot
      rcases eat_eq_ok.mp eaten' with ⟨rfl, takesOpening⟩ | ⟨rfl, -, rfl⟩
      · obtain ⟨position, mid'', readPosition, afterPosition⟩ := bind_eq_ok.mp afterBracket
        obtain ⟨m, vs, rfl, takesPosition, derivesPosition, rangePosition⟩ :=
          reads.whole readPosition
        obtain ⟨⟨⟩, mid3, expected, afterClosing⟩ := bind_eq_ok.mp afterPosition
        have takesClosing := expect_eq_ok.mp expected
        obtain ⟨ts, takes, derives, rangeAll⟩ :=
          ih (.index before derivesPosition)
            (by simpa [or_imp, forall_and] using ⟨range, rangePosition⟩) afterClosing
        refine ⟨_, takesOpening.cons (takesPosition.trans (takesClosing.cons takes)), ?_, ?_⟩
        · simpa using derives
        · simpa using rangeAll
      · rw [if_neg Bool.false_ne_true] at afterBracket
        obtain ⟨rfl, rfl⟩ := pure_eq_ok.mp afterBracket
        exact ⟨[], .nil _, by simpa using before, by simpa using range⟩

lemma reads_access {inner : Nested} {n : Nat} (reads : ReadsEnclosed inner n) :
    Reads (access inner) .access n := by
  intro c c' e h
  obtain ⟨target, mid, readTarget, afterTarget⟩ := bind_eq_ok.mp h
  obtain ⟨us, takesTarget, derivesTarget, range⟩ := reads_primary reads readTarget
  obtain ⟨fuel, mid', counted, afterCount⟩ := bind_eq_ok.mp afterTarget
  obtain ⟨rfl, rfl⟩ := remaining_eq_ok.mp counted
  obtain ⟨ts, takes, derives, rangeAll⟩ :=
    reads_accessTail reads (.lift (by decide) derivesTarget) range afterCount
  exact ⟨us ++ ts, takesTarget.trans takes, derives, rangeAll⟩

lemma reads_signed {inner : Nested} {n : Nat} (reads : ReadsEnclosed inner n) :
    Reads (signed inner) .signed n := by
  intro c c' e h
  obtain ⟨minus, mid, eaten, afterSign⟩ := bind_eq_ok.mp h
  rcases eat_eq_ok.mp eaten with ⟨rfl, takesSign⟩ | ⟨rfl, -, rfl⟩
  · obtain ⟨operand, mid', readOperand, result⟩ := bind_eq_ok.mp afterSign
    obtain ⟨rfl, rfl⟩ := pure_eq_ok.mp result
    obtain ⟨m, ts, rfl, takes, derives, range⟩ := reads.signed readOperand
    exact ⟨_, takesSign.cons takes, .negate derives, by simpa using range⟩
  · rw [if_neg Bool.false_ne_true] at afterSign
    obtain ⟨ts, takes, derives, range⟩ := reads_access reads afterSign
    exact ⟨ts, takes, .lift (by decide) derives, range⟩

lemma reads_comparison {inner : Nested} {n : Nat} (reads : Reads (sum inner) .sum n) :
    Reads (comparison inner) .comparison n := by
  intro c c' e h
  obtain ⟨left, mid, readLeft, afterLeft⟩ := bind_eq_ok.mp h
  obtain ⟨us, takesLeft, derivesLeft, rangeLeft⟩ := reads readLeft
  obtain ⟨found, mid', looked, afterLook⟩ := bind_eq_ok.mp afterLeft
  obtain ⟨same, rfl⟩ := eq_of_comparison?_eq_ok looked
  cases found with
  | none =>
    obtain ⟨rfl, rfl⟩ := pure_eq_ok.mp afterLook
    exact ⟨us, takesLeft, .lift (by decide) derivesLeft, rangeLeft⟩
  | some op =>
    obtain ⟨ops, rest, next, compares⟩ := comparisonAt?_eq_some_iff.mp same.symm
    obtain ⟨mid'', takesOperator, afterOperator⟩ :=
      (skip_comparison_bind_eq_ok compares next).mp afterLook
    obtain ⟨right, mid3, readRight, afterRight⟩ := bind_eq_ok.mp afterOperator
    obtain ⟨vs, takesRight, derivesRight, rangeRight⟩ := reads readRight
    obtain ⟨chained, mid4, looked', result⟩ := bind_eq_ok.mp afterRight
    obtain ⟨-, rfl⟩ := eq_of_comparison?_eq_ok looked'
    cases chained with
    | some _ => exact absurd result throw_ne_ok
    | none =>
      obtain ⟨rfl, rfl⟩ := pure_eq_ok.mp result
      refine ⟨_, takesLeft.trans (takesOperator.trans takesRight),
        .compare compares derivesLeft derivesRight, ?_⟩
      have rangeOperator : ∀ t ∈ ops, InRange t := by cases compares <;> simp
      simpa [or_imp, forall_and] using ⟨rangeLeft, rangeOperator, rangeRight⟩

lemma reads_negated {inner : Nested} {n : Nat} (reads : ReadsEnclosed inner n)
    (readsComparison : Reads (comparison inner) .comparison n) :
    Reads (negated inner) .negation n := by
  intro c c' e h
  obtain ⟨next, mid, peeked, afterPeek⟩ := bind_eq_ok.mp h
  obtain ⟨rfl, rfl⟩ := peek_eq_ok.mp peeked
  split at afterPeek
  · next isNegation =>
    obtain ⟨t, next, spelling⟩ := (Option.any_eq_true _ _).mp isNegation
    obtain ⟨mid', takesNot, afterNot⟩ := (discard_advance_bind_eq_ok next).mp afterPeek
    obtain ⟨operand, mid'', readOperand, result⟩ := bind_eq_ok.mp afterNot
    obtain ⟨rfl, rfl⟩ := pure_eq_ok.mp result
    obtain ⟨m, ts, rfl, takes, derives, range⟩ := reads.negated readOperand
    have spelled : t = .word "not" ∨ t = .symbol .not := by simpa [isNot] using spelling
    refine ⟨t :: ts, takesNot.cons takes, .not spelled derives, ?_⟩
    rcases spelled with rfl | rfl <;> simpa using range
  · obtain ⟨ts, takes, derives, range⟩ := readsComparison afterPeek
    exact ⟨ts, takes, .lift (by decide) derives, range⟩

/-! ### All levels -/

/-- The parser of every level takes what the grammar derives. -/
lemma reads_reader_of_readsEnclosed {inner : Nested} {n : Nat} (reads : ReadsEnclosed inner n)
    (l : Level) : Reads (reader inner l) l n := by
  have signed : Reads (reader inner .signed) .signed n := reads_signed reads
  have product : Reads (reader inner .product) .product n :=
    reads_chain (l := .product) (by decide) signed
  have sum : Reads (reader inner .sum) .sum n :=
    reads_chain (l := .sum) (by decide) product
  have comparison : Reads (reader inner .comparison) .comparison n := reads_comparison sum
  have negation : Reads (reader inner .negation) .negation n := reads_negated reads comparison
  have conjunction : Reads (reader inner .conjunction) .conjunction n :=
    reads_chain (l := .conjunction) (by decide) negation
  have disjunction : Reads (reader inner .disjunction) .disjunction n :=
    reads_chain (l := .disjunction) (by decide) conjunction
  cases l
  case primary => exact reads_primary reads
  case access => exact reads_access reads
  all_goals assumption

/-- The parsers with `n` nesting levels left read what is enclosed at most `n` times. -/
lemma readsEnclosed_nested (n : Nat) : ReadsEnclosed (nested n) n := by
  induction n with
  | zero =>
    constructor
    all_goals
      intro c c' e h
      exact absurd h throw_ne_ok
  | succ n ih =>
    have reads := reads_reader_of_readsEnclosed ih
    constructor
    all_goals
      intro c c' e h
    · obtain ⟨ts, spelled⟩ := reads .disjunction h
      exact ⟨n, ts, rfl, spelled⟩
    · obtain ⟨ts, spelled⟩ := reads .negation h
      exact ⟨n, ts, rfl, spelled⟩
    · obtain ⟨ts, spelled⟩ := reads .signed h
      exact ⟨n, ts, rfl, spelled⟩

/-- With `n` nesting levels left, the parser of every level takes what the grammar derives. -/
lemma reads_reader (n : Nat) (l : Level) : Reads (reader (nested n) l) l n :=
  reads_reader_of_readsEnclosed (readsEnclosed_nested n) l

end Parser

/-! ### Whole texts -/

/-- Tokens that spell an expression keep the limits and are derived by the grammar. -/
lemma derives_of_ofTokens_eq_ok {tokens : List Token} {fault : Option TokenError} {e : Expr}
    (h : ofTokens tokens fault = .ok e) :
    fault = none ∧ tokens.length ≤ maxTokens ∧ (∀ t ∈ tokens, InRange t) ∧
      Derives .disjunction maxNesting tokens e := by
  unfold ofTokens at h
  split at h
  · cases h
  · next proper =>
    cases read : (Parser.nested (maxNesting + 1)).whole ⟨tokens, 0, fault⟩ with
    | error problem =>
      rw [read] at h
      cases h
    | ok outcome =>
      rw [read] at h
      obtain ⟨e', cursor⟩ := outcome
      obtain ⟨ts, takes, derives, range⟩ := Parser.reads_reader maxNesting .disjunction read
      dsimp only [bind, Except.bind] at h
      split at h
      · next atEnd =>
        cases h
        obtain rfl : tokens = ts := by simpa [atEnd] using takes.rest
        refine ⟨?_, ?_, range, derives⟩
        · by_cases none : tokens = []
          · cases fault with
            | none => rfl
            | some problem => exact absurd rfl (proper problem none)
          · exact takes.clean none atEnd
        · by_contra long
          exact takes.within maxTokens (by omega) (Nat.zero_add _)
      · cases h

end Stencil.Expr
