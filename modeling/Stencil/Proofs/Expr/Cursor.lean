import Stencil.Expr.Cursor
import Mathlib.Tactic.Common

/-!
# What parsers take

`Cursor.Takes c ts c'` says that taking exactly the tokens `ts` leads from the cursor `c` to the
cursor `c'`: the limit on the number of tokens is not met on the way, and when the last token of the
text is among them, no fault follows it.  Both directions of the correspondence between parsers and
the grammar are stated with it, and the lemmas here say what the basic parsers take.
-/

namespace Stencil.Expr

/-- Taking exactly the tokens `ts` leads from one cursor to the other. -/
structure Cursor.Takes (c : Cursor) (ts : List Token) (c' : Cursor) : Prop where
  rest : c.rest = ts ++ c'.rest
  taken : c'.taken = c.taken + ts.length
  fault : c'.fault = c.fault
  /-- The limit is not met before any of the tokens. -/
  within : ∀ k < ts.length, c.taken + k ≠ maxTokens
  /-- Nothing follows the last token of the text when it is taken. -/
  clean : ts ≠ [] → c'.rest = [] → c.fault = none

namespace Cursor.Takes

variable {c c' : Cursor} {ts us : List Token}

lemma nil (c : Cursor) : c.Takes [] c :=
  ⟨rfl, rfl, rfl, by simp, by simp⟩

/-- Tokens are taken one list after the other. -/
lemma append_iff : c.Takes (ts ++ us) c' ↔ ∃ mid, c.Takes ts mid ∧ mid.Takes us c' := by
  constructor
  · intro h
    refine ⟨⟨us ++ c'.rest, c.taken + ts.length, c.fault⟩, ⟨?_, rfl, rfl, ?_, ?_⟩,
      ⟨rfl, ?_, h.fault, ?_, ?_⟩⟩
    · rw [h.rest, List.append_assoc]
    · intro k hk
      exact h.within k (by rw [List.length_append]; omega)
    · intro hts hrest
      exact h.clean (by simp [hts]) (List.append_eq_nil_iff.mp hrest).2
    · rw [h.taken, List.length_append, Nat.add_assoc]
    · intro k hk
      have := h.within (ts.length + k) (by rw [List.length_append]; omega)
      simpa only [Nat.add_assoc] using this
    · intro hus hrest
      exact h.clean (by simp [hus]) hrest
  · rintro ⟨mid, first, second⟩
    refine ⟨?_, ?_, second.fault.trans first.fault, ?_, ?_⟩
    · rw [first.rest, second.rest, List.append_assoc]
    · rw [second.taken, first.taken, List.length_append, Nat.add_assoc]
    · intro k hk
      rw [List.length_append] at hk
      by_cases inFirst : k < ts.length
      · exact first.within k inFirst
      · have := second.within (k - ts.length) (by omega)
        rw [first.taken] at this
        omega
    · intro hne hrest
      by_cases hus : us = []
      · subst hus
        refine first.clean (by simpa using hne) ?_
        rw [second.rest, hrest, List.append_nil]
      · exact first.fault ▸ second.clean hus hrest

lemma trans {mid : Cursor} (first : c.Takes ts mid) (second : mid.Takes us c') :
    c.Takes (ts ++ us) c' :=
  append_iff.mpr ⟨mid, first, second⟩

/-- The first token is taken before the others. -/
lemma cons_iff {t : Token} : c.Takes (t :: us) c' ↔ ∃ mid, c.Takes [t] mid ∧ mid.Takes us c' := by
  rw [← append_iff, List.singleton_append]

lemma cons {t : Token} {mid : Cursor} (first : c.Takes [t] mid) (second : mid.Takes us c') :
    c.Takes (t :: us) c' :=
  cons_iff.mpr ⟨mid, first, second⟩

/-- Taking no tokens leads nowhere. -/
lemma eq_of_nil (h : c.Takes [] c') : c' = c := by
  obtain ⟨hrest, htaken, hfault, -, -⟩ := h
  cases c; cases c'
  simp_all

lemma length_le (h : c.Takes ts c') : c'.rest.length ≤ c.rest.length := by
  rw [h.rest, List.length_append]
  omega

end Cursor.Takes

namespace Parser

variable {α β : Type} {c c' : Cursor}

/-! ### Running parsers -/

lemma bind_eq_ok {p : Parser α} {f : α → Parser β} {b : β} :
    (p >>= f) c = .ok (b, c') ↔ ∃ a mid, p c = .ok (a, mid) ∧ f a mid = .ok (b, c') := by
  change (p c >>= fun q => f q.1 q.2) = _ ↔ _
  cases hp : p c with
  | error e => simp [bind, Except.bind]
  | ok q => exact ⟨fun h => ⟨q.1, q.2, rfl, h⟩, by rintro ⟨a, mid, hq, h⟩; cases hq; exact h⟩

/-- A parser that succeeds hands its result over. -/
lemma bind_of_eq_ok {p : Parser α} (f : α → Parser β) {a : α} {mid : Cursor}
    (h : p c = .ok (a, mid)) : (p >>= f) c = f a mid := by
  change (p c >>= fun q => f q.1 q.2) = _
  rw [h]
  rfl

@[simp] lemma pure_eq_ok {a b : α} : (pure a : Parser α) c = .ok (b, c') ↔ b = a ∧ c' = c := by
  change (Except.ok (a, c) : Except SyntaxError _) = _ ↔ _
  simp [eq_comm]

@[simp] lemma throw_ne_ok {e : SyntaxError} {r : α × Cursor} :
    (throw e : Parser α) c ≠ .ok r := by
  change (Except.error e : Except SyntaxError _) ≠ _
  simp

@[simp] lemma peek_eq_ok {t : Option Token} :
    peek c = .ok (t, c') ↔ t = c.rest.head? ∧ c' = c := by
  simp [peek, eq_comm]

@[simp] lemma remaining_eq_ok {n : Nat} :
    remaining c = .ok (n, c') ↔ n = c.rest.length ∧ c' = c := by
  simp [remaining, eq_comm]

/-! ### Taking one token -/

/-- Taking the next token. -/
lemma advance_eq_ok_some {t : Token} : advance c = .ok (some t, c') ↔ c.Takes [t] c' := by
  obtain ⟨tokens, taken, fault⟩ := c
  obtain ⟨tokens', taken', fault'⟩ := c'
  cases tokens with
  | nil =>
    simp only [advance, Except.ok.injEq, Prod.mk.injEq, reduceCtorEq, false_and, false_iff]
    intro h
    simpa using h.rest
  | cons u rest =>
    have step : (⟨u :: rest, taken, fault⟩ : Cursor).Takes [t] ⟨tokens', taken', fault'⟩ ↔
        u = t ∧ rest = tokens' ∧ taken' = taken + 1 ∧ fault' = fault ∧ taken ≠ maxTokens ∧
          (tokens' = [] → fault = none) := by
      constructor
      · rintro ⟨hrest, htaken, hfault, hwithin, hclean⟩
        obtain ⟨hu, hrest⟩ := List.cons.inj hrest
        exact ⟨hu, hrest, htaken, hfault, hwithin 0 (by simp), hclean (by simp)⟩
      · rintro ⟨rfl, rfl, rfl, rfl, hwithin, hclean⟩
        exact ⟨rfl, rfl, rfl, by simpa using hwithin, fun _ => hclean⟩
    rw [step]
    by_cases limit : taken = maxTokens
    · simp [advance, limit]
    · cases rest <;> cases fault <;> simp [advance, limit, eq_comm] <;> grind

/-- There is no next token at the end of the text. -/
lemma advance_eq_ok_none : advance c = .ok (none, c') ↔ c.rest = [] ∧ c' = c := by
  obtain ⟨tokens, taken, fault⟩ := c
  cases tokens with
  | nil => simp [advance, eq_comm]
  | cons u rest =>
    by_cases limit : taken = maxTokens
    · simp [advance, limit]
    · cases rest <;> cases fault <;> simp [advance, limit]

/-- Going on after something whose result is not used. -/
lemma discard_bind_eq_ok {p : Parser α} {f : Unit → Parser β} {b : β} :
    (discard p >>= f) c = .ok (b, c') ↔ ∃ a mid, p c = .ok (a, mid) ∧ f () mid = .ok (b, c') := by
  have step : (discard p >>= f) = (p >>= fun _ => f ()) := by
    funext c
    change ((p c >>= fun q => Except.ok ((), q.2)) >>= fun q => f q.1 q.2) = _
    change _ = (p c >>= fun q => f () q.2)
    cases p c <;> rfl
  rw [step, bind_eq_ok]

/-- Going on after the next token, which is known. -/
lemma discard_advance_bind_eq_ok {f : Unit → Parser β} {b : β} {t : Token}
    (next : c.rest.head? = some t) :
    (discard advance >>= f) c = .ok (b, c') ↔
      ∃ mid, c.Takes [t] mid ∧ f () mid = .ok (b, c') := by
  rw [discard_bind_eq_ok]
  constructor
  · rintro ⟨u, mid, taken, h⟩
    cases u with
    | none => simp [(advance_eq_ok_none.mp taken).1] at next
    | some u =>
      have takes := advance_eq_ok_some.mp taken
      obtain rfl : u = t := by simpa [takes.rest] using next
      exact ⟨mid, takes, h⟩
  · rintro ⟨mid, takes, h⟩
    exact ⟨some t, mid, advance_eq_ok_some.mpr takes, h⟩

/-- A symbol is taken exactly when it comes next. -/
lemma eat_eq_ok {s : Symbol} {b : Bool} :
    eat s c = .ok (b, c') ↔
      (b = true ∧ c.Takes [.symbol s] c') ∨
        (b = false ∧ c.rest.head? ≠ some (.symbol s) ∧ c' = c) := by
  have seen : sees s c = .ok (decide (c.rest.head? = some (.symbol s)), c) := rfl
  rw [eat, bind_of_eq_ok _ seen]
  by_cases next : c.rest.head? = some (.symbol s)
  · rw [decide_eq_true next, if_pos rfl, discard_advance_bind_eq_ok next]
    simp only [pure_eq_ok]
    constructor
    · rintro ⟨mid, takes, rfl, rfl⟩
      exact .inl ⟨rfl, takes⟩
    · rintro (⟨rfl, takes⟩ | ⟨-, other, -⟩)
      · exact ⟨c', takes, rfl, rfl⟩
      · exact absurd next other
  · rw [decide_eq_false next, if_neg Bool.false_ne_true, pure_eq_ok]
    constructor
    · rintro ⟨rfl, rfl⟩
      exact .inr ⟨rfl, next, rfl⟩
    · rintro (⟨-, takes⟩ | ⟨rfl, -, rfl⟩)
      · exact absurd (by rw [takes.rest]; rfl) next
      · exact ⟨rfl, rfl⟩

/-- A symbol that is required is taken. -/
lemma expect_eq_ok {s : Symbol} : expect s c = .ok ((), c') ↔ c.Takes [.symbol s] c' := by
  rw [expect, bind_eq_ok]
  constructor
  · rintro ⟨b, mid, eaten, h⟩
    rcases eat_eq_ok.mp eaten with ⟨rfl, takes⟩ | ⟨rfl, -, rfl⟩
    · obtain ⟨-, rfl⟩ := pure_eq_ok.mp h
      exact takes
    · obtain ⟨t, mid, -, h⟩ := bind_eq_ok.mp h
      exact absurd h throw_ne_ok
  · intro takes
    exact ⟨true, c', eat_eq_ok.mpr (.inl ⟨rfl, takes⟩), pure_eq_ok.mpr ⟨rfl, rfl⟩⟩

end Parser

end Stencil.Expr
