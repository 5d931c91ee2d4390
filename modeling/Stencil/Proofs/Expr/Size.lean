import Stencil.Expr.Eval
import Stencil.Proofs.Expr.Soundness

/-!
# How large expressions get

Every node of an expression takes a token of its own, so an expression has at most as many nodes as
its text has tokens (`nodes_le_length_of_derives`).  Operands of `not` and unary minus, positions
and items are enclosed where they are spelled, so no path goes into more of them than enclosures are
allowed (`nestsWithin_of_derives`).  Hence what can be parsed is evaluated with few calls inside
each other (`parse_bounded`), although chains of operators and accesses grow without nesting.
-/

namespace Stencil.Expr

/-! ### Nodes and paths -/

mutual

/-- How many nodes an expression has. -/
def nodes : Expr → Nat
  | .literal _ | .reference _ => 1
  | .sequence items => nodesOfAll items + 1
  | .not e | .negate e | .field e _ => nodes e + 1
  | .and a b | .or a b | .binary _ a b | .index a b => nodes a + nodes b + 1

/-- How many nodes some expressions have together. -/
def nodesOfAll : List Expr → Nat
  | [] => 0
  | e :: rest => nodes e + nodesOfAll rest

end

/-- The unary operand, the position or the items of an expression. -/
def enclosed : Expr → List Expr
  | .sequence items => items
  | .not e | .negate e | .index _ e => [e]
  | _ => []

/-- The operands of the operator, or the target of the access, that an expression is. -/
def joined : Expr → List Expr
  | .and a b | .or a b | .binary _ a b => [a, b]
  | .field e _ | .index e _ => [e]
  | _ => []

/-- So many steps lead from the first expression down to the last, and so many of them go into a
unary operand, a position or an item. -/
inductive Descends : Expr → Nat → Nat → Expr → Prop where
  | here {e : Expr} : Descends e 0 0 e
  | inside {e c f : Expr} {steps depth : Nat} (first : c ∈ e.enclosed)
      (others : Descends c steps depth f) : Descends e (steps + 1) (depth + 1) f
  | along {e c f : Expr} {steps depth : Nat} (first : c ∈ e.joined)
      (others : Descends c steps depth f) : Descends e (steps + 1) depth f

/-- No path from the expression goes into more unary operands, positions and items. -/
def NestsWithin (e : Expr) (n : Nat) : Prop :=
  ∀ steps depth f, Descends e steps depth f → depth ≤ n

variable {l : Level} {n steps depth : Nat} {ts : List Token} {e c f : Expr}

lemma nodes_pos (e : Expr) : 0 < e.nodes := by
  cases e <;> simp [nodes]

lemma nodes_le_nodesOfAll {items : List Expr} (mem : e ∈ items) : e.nodes ≤ nodesOfAll items := by
  induction items with
  | nil => simp at mem
  | cons first items ih =>
    rw [nodesOfAll]
    rcases List.mem_cons.mp mem with rfl | later
    · omega
    · have := ih later
      omega

lemma nodes_lt_of_mem_enclosed (h : c ∈ e.enclosed) : c.nodes < e.nodes := by
  unfold enclosed at h
  split at h
  case h_1 => exact Nat.lt_succ_of_le (nodes_le_nodesOfAll h)
  case h_5 => simp at h
  all_goals
    obtain rfl := List.mem_singleton.mp h
    rw [nodes]
    omega

lemma nodes_lt_of_mem_joined (h : c ∈ e.joined) : c.nodes < e.nodes := by
  unfold joined at h
  split at h
  case h_6 => simp at h
  case h_4 | h_5 =>
    obtain rfl := List.mem_singleton.mp h
    rw [nodes]
    omega
  all_goals
    rw [List.mem_cons, List.mem_singleton] at h
    rw [nodes]
    obtain rfl | rfl := h <;> omega

/-- A path is shorter than the expression has nodes. -/
lemma steps_lt_nodes (h : Descends e steps depth f) : steps < e.nodes := by
  induction h with
  | here => exact nodes_pos _
  | inside first _ ih => exact Nat.lt_of_le_of_lt ih (nodes_lt_of_mem_enclosed first)
  | along first _ ih => exact Nat.lt_of_le_of_lt ih (nodes_lt_of_mem_joined first)

/-- How an expression nests is seen from what it encloses and what it joins. -/
lemma nestsWithin_of_mem (inside : ∀ c ∈ e.enclosed, ∃ m, n = m + 1 ∧ c.NestsWithin m)
    (along : ∀ c ∈ e.joined, c.NestsWithin n) : e.NestsWithin n := by
  intro steps depth f path
  cases path with
  | here => exact Nat.zero_le n
  | inside first others =>
    obtain ⟨m, rfl, nests⟩ := inside _ first
    exact Nat.succ_le_succ (nests _ _ _ others)
  | along first others => exact along _ first _ _ _ others

/-! ### What tokens spell -/

/-- The items of a sequence have no more nodes than there are tokens between its brackets. -/
lemma nodesOfAll_le_length_intercalate {parts : List (List Token × Expr)}
    (h : ∀ p ∈ parts, p.2.nodes ≤ p.1.length) :
    nodesOfAll (parts.map Prod.snd) ≤
      ([Token.symbol .comma].intercalate (parts.map Prod.fst)).length := by
  induction parts with
  | nil => simp [nodesOfAll]
  | cons p parts ih =>
    have first := h p List.mem_cons_self
    have others := ih fun q hq => h q (List.mem_cons_of_mem p hq)
    rw [List.map_cons, List.map_cons, nodesOfAll]
    by_cases none : parts = []
    · subst none
      simpa [nodesOfAll] using first
    · rw [List.intercalate_cons_of_ne_nil (by simpa using none), List.length_append,
        List.length_append]
      omega

/-- What joins two expressions adds one node, which encloses neither of them. -/
lemma nodes_of_joins {t : Token} {combine : Expr → Expr → Expr} (joins : Joins l t combine)
    (a b : Expr) :
    (combine a b).nodes = a.nodes + b.nodes + 1 ∧ (combine a b).enclosed = [] ∧
      (combine a b).joined = [a, b] := by
  cases joins <;> exact ⟨by rw [nodes], rfl, rfl⟩

/-- Every node is spelled by a token of its own. -/
theorem nodes_le_length_of_derives (h : Derives l n ts e) : e.nodes ≤ ts.length := by
  induction h with
  | lift _ _ ih => exact ih
  | @join _ _ _ _ _ _ a b joins _ _ left right =>
    rw [(nodes_of_joins joins a b).1, List.length_append, List.length_cons]
    omega
  | not _ _ ih | negate _ ih =>
    rw [nodes, List.length_cons]
    exact Nat.succ_le_succ ih
  | @compare _ _ ops _ _ _ _ compares _ _ left right =>
    have spelled : 0 < ops.length := by cases compares <;> simp
    rw [nodes, List.length_append, List.length_append]
    omega
  | field _ _ ih =>
    simp only [nodes, List.length_append, List.length_cons, List.length_nil]
    omega
  | index _ _ target inside =>
    simp only [nodes, List.length_append, List.length_cons, List.length_nil]
    omega
  | parentheses _ ih =>
    simp only [List.length_append, List.length_cons, List.length_nil]
    omega
  | sequence _ _ _ ih =>
    have items := nodesOfAll_le_length_intercalate ih
    simp only [nodes, List.length_append, List.length_cons, List.length_nil]
    omega
  | _ => simp [nodes, nodesOfAll]

/-- No path goes into more unary operands, positions and items than enclosures are allowed. -/
theorem nestsWithin_of_derives (h : Derives l n ts e) : e.NestsWithin n := by
  induction h with
  | lift _ _ ih => exact ih
  | @join _ _ _ _ _ _ a b joins _ _ left right =>
    obtain ⟨-, enclosed, operands⟩ := nodes_of_joins joins a b
    refine nestsWithin_of_mem (by simp [enclosed]) ?_
    rw [operands]
    simpa using ⟨left, right⟩
  | not _ _ ih | negate _ ih =>
    exact nestsWithin_of_mem (by simpa [enclosed] using ih) (by simp [joined])
  | compare _ _ _ left right =>
    exact nestsWithin_of_mem (by simp [enclosed]) (by simpa [joined] using ⟨left, right⟩)
  | field _ _ ih => exact nestsWithin_of_mem (by simp [enclosed]) (by simpa [joined] using ih)
  | index _ _ target position =>
    exact nestsWithin_of_mem (by simpa [enclosed] using position) (by simpa [joined] using target)
  | parentheses _ ih =>
    exact fun steps depth f path => Nat.le_succ_of_le (ih steps depth f path)
  | sequence _ _ _ ih =>
    refine nestsWithin_of_mem (fun c mem => ?_) (by simp [joined])
    obtain ⟨p, hp, rfl⟩ := List.mem_map.mp mem
    exact ⟨_, rfl, ih p hp⟩
  | _ => exact nestsWithin_of_mem (by simp [enclosed]) (by simp [joined])

/-! ### Evaluating with few calls -/

/-- An outcome that was reached. -/
def reached {α : Type} (outcome : Except EvalError α) : ExceptT EvalError Option α :=
  ExceptT.mk (some outcome)

/-- The value of an expression, or nothing when it takes more than so many calls of the evaluation
inside each other. -/
def evalWithin (scope : Scope) : Nat → Expr → ExceptT EvalError Option Value
  | 0, _ => ExceptT.mk none
  | calls + 1, e =>
    match e with
    | .literal v => return v
    | .reference n =>
      match scope n with
      | some v => return v
      | none => throw (.undefined n)
    | .sequence items => do return .sequence (← items.mapM (evalWithin scope calls))
    | .not operand => do return .boolean (!(← evalWithin scope calls operand).isTruthy)
    | .negate operand => do reached (refuse (← evalWithin scope calls operand).negate)
    | .and left right => do
      let v ← evalWithin scope calls left
      if v.isTruthy then evalWithin scope calls right else return v
    | .or left right => do
      let v ← evalWithin scope calls left
      if v.isTruthy then return v else evalWithin scope calls right
    | .binary op left right => do
      let v ← evalWithin scope calls left
      let w ← evalWithin scope calls right
      reached (refuse (op.apply v w))
    | .field target name => do reached (refuse ((← evalWithin scope calls target).field name))
    | .index target position => do
      let v ← evalWithin scope calls target
      let i ← evalWithin scope calls position
      reached (refuse (v.index i))

/-- What goes on from an outcome that was reached. -/
@[simp] lemma reached_bind {α β : Type} (outcome : Except EvalError α)
    (next : α → Except EvalError β) :
    (reached outcome >>= fun a => reached (next a)) = reached (outcome >>= next) := by
  cases outcome <;> rfl

@[simp] lemma reached_pure {α : Type} (a : α) :
    (pure a : ExceptT EvalError Option α) = reached (pure a) := rfl

/-- The items of a sequence are evaluated one after another. -/
lemma mapM_reached {items : List Expr} {scope : Scope}
    {within : Expr → ExceptT EvalError Option Value}
    (h : ∀ e ∈ items, within e = reached (e.eval scope)) :
    items.mapM within = reached (evalItems scope items) := by
  induction items with
  | nil => rfl
  | cons e items ih =>
    rw [List.mapM_cons, h e List.mem_cons_self, ih fun e he => h e (List.mem_cons_of_mem _ he),
      evalItems]
    simp

/-- As many calls as there are nodes are enough. -/
theorem evalWithin_eq_reached (scope : Scope) {calls : Nat} (enough : e.nodes ≤ calls) :
    evalWithin scope calls e = reached (e.eval scope) := by
  induction calls generalizing e with
  | zero => exact absurd (nodes_pos e) (Nat.not_lt.mpr enough)
  | succ calls ih =>
    have inside : ∀ c ∈ e.enclosed, evalWithin scope calls c = reached (c.eval scope) :=
      fun c h => ih (Nat.le_of_lt_succ (Nat.lt_of_lt_of_le (nodes_lt_of_mem_enclosed h) enough))
    have along : ∀ c ∈ e.joined, evalWithin scope calls c = reached (c.eval scope) :=
      fun c h => ih (Nat.le_of_lt_succ (Nat.lt_of_lt_of_le (nodes_lt_of_mem_joined h) enough))
    cases e with
    | literal v => rfl
    | reference n =>
      rw [evalWithin, eval]
      cases scope n <;> rfl
    | sequence items =>
      have values : items.mapM (evalWithin scope calls) = reached (evalItems scope items) :=
        mapM_reached inside
      rw [evalWithin, eval, values]
      simp
    | not operand =>
      rw [evalWithin, eval, inside operand (by simp [enclosed])]
      simp
    | negate operand =>
      rw [evalWithin, eval, inside operand (by simp [enclosed]), reached_bind]
    | and left right =>
      rw [evalWithin, eval, along left (by simp [joined]), along right (by simp [joined]),
        ← reached_bind]
      congr 1
      funext v
      split <;> rfl
    | or left right =>
      rw [evalWithin, eval, along left (by simp [joined]), along right (by simp [joined]),
        ← reached_bind]
      congr 1
      funext v
      split <;> rfl
    | binary op left right =>
      rw [evalWithin, eval, along left (by simp [joined]), along right (by simp [joined])]
      simp
    | field target name =>
      rw [evalWithin, eval, along target (by simp [joined]), reached_bind]
    | index target position =>
      rw [evalWithin, eval, along target (by simp [joined]), inside position (by simp [enclosed])]
      simp

/-! ### Expressions that can be parsed -/

/-- A text that is an expression has at most 512 tokens.  The expression has at most as many nodes
as the text has tokens, so no path has more than 512 nodes and the evaluation makes at most 512
calls inside each other; and no path goes into more than 64 unary operands, positions and items. -/
theorem parse_bounded {src : String} (h : parse src = .ok e) :
    e.nodes ≤ (Tokens.ofText src.toList).items.length ∧
      (Tokens.ofText src.toList).fault = none ∧
      (Tokens.ofText src.toList).items.length ≤ 512 ∧
      (∀ steps depth f, Descends e steps depth f → steps + 1 ≤ 512 ∧ depth ≤ 64) ∧
      ∀ scope, evalWithin scope 512 e = reached (e.eval scope) := by
  obtain ⟨complete, short, -, derives⟩ := derives_of_ofTokens_eq_ok h
  have spelled := nodes_le_length_of_derives derives
  rw [List.length_map] at short spelled
  have few : e.nodes ≤ 512 := Nat.le_trans spelled short
  refine ⟨spelled, complete, short, fun steps depth f path => ⟨?_, ?_⟩, fun scope => ?_⟩
  · exact Nat.le_trans (steps_lt_nodes path) few
  · exact nestsWithin_of_derives derives _ _ _ path
  · exact evalWithin_eq_reached scope few

/-- A chain of accesses and a chain of operators, as a unary operand. -/
theorem parse_bounded_chained :
    ∃ e, parse "not a[-b][0].f - [1, [2]] - c" = .ok e ∧ e.nodes = 15 ∧
      (Tokens.ofText "not a[-b][0].f - [1, [2]] - c".toList).items.length = 21 ∧
      e.NestsWithin 64 ∧ ∀ scope, evalWithin scope 512 e = reached (e.eval scope) := by
  have counted : (parse "not a[-b][0].f - [1, [2]] - c").toOption.map nodes = some 15 := by
    decide +kernel
  cases parsed : parse "not a[-b][0].f - [1, [2]] - c" with
  | error problem =>
    rw [parsed] at counted
    cases counted
  | ok e =>
    rw [parsed] at counted
    obtain ⟨-, -, -, paths, evaluates⟩ := parse_bounded parsed
    exact ⟨e, rfl, Option.some.inj counted, by decide +kernel,
      fun steps depth f path => (paths steps depth f path).2, evaluates⟩

end Stencil.Expr
