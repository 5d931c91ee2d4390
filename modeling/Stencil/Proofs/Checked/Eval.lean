import Stencil.Proofs.Checked.Slice
import Stencil.Template.Expression
import Mathlib.Tactic.SplitIfs

/-!
# Evaluating expressions with checked operations

An evaluator for 64-bit machines divides words, takes items out of sequences by their places and
repeats texts into memory of a certain size; and one that has a single kind of node for all
operators has a case for the boolean connectives where it applies operators, although these never
come there.  All of that is checked here.  The guards that keep the checks from failing stand
elsewhere: a division by zero or past the range is refused before it is made, a place is compared
with the length before an item is taken, the size of a repetition is bounded before it is made, and
the connectives are evaluated where they stand.

`Tree.eval_eq` says that no check fails, for any tree and any scope.
-/

namespace Stencil.Checked

/-! ### Words -/

/-- The word with this value; no other value fits into one. -/
def word (n : Int) : Except Crash Int64 :=
  match Number.narrow? n with
  | some k => .ok k
  | none => .error .arithmetic

/-- The division has no result: the divisor is zero, or the quotient is out of range. -/
def Undivided (a b : Int64) : Prop := b = 0 ∨ a = Int64.minValue ∧ b = -1

instance (a b : Int64) : Decidable (Undivided a b) := inferInstanceAs (Decidable (_ ∨ _))

/-- A result of a division, or a refusal where the division has none. -/
def guardedDivision (a b : Int64) (result : Int64) : Except OperandError Int64 :=
  if Undivided a b then .error .overflow else .ok result

/-- What the division of two words leaves. -/
def modulo (a b : Int64) : Except Crash Int64 :=
  if Undivided a b then .error .arithmetic else .ok (a % b)

/-- The floor division of two values: that of words is a division that rounds toward zero, and one
less where something is left and the signs differ. -/
def floorDivide : Value → Value → Guarded OperandError Value
  | .integer a, .integer b =>
    if b = 0 then throw .divisionByZero
    else do
      let quotient ← settled (guardedDivision a b (a / b))
      let left ← modulo a b
      if left.toInt ≠ 0 ∧ ¬(a.toInt < 0 ↔ b.toInt < 0) then
        return .integer (← word (quotient.toInt - 1))
      else return .integer quotient
  | v, w => settled (v.floorDivide w)

/-- The remainder of two values: that of words is moved by the divisor where it has not the sign of
the divisor. -/
def remainder : Value → Value → Guarded OperandError Value
  | .integer a, .integer b =>
    if b = 0 then throw .moduloByZero
    else do
      let left ← settled (guardedDivision a b (a % b))
      if left.toInt ≠ 0 ∧ ¬(left.toInt < 0 ↔ b.toInt < 0) then
        return .integer (← word (left.toInt + b.toInt))
      else return .integer left
  | v, w => settled (v.remainder w)

/-- Rounding down is rounding toward zero, and one less where something is left and the signs
differ. -/
lemma fdiv_eq_ite (a : Int) {b : Int} (nonzero : b ≠ 0) :
    a.fdiv b = if a.tmod b ≠ 0 ∧ ¬(a < 0 ↔ b < 0) then a.tdiv b - 1 else a.tdiv b := by
  have left := Int.dvd_iff_tmod_eq_zero (a := b) (b := a)
  rw [Int.fdiv_eq_tdiv]
  obtain negative | positive := Int.lt_or_gt_of_ne nonzero
  · rw [Int.sign_eq_neg_one_of_neg negative]
    split_ifs <;> omega
  · rw [Int.sign_eq_one_of_pos positive]
    split_ifs <;> omega

/-- What rounding down leaves is what rounding toward zero leaves, moved to the sign of the
divisor. -/
lemma fmod_eq_ite (a b : Int) :
    a.fmod b = if a.tmod b ≠ 0 ∧ ¬(a.tmod b < 0 ↔ b < 0) then a.tmod b + b else a.tmod b := by
  have left := Int.dvd_iff_tmod_eq_zero (a := b) (b := a)
  have above (h : 0 ≤ a) : 0 ≤ a.tmod b := Int.tmod_nonneg b h
  have below (h : a ≤ 0) : a.tmod b ≤ 0 := by
    have := Int.tmod_nonneg b (Int.neg_nonneg_of_nonpos h)
    rw [Int.neg_tmod] at this
    omega
  rw [Int.fmod_eq_tmod]
  split_ifs <;> omega

section Words

variable {a b k : Int64} {n : Int}

lemma word_eq (h : k.toInt = n) : word n = .ok k := by
  rw [word, Number.narrow?_eq_some_iff.2 h]

lemma exactInteger_eq (h : k.toInt = n) : Value.exactInteger n = .ok (.integer k) := by
  rw [Value.exactInteger, Number.narrow?_eq_some_iff.2 h]

/-- Every number in the range of words is that of a word. -/
lemma exists_toInt_eq (low : Int64.minValue.toInt ≤ n) (high : n ≤ Int64.maxValue.toInt) :
    ∃ k : Int64, k.toInt = n :=
  ⟨Int64.ofInt n, Number.narrow?_eq_some_iff.1 (if_pos ⟨low, high⟩)⟩

lemma toInt_ne_zero (h : b ≠ 0) : b.toInt ≠ 0 := fun zero => h (Int64.toInt_inj.1 zero)

/-- The quotient of words, where there is one, is that of their values. -/
lemma toInt_div (h : ¬ Undivided a b) : (a / b).toInt = a.toInt.tdiv b.toInt := by
  by_cases minus : b = -1
  · exact Int64.toInt_div_of_ne_left a b fun least => h (.inr ⟨least, minus⟩)
  · exact Int64.toInt_div_of_ne_right a b minus

/-- A quotient of words that leaves something is not the least word, so that one can be taken from
it. -/
lemma exists_toInt_eq_div_sub_one (h : ¬ Undivided a b) (left : a.toInt.tmod b.toInt ≠ 0) :
    ∃ k : Int64, k.toInt = (a / b).toInt - 1 := by
  have nonzero := toInt_ne_zero fun zero => h (.inl zero)
  have whole := Int.mul_tdiv_add_tmod a.toInt b.toInt
  have small : (a.toInt.tmod b.toInt).natAbs < b.toInt.natAbs := by
    rw [Int.natAbs_tmod]
    exact Nat.mod_lt _ (Int.natAbs_pos.2 nonzero)
  have := a.le_toInt
  have := a.toInt_lt
  have notLeast : (a / b).toInt ≠ Int64.minValue.toInt := by
    -- the least quotient times a divisor of two or more would be out of range
    intro least
    rw [← toInt_div h, least, Int64.toInt_minValue] at whole
    omega
  have := (a / b).le_toInt
  have := (a / b).toInt_lt
  rw [Int64.toInt_minValue] at notLeast
  exact exists_toInt_eq (by rw [Int64.toInt_minValue]; omega) (by rw [Int64.toInt_maxValue]; omega)

/-- Words of different signs have a sum. -/
lemma exists_toInt_eq_add (h : ¬(a.toInt < 0 ↔ b.toInt < 0)) :
    ∃ k : Int64, k.toInt = a.toInt + b.toInt := by
  have := a.le_toInt
  have := a.toInt_lt
  have := b.le_toInt
  have := b.toInt_lt
  exact exists_toInt_eq (by rw [Int64.toInt_minValue]; omega) (by rw [Int64.toInt_maxValue]; omega)

/-- Where no quotient of words is in range, the rounded one is not either. -/
lemma exactInteger_fdiv_of_undivided (nonzero : b ≠ 0) (h : Undivided a b) :
    Value.exactInteger (a.toInt.fdiv b.toInt) = .error .overflow := by
  obtain zero | ⟨rfl, rfl⟩ := h
  · exact absurd zero nonzero
  · rfl

/-- Where a quotient of words is in range, the rounded one is too. -/
lemma exists_toInt_eq_fdiv (nonzero : b ≠ 0) (h : ¬ Undivided a b) :
    ∃ k : Int64, k.toInt = a.toInt.fdiv b.toInt := by
  rw [fdiv_eq_ite _ (toInt_ne_zero nonzero), ← toInt_div h]
  split_ifs with lower
  · exact exists_toInt_eq_div_sub_one h lower.1
  · exact ⟨a / b, rfl⟩

lemma floorDivide_words (nonzero : b ≠ 0) :
    Value.floorDivide (.integer a) (.integer b) = Value.exactInteger (a.toInt.fdiv b.toInt) := by
  unfold Value.floorDivide
  split
  · next zero => exact absurd (Value.integer.inj zero) nonzero
  · next same same' => rw [Value.integer.inj same, Value.integer.inj same']
  · next other => exact absurd rfl (other a b rfl)

lemma remainder_words (nonzero : b ≠ 0) :
    Value.remainder (.integer a) (.integer b) = (do
      discard (Value.exactInteger (a.toInt.fdiv b.toInt))
      Value.exactInteger (a.toInt.fmod b.toInt)) := by
  unfold Value.remainder
  split
  · next zero => exact absurd (Value.integer.inj zero) nonzero
  · next same same' => rw [Value.integer.inj same, Value.integer.inj same']
  · next other => exact absurd rfl (other a b rfl)

end Words

/-- Floor divisions do not crash: nothing is divided that has no quotient, and one is taken only
from quotients above the least word. -/
lemma floorDivide_eq (v w : Value) : floorDivide v w = settled (v.floorDivide w) := by
  cases v with
  | integer a =>
    cases w with
    | integer b =>
      by_cases zero : b = 0
      · subst zero
        rfl
      · rw [floorDivide, if_neg zero, floorDivide_words zero, guardedDivision, modulo]
        by_cases undivided : Undivided a b
        · rw [if_pos undivided, exactInteger_fdiv_of_undivided zero undivided]
          rfl
        · simp only [if_neg undivided, settled_ok, pure_bind, liftM_ok, Int64.toInt_mod]
          rw [fdiv_eq_ite _ (toInt_ne_zero zero), ← toInt_div undivided]
          split_ifs with lower
          · obtain ⟨k, same⟩ := exists_toInt_eq_div_sub_one undivided lower.1
            rw [word_eq same, exactInteger_eq same]
            rfl
          · rw [exactInteger_eq rfl]
            rfl
    | _ => rfl
  | _ => rfl

/-- Remainders do not crash: only words of different signs are added. -/
lemma remainder_eq (v w : Value) : remainder v w = settled (v.remainder w) := by
  cases v with
  | integer a =>
    cases w with
    | integer b =>
      by_cases zero : b = 0
      · subst zero
        rfl
      · rw [remainder, if_neg zero, remainder_words zero, guardedDivision]
        by_cases undivided : Undivided a b
        · rw [if_pos undivided, exactInteger_fdiv_of_undivided zero undivided]
          rfl
        · obtain ⟨q, quotient⟩ := exists_toInt_eq_fdiv zero undivided
          rw [exactInteger_eq quotient, fmod_eq_ite, ← Int64.toInt_mod]
          simp only [if_neg undivided, settled_ok, pure_bind]
          split_ifs with moved
          · obtain ⟨k, same⟩ := exists_toInt_eq_add moved.2
            rw [word_eq same, exactInteger_eq same]
            rfl
          · rw [exactInteger_eq rfl]
            rfl
    | _ => rfl
  | _ => rfl

/-! ### Repetition and items -/

/-- The most bytes, or items, that memory can be asked for at once. -/
def maxCapacity : Nat := Nat.pow 2 63 - 1

/-- So many copies of something that takes the given room, one after another. -/
def copied {α : Type} (room : Nat) (xs : List α) (times : Nat) : Except Crash (List α) :=
  if room * times ≤ maxCapacity then .ok (Text.repeated xs times) else .error .capacity

/-- The product of two values. -/
def multiply : Value → Value → Guarded OperandError Value
  | .text s, .integer n | .integer n, .text s => do
    let times ← settled (Value.copies s.utf8ByteSize n)
    return .text (String.ofList (← copied s.utf8ByteSize s.toList times))
  | .sequence xs, .integer n | .integer n, .sequence xs => do
    let times ← settled (Value.copies xs.length n)
    return .sequence (← copied xs.length xs times)
  | v, w => settled (v.multiply w)

/-- The place that a position from either end names in a list of the given length. -/
def place (position : Int64) (length : Nat) : Except OperandError Nat :=
  -- a length and a negative word always have a sum in range
  let i := if position.toInt < 0 then (length : Int) + position.toInt else position.toInt
  if 0 ≤ i ∧ i < length then .ok i.toNat else .error (.outOfRange position)

/-- The item at a place. -/
def itemAt {α : Type} (xs : List α) (i : Nat) : Except Crash α :=
  match xs[i]? with
  | some x => .ok x
  | none => .error (.index i xs.length)

/-- The element of a list at a position from either end. -/
def element {α : Type} (xs : List α) (position : Int64) : Guarded OperandError α := do
  let i ← settled (place position xs.length)
  liftM (itemAt xs i)

/-- The item of a sequence, the character of a text or the value of a key. -/
def index : Value → Value → Guarded OperandError Value
  | .sequence items, .integer i => element items i
  | .text s, .integer i => do
    let c ← element s.toList i
    return .text c.toString
  | v, w => settled (v.index w)

/-- The size that is granted to a repetition is far below what memory can be asked for. -/
lemma copied_eq {α : Type} {room times : Nat} {count : Int64} (xs : List α)
    (granted : Value.copies room count = .ok times) :
    copied room xs times = .ok (Text.repeated xs times) := by
  have bound : room * times ≤ Value.maxRepetition := by
    simp only [Value.copies] at granted
    split at granted
    · next small => rwa [← Except.ok.inj granted]
    · cases granted
  exact if_pos (Nat.le_trans bound (by decide))

lemma multiply_eq (v w : Value) : multiply v w = settled (v.multiply w) := by
  have texts (s : String) (n : Int64) :
      multiply (.text s) (.integer n) = settled (Value.repeatText s n) :=
    settled_bind fun times granted => by rw [copied_eq _ granted]; rfl
  have sequences (xs : List Value) (n : Int64) :
      multiply (.sequence xs) (.integer n) = settled (Value.repeatItems xs n) :=
    settled_bind fun times granted => by rw [copied_eq _ granted]; rfl
  cases v with
  | text s =>
    cases w with
    | integer n => exact texts s n
    | _ => rfl
  | sequence xs =>
    cases w with
    | integer n => exact sequences xs n
    | _ => rfl
  | integer n =>
    cases w with
    | text s => exact texts s n
    | sequence xs => exact sequences xs n
    | _ => rfl
  | _ => rfl

/-- Items are taken only at places below the length. -/
lemma element_eq {α : Type} (xs : List α) (position : Int64) :
    element xs position = settled (Value.element xs position) := by
  simp only [element, place, Value.element]
  generalize (if position.toInt < 0 then (xs.length : Int) + position.toInt else position.toInt) = i
  by_cases inside : 0 ≤ i ∧ i < xs.length
  · have below : i.toNat < xs.length := by omega
    have item : itemAt xs i.toNat = .ok xs[i.toNat] := by
      rw [itemAt, List.getElem?_eq_getElem below]
    rw [if_pos inside, settled_ok, pure_bind, item, if_neg (by omega),
      List.getElem?_eq_getElem below]
    rfl
  · rw [if_neg inside]
    split
    · rfl
    · rw [List.getElem?_eq_none (by omega)]
      rfl

lemma index_eq (v w : Value) : index v w = settled (v.index w) := by
  cases v with
  | sequence items =>
    cases w with
    | integer i => exact element_eq items i
    | _ => rfl
  | text s =>
    cases w with
    | integer i =>
      rw [index, element_eq]
      exact settled_bind fun c _ => rfl
    | _ => rfl
  | _ => rfl

/-! ### Trees -/

/-- The operators of a tree: the connectives and those that evaluate both operands. -/
inductive BinaryOperator where
  | or
  | and
  | strict (op : Operator)
  deriving DecidableEq, Repr

/-- An expression with one kind of node for all operators. -/
inductive Tree where
  | literal (v : Value)
  | reference (name : String)
  | sequence (items : List Tree)
  | not (operand : Tree)
  | negate (operand : Tree)
  | binary (op : BinaryOperator) (left right : Tree)
  | field (target : Tree) (name : String)
  | index (target position : Tree)

/-- The value of an operator for two operands; a connective is never applied to values. -/
def apply (op : BinaryOperator) (v w : Value) : Guarded OperandError Value :=
  match op with
  | .or | .and => crash .unreachable
  | .strict .multiply => multiply v w
  | .strict .floorDivide => floorDivide v w
  | .strict .remainder => remainder v w
  | .strict op => settled (op.apply v w)

namespace Tree

mutual

/-- The expression that a tree is. -/
def toExpr : Tree → Expr
  | .literal v => .literal v
  | .reference name => .reference name
  | .sequence items => .sequence (toExprs items)
  | .not operand => .not operand.toExpr
  | .negate operand => .negate operand.toExpr
  | .binary .or left right => .or left.toExpr right.toExpr
  | .binary .and left right => .and left.toExpr right.toExpr
  | .binary (.strict op) left right => .binary op left.toExpr right.toExpr
  | .field target name => .field target.toExpr name
  | .index target position => .index target.toExpr position.toExpr

/-- The expressions that trees are. -/
def toExprs : List Tree → List Expr
  | [] => []
  | tree :: rest => tree.toExpr :: toExprs rest

end

mutual

/-- The tree of an expression. -/
def ofExpr : Expr → Tree
  | .literal v => .literal v
  | .reference name => .reference name
  | .sequence items => .sequence (ofExprs items)
  | .not operand => .not (ofExpr operand)
  | .negate operand => .negate (ofExpr operand)
  | .or left right => .binary .or (ofExpr left) (ofExpr right)
  | .and left right => .binary .and (ofExpr left) (ofExpr right)
  | .binary op left right => .binary (.strict op) (ofExpr left) (ofExpr right)
  | .field target name => .field (ofExpr target) name
  | .index target position => .index (ofExpr target) (ofExpr position)

/-- The trees of expressions. -/
def ofExprs : List Expr → List Tree
  | [] => []
  | e :: rest => ofExpr e :: ofExprs rest

end

mutual

/-- The value of a tree. -/
def eval (scope : Scope) : Tree → Guarded EvalError Value
  | .literal v => return v
  | .reference name =>
    match scope name with
    | some v => return v
    | none => throw (.undefined name)
  | .sequence items => do return .sequence (← evalItems scope items)
  | .not operand => do return .boolean (!(← eval scope operand).isTruthy)
  | .negate operand => do settled (Expr.refuse (← eval scope operand).negate)
  | .binary .and left right => do
    let v ← eval scope left
    if v.isTruthy then eval scope right else return v
  | .binary .or left right => do
    let v ← eval scope left
    if v.isTruthy then return v else eval scope right
  | .binary op left right => do
    let v ← eval scope left
    let w ← eval scope right
    ExceptT.adapt .operand (apply op v w)
  | .field target name => do settled (Expr.refuse ((← eval scope target).field name))
  | .index target position => do
    let v ← eval scope target
    let i ← eval scope position
    ExceptT.adapt .operand (Checked.index v i)

/-- The values of the items of a sequence. -/
def evalItems (scope : Scope) : List Tree → Guarded EvalError (List Value)
  | [] => return []
  | tree :: rest => do
    let v ← eval scope tree
    return v :: (← evalItems scope rest)

end

mutual

/-- Every expression is that of a tree. -/
theorem toExpr_ofExpr (e : Expr) : (ofExpr e).toExpr = e := by
  cases e with
  | sequence items => rw [ofExpr, toExpr, toExprs_ofExprs items]
  | not operand => rw [ofExpr, toExpr, toExpr_ofExpr operand]
  | negate operand => rw [ofExpr, toExpr, toExpr_ofExpr operand]
  | or left right => rw [ofExpr, toExpr, toExpr_ofExpr left, toExpr_ofExpr right]
  | and left right => rw [ofExpr, toExpr, toExpr_ofExpr left, toExpr_ofExpr right]
  | binary op left right => rw [ofExpr, toExpr, toExpr_ofExpr left, toExpr_ofExpr right]
  | field target name => rw [ofExpr, toExpr, toExpr_ofExpr target]
  | index target position => rw [ofExpr, toExpr, toExpr_ofExpr target, toExpr_ofExpr position]
  | _ => rfl

theorem toExprs_ofExprs (es : List Expr) : toExprs (ofExprs es) = es := by
  cases es with
  | nil => rfl
  | cons e rest => rw [ofExprs, toExprs, toExpr_ofExpr e, toExprs_ofExprs rest]

end

end Tree

lemma adapt_operand {α : Type} (x : Except OperandError α) :
    (ExceptT.adapt .operand (settled x) : Guarded EvalError α) = settled (Expr.refuse x) := by
  cases x <;> rfl

/-- Applying an operator that evaluates both operands does not crash. -/
lemma apply_strict_eq (op : Operator) (v w : Value) :
    apply (.strict op) v w = settled (op.apply v w) := by
  cases op with
  | multiply => exact multiply_eq v w
  | floorDivide => exact floorDivide_eq v w
  | remainder => exact remainder_eq v w
  | _ => rfl

namespace Tree

mutual

/-- Evaluation does not crash, whatever the tree and the scope are: the connectives are evaluated
where they stand, and every operator is applied behind its guards. -/
theorem eval_eq (scope : Scope) (tree : Tree) :
    tree.eval scope = settled (tree.toExpr.eval scope) := by
  cases tree with
  | literal v => rfl
  | reference name =>
    rw [eval, toExpr, Expr.eval]
    cases scope name <;> rfl
  | sequence items =>
    rw [eval, toExpr, Expr.eval, evalItems_eq scope items]
    exact settled_bind fun vs _ => rfl
  | not operand =>
    rw [eval, toExpr, Expr.eval, eval_eq scope operand]
    exact settled_bind fun v _ => rfl
  | negate operand =>
    rw [eval, toExpr, Expr.eval, eval_eq scope operand]
    exact settled_bind fun v _ => rfl
  | binary op left right =>
    cases op with
    | or =>
      rw [eval, toExpr, Expr.eval, eval_eq scope left, eval_eq scope right]
      refine settled_bind fun v _ => ?_
      split <;> rfl
    | and =>
      rw [eval, toExpr, Expr.eval, eval_eq scope left, eval_eq scope right]
      refine settled_bind fun v _ => ?_
      split <;> rfl
    | strict op =>
      rw [eval, toExpr, Expr.eval, eval_eq scope left, eval_eq scope right]
      · refine settled_bind fun v _ => settled_bind fun w _ => ?_
        rw [apply_strict_eq, adapt_operand]
      · nofun
      · nofun
  | field target name =>
    rw [eval, toExpr, Expr.eval, eval_eq scope target]
    exact settled_bind fun v _ => rfl
  | index target position =>
    rw [eval, toExpr, Expr.eval, eval_eq scope target, eval_eq scope position]
    refine settled_bind fun v _ => settled_bind fun i _ => ?_
    rw [index_eq, adapt_operand]

theorem evalItems_eq (scope : Scope) (items : List Tree) :
    evalItems scope items = settled (Expr.evalItems scope (toExprs items)) := by
  cases items with
  | nil => rfl
  | cons tree rest =>
    rw [evalItems, toExprs, Expr.evalItems, eval_eq scope tree, evalItems_eq scope rest]
    exact settled_bind fun v _ => settled_bind fun vs _ => rfl

end

end Tree

end Stencil.Checked
