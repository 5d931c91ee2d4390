import Stencil.Expr.Eval
import Stencil.Proofs.Number.Exact

/-!
# How the comparisons fit together

The six comparisons of two texts, or of two numbers that are not NaN, agree with each other: exactly
one of `<`, `==` and `>` is true, and the other three follow from them.  There is one exception.
Two integers have the order of the integers, but they are equal when they are the same float, and
floats tell integers apart only below two to the 53rd.  So the comparisons of `x` and `y` agree
exactly when these are not two different integers that share a float (`comparisons_agree_iff`).
-/

namespace Stencil

namespace Value

/-- The value is a number, and it is not NaN. -/
def IsNumber : Value → Prop
  | .integer _ => True
  | .float x => x.isNaN = false
  | _ => False

/-- The values are two texts, or two numbers. -/
def Comparable (v w : Value) : Prop :=
  (∃ s t, v = .text s ∧ w = .text t) ∨ (v.IsNumber ∧ w.IsNumber)

/-- The values are two different integers that are nearest to the same float. -/
def Collide (v w : Value) : Prop :=
  ∃ a b, v = .integer a ∧ w = .integer b ∧ a ≠ b ∧
    (Float.ofInt a.toInt == Float.ofInt b.toInt) = true

/-! ### Order and equality -/

/-- A number is a float or has a nearest one, which is not NaN. -/
lemma IsNumber.exists_float? {v : Value} (h : v.IsNumber) :
    ∃ x, v.float? = some x ∧ x.isNaN = false := by
  cases v with
  | integer n => exact ⟨_, rfl, Number.isNaN_ofInt n.toInt⟩
  | float x => exact ⟨x, rfl, h⟩
  | _ => exact h.elim

/-- Two integers have the order of the integers, and are equal when their floats are. -/
lemma compare?_integer (a b : Int64) :
    compare? (.integer a) (.integer b) = some (compare a.toInt b.toInt) ∧
      equal (.integer a) (.integer b) = (Float.ofInt a.toInt == Float.ofInt b.toInt) :=
  ⟨rfl, rfl⟩

/-- Other numbers have the order of their floats, and are equal when this order says so. -/
lemma compare?_of_float? {v w : Value} {x y : Float} (hv : v.float? = some x)
    (hw : w.float? = some y) (notIntegers : ¬ ∃ a b, v = .integer a ∧ w = .integer b) :
    compare? v w = Number.compare? x y ∧
      equal v w = (Number.compare? x y == some .eq) := by
  constructor
  · cases v <;> cases w <;> simp_all [compare?, float?]
  · rw [equal, hv, hw, ← Number.beq_eq_compare?]

/-- Integers of magnitude below two to the 53rd do not collide. -/
lemma Collide.exists_large {v w : Value} (h : Collide v w) :
    ∃ n, (v = .integer n ∨ w = .integer n) ∧ 2 ^ 53 ≤ n.toInt.natAbs := by
  obtain ⟨a, b, rfl, rfl, different, same⟩ := h
  by_contra! small
  have equal := Number.eq_of_ofInt_beq (small a (.inl rfl)) (small b (.inr rfl)) same
  exact different (Int64.toInt_inj.mp equal)

/-- Comparable values have an order, and it says whether they are equal unless they collide. -/
lemma Comparable.exists_compare? {v w : Value} (h : Comparable v w) :
    ∃ o, compare? v w = some o ∧ ((equal v w = true ↔ o = .eq) ↔ ¬ Collide v w) := by
  obtain ⟨s, t, rfl, rfl⟩ | ⟨hv, hw⟩ := h
  · refine ⟨compare s t, rfl, iff_of_true ?_ ?_⟩
    · change (s == t) = true ↔ _
      rw [beq_iff_eq, Std.compare_eq_iff_eq]
    · rintro ⟨a, b, same, -⟩
      cases same
  · by_cases integers : ∃ a b, v = .integer a ∧ w = .integer b
    · obtain ⟨a, b, rfl, rfl⟩ := integers
      obtain ⟨order, equality⟩ := compare?_integer a b
      refine ⟨_, order, ?_⟩
      rw [equality, Std.compare_eq_iff_eq, Int64.toInt_inj]
      constructor
      · rintro agree ⟨a', b', ha, hb, different, same⟩
        cases ha
        cases hb
        exact different (agree.mp same)
      · intro apart
        refine ⟨fun same => ?_, ?_⟩
        · by_contra different
          exact apart ⟨a, b, rfl, rfl, different, same⟩
        · rintro rfl
          exact Number.beq_self_of_isNaN (Number.isNaN_ofInt _)
    · obtain ⟨x, hx, xNumber⟩ := hv.exists_float?
      obtain ⟨y, hy, yNumber⟩ := hw.exists_float?
      obtain ⟨order, equality⟩ := compare?_of_float? hx hy integers
      obtain ⟨o, found⟩ := Number.exists_compare?_eq xNumber yNumber
      refine ⟨o, order.trans found, iff_of_true ?_ ?_⟩
      · rw [equality, found, beq_iff_eq, Option.some.injEq]
      · rintro ⟨a, b, rfl, rfl, -⟩
        exact integers ⟨a, b, rfl, rfl⟩

end Value

namespace Expr

/-- The operator gives true for the two expressions. -/
def Holds (scope : Scope) (op : Operator) (x y : Expr) : Prop :=
  (Expr.binary op x y).eval scope = .ok (.boolean true)

/-- The comparisons of two expressions agree with each other. -/
structure Agree (scope : Scope) (x y : Expr) : Prop where
  /-- Every comparison is true or false. -/
  decided : ∀ op ∈ [Operator.equal, .notEqual, .less, .atMost, .greater, .atLeast],
    ∃ b, (Expr.binary op x y).eval scope = .ok (.boolean b)
  /-- Exactly one of `<`, `==` and `>` is true. -/
  trichotomy :
    (Holds scope .less x y ∧ ¬ Holds scope .equal x y ∧ ¬ Holds scope .greater x y) ∨
      (¬ Holds scope .less x y ∧ Holds scope .equal x y ∧ ¬ Holds scope .greater x y) ∨
      (¬ Holds scope .less x y ∧ ¬ Holds scope .equal x y ∧ Holds scope .greater x y)
  atMost : Holds scope .atMost x y ↔ Holds scope .less x y ∨ Holds scope .equal x y
  atLeast : Holds scope .atLeast x y ↔ Holds scope .greater x y ∨ Holds scope .equal x y
  notEqual : Holds scope .notEqual x y ↔ ¬ Holds scope .equal x y

variable {scope : Scope} {x y : Expr} {v w : Value}

/-- An operator is applied to the values of its operands. -/
lemma eval_binary (hx : x.eval scope = .ok v) (hy : y.eval scope = .ok w) (op : Operator) :
    (Expr.binary op x y).eval scope = refuse (op.apply v w) := by
  rw [eval, hx, hy]
  rfl

/-- Values with an order have all six comparisons. -/
lemma eval_comparison {o : Ordering} (hx : x.eval scope = .ok v) (hy : y.eval scope = .ok w)
    (order : v.compare? w = some o) :
    (Expr.binary .equal x y).eval scope = .ok (.boolean (v.equal w)) ∧
      (Expr.binary .notEqual x y).eval scope = .ok (.boolean (!v.equal w)) ∧
      (Expr.binary .less x y).eval scope = .ok (.boolean (o == .lt)) ∧
      (Expr.binary .atMost x y).eval scope = .ok (.boolean (o != .gt)) ∧
      (Expr.binary .greater x y).eval scope = .ok (.boolean (o == .gt)) ∧
      (Expr.binary .atLeast x y).eval scope = .ok (.boolean (o != .lt)) := by
  simp only [eval_binary hx hy, Operator.apply, Value.ordered, order, refuse, and_self]

/-- The comparisons of values with an order agree when it says whether the values are equal. -/
lemma agree_iff {o : Ordering} (hx : x.eval scope = .ok v) (hy : y.eval scope = .ok w)
    (order : v.compare? w = some o) : Agree scope x y ↔ (v.equal w = true ↔ o = .eq) := by
  obtain ⟨equal, notEqual, less, atMost, greater, atLeast⟩ := eval_comparison hx hy order
  have holdsEqual : Holds scope .equal x y ↔ v.equal w = true := by simp [Holds, equal]
  have holdsNotEqual : Holds scope .notEqual x y ↔ v.equal w = false := by simp [Holds, notEqual]
  have holdsLess : Holds scope .less x y ↔ o = .lt := by simp [Holds, less]
  have holdsAtMost : Holds scope .atMost x y ↔ o ≠ .gt := by simp [Holds, atMost]
  have holdsGreater : Holds scope .greater x y ↔ o = .gt := by simp [Holds, greater]
  have holdsAtLeast : Holds scope .atLeast x y ↔ o ≠ .lt := by simp [Holds, atLeast]
  constructor
  · intro agree
    have one := agree.trichotomy
    rw [holdsEqual, holdsLess, holdsGreater] at one
    cases o <;> simp_all
  · intro same
    constructor
    case decided =>
      simp only [List.forall_mem_cons]
      exact ⟨⟨_, equal⟩, ⟨_, notEqual⟩, ⟨_, less⟩, ⟨_, atMost⟩, ⟨_, greater⟩, ⟨_, atLeast⟩, nofun⟩
    case trichotomy =>
      rw [holdsEqual, holdsLess, holdsGreater, same]
      cases o <;> decide
    case atMost =>
      rw [holdsAtMost, holdsLess, holdsEqual, same]
      cases o <;> decide
    case atLeast =>
      rw [holdsAtLeast, holdsGreater, holdsEqual, same]
      cases o <;> decide
    case notEqual => rw [holdsNotEqual, holdsEqual, Bool.not_eq_true]

/-- The comparisons of two texts or of two numbers agree with each other exactly when these are not
two different integers with the same nearest float, and of such integers one has at least the
magnitude of two to the 53rd. -/
theorem comparisons_agree_iff (hx : x.eval scope = .ok v) (hy : y.eval scope = .ok w)
    (h : v.Comparable w) :
    (Agree scope x y ↔ ¬ v.Collide w) ∧
      (v.Collide w → ∃ n, (v = .integer n ∨ w = .integer n) ∧ 2 ^ 53 ≤ n.toInt.natAbs) := by
  obtain ⟨o, order, equality⟩ := h.exists_compare?
  exact ⟨(agree_iff hx hy order).trans equality, Value.Collide.exists_large⟩

/-- An integer and the float nearest to it agree, though the integer is no float. -/
theorem comparisons_agree_mixed :
    let v := Value.integer 9007199254740993
    let w := Value.float 9007199254740992
    v.Comparable w ∧ Agree (fun _ => none) (.literal v) (.literal w) := by
  intro v w
  have number : (9007199254740992 : Float).isNaN = false := by decide
  have comparable : v.Comparable w := .inr ⟨trivial, number⟩
  have apart : ¬ v.Collide w := fun ⟨a, b, _, integer, _⟩ => Value.noConfusion integer
  exact ⟨comparable, (comparisons_agree_iff rfl rfl comparable).1.mpr apart⟩

/-- The least positive integer that is no float is greater than the one before it, and equal to
it. -/
theorem neighbours_collide :
    let v := Value.integer 9007199254740993
    let w := Value.integer 9007199254740992
    v.Comparable w ∧ ¬ Agree (fun _ => none) (.literal v) (.literal w) := by
  intro v w
  refine ⟨.inr ⟨trivial, trivial⟩, fun agree => ?_⟩
  have greater : Holds (fun _ => none) .greater (.literal v) (.literal w) := by rfl
  have equal : Holds (fun _ => none) .equal (.literal v) (.literal w) := by rfl
  have := agree.trichotomy
  simp [greater, equal] at this

end Expr

end Stencil
