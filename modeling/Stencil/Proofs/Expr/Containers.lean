import Stencil.Proofs.Expr.Comparisons

/-!
# Equality of containers

Two sequences are equal when they have the same length and the items at each index are, and two maps
when they have the same keys and the values at each key are.  But the elements are compared by their
structure, so that it is not enough that `==` holds of them: they must not be an integer and a
float, nor two different integers that share a float (`Identical`).  Membership asks for `==`
alone.  `equal_containers_iff` puts this together.
-/

namespace Stencil

namespace Table

variable {α : Type} {R : α → α → Prop} {s t : Table String α}

/-! ### Tables key by key -/

/-- Tables with the same keys, whose values at each key are related. -/
structure Fieldwise (R : α → α → Prop) (s t : Table String α) : Prop where
  keys : ∀ k, s.contains k = t.contains k
  values : ∀ k v w, s.get? k = some v → t.get? k = some w → R v w

lemma mem_keys_iff {k : String} : k ∈ t.keys ↔ t.contains k = true := by
  rw [keys, contains, Option.isSome_iff_exists, List.mem_map]
  constructor
  · rintro ⟨e, listed, rfl⟩
    exact ⟨e.2, mem_entries_iff.mp listed⟩
  · rintro ⟨v, found⟩
    exact ⟨(k, v), mem_entries_iff.mpr found, rfl⟩

/-- Tables that have the same keys list them alike. -/
lemma keys_eq_of_contains (h : ∀ k, s.contains k = t.contains k) : s.keys = t.keys := by
  have ascending (u : Table String α) : u.keys.Pairwise (· < ·) := List.pairwise_map.mpr u.ascending
  refine (ascending s).eq_of_mem_iff (ascending t) fun k => ?_
  rw [mem_keys_iff, mem_keys_iff, h]

/-- Entries that are related one by one give related look-ups. -/
lemma lookup_related {es fs : List (String × α)}
    (h : List.Forall₂ (fun e f => e.1 = f.1 ∧ R e.2 f.2) es fs) (k : String) :
    (es.lookup k).isSome = (fs.lookup k).isSome ∧
      ∀ v w, es.lookup k = some v → fs.lookup k = some w → R v w := by
  induction h with
  | nil => exact ⟨rfl, nofun⟩
  | cons related _ ih =>
    rw [lookup_cons_eq_ite, lookup_cons_eq_ite, ← related.1]
    split
    · refine ⟨rfl, fun v w hv hw => ?_⟩
      cases hv
      cases hw
      exact related.2
    · exact ih

/-- Tables are related key by key when their entries are, one by one. -/
lemma forall₂_entries_iff :
    List.Forall₂ (fun e f => e.1 = f.1 ∧ R e.2 f.2) s.entries t.entries ↔ Fieldwise R s t := by
  constructor
  · intro h
    exact ⟨fun k => (lookup_related h k).1, fun k => (lookup_related h k).2⟩
  · intro h
    have sameKeys := keys_eq_of_contains h.keys
    refine List.forall₂_iff_get.mpr ⟨?_, fun i hi hj => ?_⟩
    · simpa [keys] using congrArg List.length sameKeys
    · have key : s.entries[i].1 = t.entries[i].1 := by
        simpa [keys, hi, hj] using congrArg (fun ks => ks[i]?) sameKeys
      have left := mem_entries_iff.mp (List.getElem_mem hi)
      have right := mem_entries_iff.mp (List.getElem_mem hj)
      exact ⟨key, h.values _ _ _ left (key ▸ right)⟩

end Table

namespace Value

variable {v w : Value}

/-- The operator `==` gives true for the two values. -/
def Equals (v w : Value) : Prop := Operator.equal.apply v w = .ok (.boolean true)

lemma equals_iff : Equals v w ↔ equal v w = true := by simp [Equals, Operator.apply]

/-- The values are an integer and a float, or two different integers that share a float. -/
def Unlike (v w : Value) : Prop :=
  (v.kind = .integer ∧ w.kind = .float) ∨ (v.kind = .float ∧ w.kind = .integer) ∨ Collide v w

/-- The values are equal, and they are no numbers that differ in spite of it. -/
structure Identical (v w : Value) : Prop where
  equals : Equals v w
  alike : ¬ Unlike v w

/-! ### Structural equality -/

/-- Values that are not both numbers are compared by their structure. -/
lemma equal_eq_same (h : v.float? = none ∨ w.float? = none) : equal v w = same v w := by
  rw [equal]
  split
  · simp_all
  · rfl

/-- A value that has a nearest float is an integer or a float. -/
lemma integer_or_float (h : v.float? ≠ none) : (∃ n, v = .integer n) ∨ ∃ x, v = .float x := by
  cases v <;> simp_all [float?]

/-- Only numbers are unlike. -/
lemma Unlike.float?_ne_none (h : Unlike v w) : v.float? ≠ none ∧ w.float? ≠ none := by
  obtain ⟨hv, hw⟩ | ⟨hv, hw⟩ | ⟨a, b, rfl, rfl, -⟩ := h
  · cases v <;> cases w <;> simp_all [kind, float?]
  · cases v <;> cases w <;> simp_all [kind, float?]
  · simp [float?]

/-- Two integers are the same when they share a float and are not different. -/
lemma identical_integer_iff {a b : Int64} : Identical (.integer a) (.integer b) ↔ a = b := by
  constructor
  · intro h
    by_contra different
    have shared := equals_iff.mp h.equals
    exact h.alike (.inr (.inr ⟨a, b, rfl, rfl, different, shared⟩))
  · rintro rfl
    constructor
    case equals => exact equals_iff.mpr (Number.beq_self_of_isNaN (Number.isNaN_ofInt a.toInt))
    case alike =>
      rintro (⟨-, kind⟩ | ⟨kind, -⟩ | ⟨a', b', ha, hb, different, -⟩)
      · cases kind
      · cases kind
      · cases ha
        cases hb
        exact different rfl

/-- Two floats are the same when they are equal. -/
lemma identical_float_iff {a b : Float} :
    Identical (.float a) (.float b) ↔ Equals (.float a) (.float b) := by
  refine ⟨Identical.equals, fun equals => ⟨equals, ?_⟩⟩
  rintro (⟨kind, -⟩ | ⟨-, kind⟩ | ⟨a', b', ha, -⟩)
  · cases kind
  · cases kind
  · cases ha

/-- Structural equality holds of the identical values. -/
lemma same_iff : same v w = true ↔ Identical v w := by
  by_cases other : v.float? = none ∨ w.float? = none
  · have alike : ¬ Unlike v w := fun h => other.elim h.float?_ne_none.1 h.float?_ne_none.2
    rw [← equal_eq_same other, ← equals_iff]
    exact ⟨fun equals => ⟨equals, alike⟩, Identical.equals⟩
  · rw [not_or] at other
    obtain ⟨a, rfl⟩ | ⟨a, rfl⟩ := integer_or_float other.1 <;>
      obtain ⟨b, rfl⟩ | ⟨b, rfl⟩ := integer_or_float other.2
    · rw [identical_integer_iff, same, beq_iff_eq]
    · exact iff_of_false (by simp [same]) fun h => h.alike (.inl ⟨rfl, rfl⟩)
    · exact iff_of_false (by simp [same]) fun h => h.alike (.inr (.inl ⟨rfl, rfl⟩))
    · rw [identical_float_iff, equals_iff]
      rfl

/-! ### Containers -/

/-- Sequences of the same length, whose items at each index are related. -/
structure Itemwise (R : Value → Value → Prop) (xs ys : List Value) : Prop where
  length : xs.length = ys.length
  items : ∀ i (hi : i < xs.length) (hj : i < ys.length), R xs[i] ys[i]

/-- Sequences are structurally equal when their items are, one by one. -/
lemma sameItems_iff_forall₂ {xs ys : List Value} :
    sameItems xs ys = true ↔ List.Forall₂ (fun v w => same v w = true) xs ys := by
  induction xs generalizing ys with
  | nil => cases ys <;> simp [sameItems]
  | cons v xs ih => cases ys <;> simp [sameItems, ih]

/-- Maps are structurally equal when their fields are, one by one. -/
lemma sameFields_iff_forall₂ {es fs : List (String × Value)} :
    sameFields es fs = true ↔
      List.Forall₂ (fun e f => e.1 = f.1 ∧ same e.2 f.2 = true) es fs := by
  induction es generalizing fs with
  | nil => cases fs <;> simp [sameFields]
  | cons e es ih => cases fs <;> simp [sameFields, ih, and_assoc]

/-- Two sequences are equal when their items are identical. -/
lemma equals_sequence_iff {xs ys : List Value} :
    Equals (.sequence xs) (.sequence ys) ↔ Itemwise Identical xs ys := by
  rw [equals_iff, equal_eq_same (.inl rfl), same, sameItems_iff_forall₂, List.forall₂_iff_get]
  simp only [same_iff, List.get_eq_getElem]
  exact ⟨fun h => ⟨h.1, h.2⟩, fun h => ⟨h.length, h.items⟩⟩

/-- Two maps are equal when their fields are identical. -/
lemma equals_ofTable_iff {s t : Table String Value} :
    Equals (.ofTable s) (.ofTable t) ↔ Table.Fieldwise Identical s t := by
  rw [equals_iff, equal_eq_same (.inl rfl), ofTable, ofTable, same, sameFields_iff_forall₂]
  simp only [same_iff]
  exact Table.forall₂_entries_iff

/-- What is equal to an item is a member of a sequence. -/
lemma member_sequence_iff {ys : List Value} :
    Operator.member.apply v (.sequence ys) = .ok (.boolean true) ↔ ∃ item ∈ ys, Equals item v := by
  simp only [equals_iff, ← List.any_eq_true]
  change Except.ok (Value.boolean (ys.any fun item => equal item v)) = _ ↔ _
  rw [Except.ok.injEq, boolean.injEq]

end Value

namespace Expr

open Value

variable {scope : Scope} {x y : Expr}

/-- An operator that is not refused gives for expressions what it gives for their values. -/
lemma holds_iff {v w : Value} (hx : x.eval scope = .ok v) (hy : y.eval scope = .ok w)
    (op : Operator) : Holds scope op x y ↔ op.apply v w = .ok (.boolean true) := by
  rw [Holds, eval_binary hx hy]
  cases op.apply v w <;> simp [refuse]

/-- Two sequences are equal exactly when they have the same length and the items at each index are
identical: `==` holds of them, and they are neither an integer and a float nor two different
integers that share a float.  Two maps are equal exactly when they have the same keys and identical
values at each key.  A value is a member of a sequence exactly when `==` holds of an item and the
value. -/
theorem equal_containers_iff (scope : Scope) (x y : Expr) :
    (∀ xs ys, x.eval scope = .ok (.sequence xs) → y.eval scope = .ok (.sequence ys) →
        (Holds scope .equal x y ↔ Itemwise Identical xs ys)) ∧
      (∀ s t, x.eval scope = .ok (.ofTable s) → y.eval scope = .ok (.ofTable t) →
        (Holds scope .equal x y ↔ Table.Fieldwise Identical s t)) ∧
      (∀ v ys, x.eval scope = .ok v → y.eval scope = .ok (.sequence ys) →
        (Holds scope .member x y ↔ ∃ item ∈ ys, Equals item v)) := by
  refine ⟨fun xs ys hx hy => ?sequences, fun s t hx hy => ?maps, fun v ys hx hy => ?members⟩
  case sequences => exact (holds_iff hx hy .equal).trans equals_sequence_iff
  case maps => exact (holds_iff hx hy .equal).trans equals_ofTable_iff
  case members => exact (holds_iff hx hy .member).trans member_sequence_iff

/-- The neighbours that share a float are members of each other's sequences, but neither their
sequences nor their maps are equal; a sequence of them is equal to itself. -/
theorem equal_containers_neighbours :
    let v := Value.integer 9007199254740993
    let w := Value.integer 9007199254740992
    let map (u : Value) := Expr.literal (.ofTable (Table.empty.insert "n" u))
    let sequence (us : List Value) := Expr.literal (.sequence us)
    Holds (fun _ => none) .member (.literal v) (sequence [w]) ∧
      ¬ Holds (fun _ => none) .equal (sequence [v]) (sequence [w]) ∧
      ¬ Holds (fun _ => none) .equal (map v) (map w) ∧
      Holds (fun _ => none) .equal (sequence [v, w]) (sequence [v, w]) := by
  intro v w map sequence
  have equals : Equals w v := by rfl
  have unlike : Unlike v w := .inr (.inr ⟨_, _, rfl, rfl, by decide, by decide⟩)
  refine ⟨?_, fun h => ?_, fun h => ?_, ?_⟩
  · exact ((equal_containers_iff _ _ _).2.2 v [w] rfl rfl).mpr ⟨w, by simp, equals⟩
  · have items := ((equal_containers_iff _ _ _).1 [v] [w] rfl rfl).mp h
    exact (items.items 0 (by decide) (by decide)).alike unlike
  · have fields := ((equal_containers_iff _ _ _).2.1 _ _ rfl rfl).mp h
    exact (fields.values "n" v w (by simp) (by simp)).alike unlike
  · refine ((equal_containers_iff _ _ _).1 [v, w] [v, w] rfl rfl).mpr ⟨rfl, fun i hi hj => ?_⟩
    obtain rfl | rfl : i = 0 ∨ i = 1 := by
      simp only [List.length_cons, List.length_nil] at hi
      omega
    · exact identical_integer_iff.mpr rfl
    · exact identical_integer_iff.mpr rfl

/-- The integer one is equal to the float one, which makes it a member of the sequence of the float,
but the sequences of the one and of the other are not equal. -/
theorem one_items_equal :
    let x := Expr.literal (.integer 1)
    let y := Expr.literal (.float 1)
    Itemwise Equals [.integer 1] [.float 1] ∧
      Holds (fun _ => none) .equal x y ∧ Holds (fun _ => none) .member x (.sequence [y]) ∧
      ¬ Holds (fun _ => none) .equal (.sequence [x]) (.sequence [y]) := by
  intro x y
  have equals : Equals (.integer 1) (.float 1) := by rfl
  have unequal : (Expr.binary .equal (.sequence [x]) (.sequence [y])).eval (fun _ => none) =
      .ok (.boolean false) := by rfl
  refine ⟨⟨rfl, fun i hi hj => ?_⟩, by rfl, by rfl, fun h => ?_⟩
  · obtain rfl : i = 0 := by simpa using hi
    exact equals
  · rw [Holds, unequal] at h
    cases h

end Expr

end Stencil
