/-!
# Tables

A table holds at most one value for each key and lists its entries by strictly ascending key.  The
order is part of the type, so two tables with the same look-ups are equal (`Table.ext_get?`), and
every operation is described by its look-ups: `get?_insert`, `get?_filter`, `get?_insertAll`,
`get?_merge`.
-/

namespace Stencil

/-! ### The order of keys -/

/-- A strict linear order. -/
class KeyOrder (κ : Type) [LT κ] : Prop where
  /-- No key is below itself. -/
  lt_irrefl : ∀ a : κ, ¬ a < a
  /-- What is below a key is below the keys above it. -/
  lt_trans : ∀ {a b c : κ}, a < b → b < c → a < c
  /-- Of two different keys one is below the other. -/
  eq_of_not_lt : ∀ {a b : κ}, ¬ a < b → ¬ b < a → a = b

namespace KeyOrder

theorem eq_of_not_lt_of_linear {κ : Type} [LT κ] [LE κ] [Std.IsLinearOrder κ]
    [Std.LawfulOrderLT κ] {a b : κ} (h : ¬ a < b) (h' : ¬ b < a) : a = b :=
  Std.le_antisymm (Std.not_lt.1 h') (Std.not_lt.1 h)

theorem eq_of_not_lt_string {a b : String} (h : ¬ a < b) (h' : ¬ b < a) : a = b :=
  eq_of_not_lt_of_linear h h'

theorem eq_of_not_lt_strings {a b : List String} (h : ¬ a < b) (h' : ¬ b < a) : a = b :=
  eq_of_not_lt_of_linear h h'

theorem lt_irrefl_strings (a : List String) : ¬ a < a :=
  Std.lt_irrefl

theorem lt_trans_strings {a b c : List String} (h : a < b) (h' : b < c) : a < c :=
  Std.lt_trans h h'

instance : KeyOrder String := ⟨String.lt_irrefl, String.lt_trans, eq_of_not_lt_string⟩

instance : KeyOrder (List String) :=
  ⟨lt_irrefl_strings, lt_trans_strings, eq_of_not_lt_strings⟩

end KeyOrder

/-! ### Tables -/

/-- Entries by strictly ascending key. -/
structure Table (κ α : Type) [LT κ] where
  entries : List (κ × α)
  ascending : entries.Pairwise (fun a b => a.1 < b.1)

namespace Table

variable {κ α : Type} [LT κ]

/-- The table without entries. -/
def empty : Table κ α := ⟨[], .nil⟩

instance : Inhabited (Table κ α) := ⟨empty⟩

instance [DecidableEq κ] [DecidableEq α] : DecidableEq (Table κ α) := fun s t =>
  if h : s.entries = t.entries then
    isTrue (by cases s; cases t; cases h; rfl)
  else isFalse (fun e => h (e ▸ rfl))

/-- The number of entries. -/
def size (t : Table κ α) : Nat := t.entries.length

/-- Whether there is no entry. -/
def isEmpty (t : Table κ α) : Bool := t.entries.isEmpty

/-- The keys, ascending. -/
def keys (t : Table κ α) : List κ := t.entries.map Prod.fst

/-- The value of a key. -/
def get? [DecidableEq κ] (t : Table κ α) (k : κ) : Option α := t.entries.lookup k

/-- Whether a key has a value. -/
def contains [DecidableEq κ] (t : Table κ α) (k : κ) : Bool := (t.get? k).isSome

/-- The entries whose keys satisfy `p`. -/
def filter (t : Table κ α) (p : κ → Bool) : Table κ α :=
  ⟨t.entries.filter (fun e => p e.1), t.ascending.filter _⟩

/-- The table without the entry of one key. -/
def erase [DecidableEq κ] (t : Table κ α) (k : κ) : Table κ α :=
  t.filter (fun l => l != k)

/-! ### Inserting -/

section Insert

variable [DecidableLT κ]

/-- Ascending entries with the value of one key set. -/
def insertEntry (k : κ) (v : α) : List (κ × α) → List (κ × α)
  | [] => [(k, v)]
  | e :: rest =>
    if k < e.1 then (k, v) :: e :: rest
    else if e.1 < k then e :: insertEntry k v rest
    else (k, v) :: rest

theorem mem_insertEntry {k : κ} {v : α} {e : κ × α} {es : List (κ × α)}
    (h : e ∈ insertEntry k v es) : e = (k, v) ∨ e ∈ es := by
  induction es with
  | nil => simpa [insertEntry] using h
  | cons d rest ih =>
    rw [insertEntry] at h
    split at h
    · simpa using h
    · split at h
      · rcases List.mem_cons.1 h with rfl | h
        · simp
        · exact (ih h).imp id (List.mem_cons_of_mem _)
      · rcases List.mem_cons.1 h with rfl | h
        · simp
        · exact .inr (List.mem_cons_of_mem _ h)

variable [KeyOrder κ]

theorem pairwise_insertEntry (k : κ) (v : α) {es : List (κ × α)}
    (h : es.Pairwise (fun a b => a.1 < b.1)) :
    (insertEntry k v es).Pairwise (fun a b => a.1 < b.1) := by
  induction es with
  | nil => simp [insertEntry]
  | cons e rest ih =>
    obtain ⟨first, others⟩ := List.pairwise_cons.1 h
    rw [insertEntry]
    split
    · next lower =>
      refine List.pairwise_cons.2 ⟨fun d hd => ?_, h⟩
      rcases List.mem_cons.1 hd with rfl | hd
      · exact lower
      · exact KeyOrder.lt_trans lower (first d hd)
    · split
      · next higher =>
        refine List.pairwise_cons.2 ⟨fun d hd => ?_, ih others⟩
        rcases mem_insertEntry hd with rfl | hd
        · exact higher
        · exact first d hd
      · next notLower notHigher =>
        have same := KeyOrder.eq_of_not_lt notLower notHigher
        exact List.pairwise_cons.2 ⟨fun d hd => same ▸ first d hd, others⟩

/-- The table with the value of one key set. -/
def insert (t : Table κ α) (k : κ) (v : α) : Table κ α :=
  ⟨insertEntry k v t.entries, pairwise_insertEntry k v t.ascending⟩

/-- The table with every pair of a list inserted in turn. -/
def insertAll (t : Table κ α) (pairs : List (κ × α)) : Table κ α :=
  pairs.foldl (fun t p => t.insert p.1 p.2) t

/-- The table of a list of pairs; the last pair of a key counts. -/
def ofList (pairs : List (κ × α)) : Table κ α := empty.insertAll pairs

/-- Both tables in one; where both have a key, the second wins. -/
def merge (t u : Table κ α) : Table κ α := t.insertAll u.entries

end Insert

/-! ### Look-ups -/

section Lookup

variable [DecidableEq κ]

omit [LT κ] in
/-- Looking a key up in a list of entries, one entry at a time. -/
theorem lookup_cons_eq_ite (k : κ) (e : κ × α) (es : List (κ × α)) :
    (e :: es).lookup k = if k = e.1 then some e.2 else es.lookup k := by
  obtain ⟨l, v⟩ := e
  by_cases h : k = l
  · simp [h]
  · have : (k == l) = false := by simpa using h
    simp [List.lookup_cons, h, this]

@[simp] theorem get?_empty (k : κ) : (empty : Table κ α).get? k = none := rfl

theorem get?_filter (t : Table κ α) (p : κ → Bool) (k : κ) :
    (t.filter p).get? k = if p k then t.get? k else none := by
  obtain ⟨es, ascending⟩ := t
  simp only [filter, get?]
  clear ascending
  induction es with
  | nil => simp
  | cons e rest ih =>
    rw [List.filter_cons]
    by_cases hk : k = e.1
    · subst hk
      by_cases hp : p e.1
      · simp only [hp, if_true, lookup_cons_eq_ite]
      · simp only [hp, ih, Bool.false_eq_true, if_false]
    · by_cases hp : p e.1 <;> simp [hp, lookup_cons_eq_ite, hk, ih]

@[simp] theorem get?_erase (t : Table κ α) (k l : κ) :
    (t.erase k).get? l = if l = k then none else t.get? l := by
  rw [erase, get?_filter]
  by_cases h : l = k <;> simp [h]

theorem mem_of_get?_eq_some {t : Table κ α} {k : κ} {v : α} (h : t.get? k = some v) :
    (k, v) ∈ t.entries := by
  obtain ⟨es, ascending⟩ := t
  simp only [get?] at h ⊢
  clear ascending
  induction es with
  | nil => simp at h
  | cons e rest ih =>
    rw [lookup_cons_eq_ite] at h
    split at h
    · next same => simp [same, ← Option.some.inj h]
    · exact List.mem_cons_of_mem _ (ih h)

variable [KeyOrder κ] [DecidableLT κ]

omit [DecidableLT κ] in
theorem get?_eq_some_of_mem {t : Table κ α} {k : κ} {v : α} (h : (k, v) ∈ t.entries) :
    t.get? k = some v := by
  obtain ⟨es, ascending⟩ := t
  simp only [get?] at h ⊢
  induction es with
  | nil => simp at h
  | cons e rest ih =>
    obtain ⟨first, others⟩ := List.pairwise_cons.1 ascending
    rw [lookup_cons_eq_ite]
    rcases List.mem_cons.1 h with rfl | h
    · simp
    · have : k ≠ e.1 := fun same => KeyOrder.lt_irrefl e.1 (same ▸ first _ h)
      rw [if_neg this]
      exact ih others h

omit [DecidableLT κ] in
/-- A table lists exactly the pairs that it looks up. -/
theorem mem_entries_iff {t : Table κ α} {k : κ} {v : α} :
    (k, v) ∈ t.entries ↔ t.get? k = some v :=
  ⟨get?_eq_some_of_mem, mem_of_get?_eq_some⟩

omit [DecidableLT κ] in
/-- Tables with the same look-ups are equal. -/
theorem ext_get? {t u : Table κ α} (h : ∀ k, t.get? k = u.get? k) : t = u := by
  have same : ∀ e, e ∈ t.entries ↔ e ∈ u.entries := fun e => by
    rw [mem_entries_iff, mem_entries_iff, h]
  obtain ⟨es, hs⟩ := t
  obtain ⟨fs, gs⟩ := u
  suffices es = fs by subst this; rfl
  clear h
  simp only at same
  induction es generalizing fs with
  | nil => exact (List.eq_nil_iff_forall_not_mem.2 fun e he => by simpa using (same e).2 he).symm
  | cons e rest ih =>
    cases fs with
    | nil => exact absurd ((same e).1 List.mem_cons_self) (by simp)
    | cons f others =>
      obtain ⟨he, hrest⟩ := List.pairwise_cons.1 hs
      obtain ⟨hf, hothers⟩ := List.pairwise_cons.1 gs
      have heads : e = f := by
        rcases List.mem_cons.1 ((same e).1 List.mem_cons_self) with h | h
        · exact h
        · rcases List.mem_cons.1 ((same f).2 List.mem_cons_self) with h' | h'
          · exact h'.symm
          · exact absurd (KeyOrder.lt_trans (hf e h) (he f h')) (KeyOrder.lt_irrefl _)
      subst heads
      refine congrArg _ (ih hrest _ hothers fun d => ⟨fun hd => ?_, fun hd => ?_⟩)
      · rcases List.mem_cons.1 ((same d).1 (List.mem_cons_of_mem _ hd)) with rfl | h
        · exact absurd (he d hd) (KeyOrder.lt_irrefl _)
        · exact h
      · rcases List.mem_cons.1 ((same d).2 (List.mem_cons_of_mem _ hd)) with rfl | h
        · exact absurd (hf d hd) (KeyOrder.lt_irrefl _)
        · exact h

@[simp] theorem get?_insert (t : Table κ α) (k : κ) (v : α) (l : κ) :
    (t.insert k v).get? l = if l = k then some v else t.get? l := by
  obtain ⟨es, ascending⟩ := t
  simp only [insert, get?]
  clear ascending
  induction es with
  | nil => simp [insertEntry, lookup_cons_eq_ite]
  | cons e rest ih =>
    rw [insertEntry]
    split
    · rw [lookup_cons_eq_ite]
    · split
      · next higher =>
        rw [lookup_cons_eq_ite, ih, lookup_cons_eq_ite]
        by_cases h : l = e.1
        · have : l ≠ k := fun hk => KeyOrder.lt_irrefl e.1 (by rwa [← hk, h] at higher)
          rw [if_pos h, if_neg this, if_pos h]
        · simp only [h, if_false]
      · next notLower notHigher =>
        have same := KeyOrder.eq_of_not_lt notLower notHigher
        simp only [lookup_cons_eq_ite, ← same]
        by_cases h : l = k <;> simp [h]

/-- The later of two values of one key counts. -/
theorem insert_insert (t : Table κ α) (k : κ) (v w : α) :
    (t.insert k v).insert k w = t.insert k w := by
  apply ext_get?
  intro l
  by_cases h : l = k <;> simp [h]

/-- Setting a value that a key has already changes nothing. -/
theorem insert_of_get?_eq_some {t : Table κ α} {k : κ} {v : α} (h : t.get? k = some v) :
    t.insert k v = t := by
  apply ext_get?
  intro l
  by_cases same : l = k
  · simp [same, h]
  · simp [same]

/-- An entry for a new key is taken back by erasing it. -/
theorem erase_insert {t : Table κ α} {k : κ} (h : t.get? k = none) (v : α) :
    (t.insert k v).erase k = t := by
  apply ext_get?
  intro l
  by_cases same : l = k
  · simp [same, h]
  · simp [same]

theorem get?_insertAll (t : Table κ α) (pairs : List (κ × α)) (k : κ) :
    (t.insertAll pairs).get? k = (pairs.reverse.lookup k).or (t.get? k) := by
  induction pairs generalizing t with
  | nil => simp [insertAll]
  | cons p rest ih =>
    have step : t.insertAll (p :: rest) = (t.insert p.1 p.2).insertAll rest := rfl
    rw [step, ih, get?_insert, List.reverse_cons, List.lookup_append, Option.or_assoc]
    congr 1
    by_cases h : k = p.1 <;> simp [lookup_cons_eq_ite, h]

omit [DecidableLT κ] in
/-- Looking a key up in the entries of a table, in any order. -/
theorem lookup_of_perm {t : Table κ α} {pairs : List (κ × α)} (h : pairs.Perm t.entries) (k : κ) :
    pairs.lookup k = t.get? k := by
  have same (v : α) : (k, v) ∈ pairs ↔ t.get? k = some v := h.mem_iff.trans mem_entries_iff
  cases found : pairs.lookup k with
  | some v =>
    obtain ⟨before, after, rfl, -⟩ := List.lookup_eq_some_iff.1 found
    exact ((same v).1 (by simp)).symm
  | none =>
    cases held : t.get? k with
    | none => rfl
    | some v =>
      have other := List.lookup_eq_none_iff.1 found (k, v) ((same v).2 held)
      simp at other

/-- The entries of a table can be inserted in any order. -/
theorem get?_insertAll_of_perm (t : Table κ α) {u : Table κ α} {pairs : List (κ × α)}
    (h : pairs.Perm u.entries) (k : κ) :
    (t.insertAll pairs).get? k = (u.get? k).or (t.get? k) := by
  rw [get?_insertAll, lookup_of_perm ((List.reverse_perm pairs).trans h)]

@[simp] theorem get?_merge (t u : Table κ α) (k : κ) :
    (t.merge u).get? k = (u.get? k).or (t.get? k) :=
  get?_insertAll_of_perm t (.refl _) k

end Lookup

end Table

end Stencil
