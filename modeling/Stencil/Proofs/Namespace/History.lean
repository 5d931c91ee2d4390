import Stencil.Namespace
import Stencil.Proofs.Text.Utf8
import Mathlib.Data.List.Dedup
import Mathlib.Data.List.Induction

/-!
# What a namespace holds after any changes

A change writes pairs of names and values, and some changes start anew.  The pairs that were written
since the last one of these (`written`) decide everything: a name has the value of the last pair
under it, and no other names are there (`changeAll_last_writer`).  The entries ascend by the bytes
of their names, so a namespace is told by its look-ups alone.
-/

namespace Stencil.Namespace

/-! ### The pairs that changes write -/

/-- The pairs that a change writes, in order. -/
def Change.pairs : Change → List (String × Value)
  | .clear => []
  | .set name v => [(name, v)]
  | .merge other => other.entries
  | .extend pairs | .collect pairs => pairs

/-- Whether a change drops what was written before it. -/
def Change.startsAnew : Change → Bool
  | .clear | .collect _ => true
  | .set _ _ | .merge _ | .extend _ => false

/-- The pairs written by changes, in order, since the last change that starts anew. -/
def written (changes : List Change) : List (String × Value) :=
  changes.foldl (fun before c => if c.startsAnew then c.pairs else before ++ c.pairs) []

/-- The last pair under the name gives it the value. -/
def LastPair (pairs : List (String × Value)) (name : String) (v : Value) : Prop :=
  ∃ earlier later, pairs = earlier ++ (name, v) :: later ∧ ∀ p ∈ later, p.1 ≠ name

variable {pairs : List (String × Value)} {name : String} {v : Value}

/-- What is written last is found first from the end. -/
lemma lookup_reverse_eq_some_iff : pairs.reverse.lookup name = some v ↔ LastPair pairs name v := by
  rw [List.lookup_eq_some_iff]
  constructor
  · rintro ⟨after, before, cut, others⟩
    refine ⟨before.reverse, after.reverse, ?_, fun p among => ?_⟩
    · rw [← List.reverse_reverse pairs, cut]
      simp
    · have other := others p (List.mem_reverse.mp among)
      exact (bne_iff_ne.mp other).symm
  · rintro ⟨earlier, later, rfl, others⟩
    refine ⟨later.reverse, earlier.reverse, by simp, fun p among => ?_⟩
    have other := others p (List.mem_reverse.mp among)
    exact bne_iff_ne.mpr other.symm

/-- A name is found exactly when some pair is under it. -/
lemma isSome_lookup_reverse_iff :
    (pairs.reverse.lookup name).isSome = true ↔ name ∈ pairs.map Prod.fst := by
  constructor
  · intro found
    obtain ⟨v, value⟩ := Option.isSome_iff_exists.mp found
    obtain ⟨earlier, later, rfl, -⟩ := lookup_reverse_eq_some_iff.mp value
    simp
  · intro among
    by_contra missing
    have none := Option.not_isSome_iff_eq_none.mp missing
    obtain ⟨p, member, rfl⟩ := List.mem_map.mp among
    have other := List.lookup_eq_none_iff.mp none p (List.mem_reverse.mpr member)
    simp at other

/-- The last change decides what was written before it counts for. -/
lemma written_concat (changes : List Change) (c : Change) :
    written (changes ++ [c]) =
      if c.startsAnew then c.pairs else written changes ++ c.pairs := by
  rw [written, List.foldl_concat, ← written]

/-! ### One change and all of them -/

/-- After a change a name has the value of the last pair under it, or else what it had before, if
the change does not start anew. -/
lemma get?_change (ns : Namespace) (c : Change) (name : String) :
    (ns.change c).get? name =
      (c.pairs.reverse.lookup name).or (if c.startsAnew then none else ns.get? name) := by
  cases c with
  | clear => rfl
  | set k v => exact Table.get?_insertAll ns [(k, v)] name
  | merge other => exact Table.get?_insertAll ns other.entries name
  | extend pairs => exact Table.get?_insertAll ns pairs name
  | collect pairs => exact Table.get?_insertAll .empty pairs name

/-- After changes a name has the value of the last pair under it. -/
lemma get?_changeAll (changes : List Change) (name : String) :
    (changeAll .empty changes).get? name = (written changes).reverse.lookup name := by
  induction changes using List.reverseRecOn with
  | nil => rfl
  | append_singleton changes c ih =>
    rw [changeAll, List.foldl_concat, ← changeAll, get?_change, ih, written_concat]
    cases c.startsAnew with
    | true => simp
    | false => simp [List.lookup_append]

/-! ### The names -/

/-- The names of a namespace ascend by their bytes. -/
lemma pairwise_utf8 (ns : Namespace) :
    ns.entries.Pairwise fun e f => Text.utf8 e.1 < Text.utf8 f.1 :=
  ns.ascending.imp Text.utf8_lt_utf8_iff.mpr

/-- No name occurs twice. -/
lemma nodup_keys (ns : Namespace) : ns.keys.Nodup := by
  have ascend : ns.keys.Pairwise (· < ·) := List.pairwise_map.mpr ns.ascending
  exact ascend.imp String.ne_of_lt

/-- The names are those that have a value. -/
lemma mem_keys_iff_contains (ns : Namespace) (name : String) :
    name ∈ ns.keys ↔ ns.contains name = true := by
  rw [Table.contains, Option.isSome_iff_exists, Table.keys, List.mem_map]
  constructor
  · rintro ⟨⟨k, v⟩, member, rfl⟩
    exact ⟨v, Table.get?_eq_some_of_mem member⟩
  · rintro ⟨v, found⟩
    exact ⟨(name, v), Table.mem_of_get?_eq_some found, rfl⟩

/-- After any changes of an empty namespace, a name has the value of the last pair written under it
since the last change that starts anew, and it is there if there is such a pair.  Setting a value
gives the one that it replaces.  The size is the number of different names written, the entries
strictly ascend by the bytes of their names, and changes that end with the same look-ups end with
the same entries. -/
theorem changeAll_last_writer (changes : List Change) :
    let ns := changeAll .empty changes
    (∀ name v, ns.get? name = some v ↔ LastPair (written changes) name v) ∧
    (∀ name v, ns.scope name = some v ↔ LastPair (written changes) name v) ∧
    (∀ name, ns.contains name = true ↔ name ∈ (written changes).map Prod.fst) ∧
    ns.size = ((written changes).map Prod.fst).dedup.length ∧
    (∀ name v, (∀ w, (ns.replace name v).1 = some w ↔ LastPair (written changes) name w) ∧
      (ns.replace name v).2 = changeAll .empty (changes ++ [.set name v])) ∧
    (ns.entries.Pairwise fun e f => Text.utf8 e.1 < Text.utf8 f.1) ∧
    ns.keys.Nodup ∧
    ∀ changes', (∀ name, ns.get? name = (changeAll .empty changes').get? name) →
      ns.entries = (changeAll .empty changes').entries := by
  intro ns
  have last (name : String) (v : Value) :
      ns.get? name = some v ↔ LastPair (written changes) name v := by
    rw [get?_changeAll, lookup_reverse_eq_some_iff]
  have contained (name : String) :
      ns.contains name = true ↔ name ∈ (written changes).map Prod.fst := by
    rw [Table.contains, get?_changeAll, isSome_lookup_reverse_iff]
  refine ⟨last, last, contained, ?_, fun name v => ⟨last name, ?_⟩, pairwise_utf8 ns,
    nodup_keys ns, fun changes' same => congrArg Table.entries (Table.ext_get? same)⟩
  · have names : ns.keys.Perm ((written changes).map Prod.fst).dedup := by
      refine (List.perm_ext_iff_of_nodup (nodup_keys ns) (List.nodup_dedup _)).mpr fun name => ?_
      rw [mem_keys_iff_contains, contained, List.mem_dedup]
    rw [← names.length_eq, Table.keys, List.length_map, Table.size]
  · rw [changeAll, List.foldl_concat]
    rfl

/-- A name that is set twice and names collected in another order come to the same entries. -/
theorem changeAll_last_writer_collected :
    let changes : List Change :=
      [.set "b" (.integer 1), .extend [("é", .integer 2), ("b", .integer 3)]]
    let changes' : List Change :=
      [.set "c" (.integer 4), .collect [("b", .integer 3), ("é", .integer 2)]]
    (∀ name, (changeAll .empty changes).get? name = (changeAll .empty changes').get? name) ∧
      (changeAll .empty changes).size = 2 ∧
      (changeAll .empty changes).entries = (changeAll .empty changes').entries := by
  intro changes changes'
  have same (name : String) :
      (changeAll .empty changes).get? name = (changeAll .empty changes').get? name := by
    rw [get?_changeAll, get?_changeAll]
    by_cases isB : name = "b"
    · subst isB
      rfl
    · simp [changes, changes', written, Change.startsAnew, Change.pairs, Table.lookup_cons_eq_ite,
        isB]
  obtain ⟨-, -, -, size, -, -, -, entries⟩ := changeAll_last_writer changes
  exact ⟨same, size, entries changes' same⟩

end Stencil.Namespace
