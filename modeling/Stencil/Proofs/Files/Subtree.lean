import Stencil.Proofs.Files.Paths
import Stencil.Proofs.Files.Walk

/-!
# What a directory holds

`FileTree.under` lists everything that a directory holds at any depth, with the names that lead
there from the directory.  The order of locations makes this list the order of a depth-first visit
by ascending names: each entry of the directory is followed by what it holds (`under_eq_flatMap`).
For this the tree has to be well formed, that is, its entries stand in directories.
-/

namespace Stencil

/-! ### Sorted entries -/

/-- Tables with the same entries are equal. -/
lemma Table.ext_mem {κ α : Type} [LT κ] [DecidableEq κ] [KeyOrder κ] {t u : Table κ α}
    (h : ∀ k v, (k, v) ∈ t.entries ↔ (k, v) ∈ u.entries) : t = u := by
  refine Table.ext_get? fun k => Option.ext fun v => ?_
  rw [← Table.mem_entries_iff, ← Table.mem_entries_iff, h]

/-- Entries in strictly ascending order are determined by which they are. -/
lemma eq_of_pairwise_of_mem {κ α : Type} [LT κ] [DecidableEq κ] [KeyOrder κ]
    {es fs : List (κ × α)} (hes : es.Pairwise (fun a b => a.1 < b.1))
    (hfs : fs.Pairwise (fun a b => a.1 < b.1)) (h : ∀ k v, (k, v) ∈ es ↔ (k, v) ∈ fs) : es = fs :=
  congrArg Table.entries (Table.ext_mem (t := ⟨es, hes⟩) (u := ⟨fs, hfs⟩) h)

/-- Locations in one directory are ordered by their names from there on. -/
lemma append_lt_append_iff (dir rel rel' : List String) :
    dir ++ rel < dir ++ rel' ↔ rel < rel' := by
  induction dir with
  | nil => rfl
  | cons name dir ih => rw [List.cons_append, List.cons_append, List.cons_lt_cons_self, ih]

namespace FileTree

variable {t u : FileTree} {dir : Location} {rel : List String} {name : String} {e : Entry}

/-! ### Listings -/

/-- What a directory holds at any depth, by the names that lead there. -/
def under (t : FileTree) (dir : Location) : List (Location × Entry) :=
  t.entries.filterMap fun p =>
    if dir <+: p.1 ∧ dir ≠ p.1 then some (p.1.drop dir.length, p.2) else none

/-- A directory holds the entries whose locations go on from its own. -/
lemma mem_under_iff : (rel, e) ∈ t.under dir ↔ rel ≠ [] ∧ t.get? (dir ++ rel) = some e := by
  unfold under
  rw [List.mem_filterMap]
  constructor
  · rintro ⟨⟨loc, e'⟩, mem, found⟩
    dsimp only at found
    split at found
    · next inside =>
      obtain ⟨⟨rest, rfl⟩, other⟩ := inside
      rw [List.drop_left] at found
      cases found
      refine ⟨?_, Table.mem_entries_iff.mp mem⟩
      rintro rfl
      exact other (List.append_nil dir).symm
    · cases found
  · rintro ⟨nonempty, entry⟩
    refine ⟨(dir ++ rel, e), Table.mem_entries_iff.mpr entry, ?_⟩
    have other : dir ≠ dir ++ rel := by simpa using nonempty
    rw [if_pos ⟨List.prefix_append dir rel, other⟩, List.drop_left]

/-- What a directory holds is listed in strictly ascending order. -/
lemma pairwise_under (t : FileTree) (dir : Location) :
    (t.under dir).Pairwise (fun p q => p.1 < q.1) := by
  refine t.ascending.filterMap _ ?_
  rintro ⟨loc, e⟩ ⟨loc', e'⟩ lower p hp q hq
  dsimp only at hp hq
  split at hp
  · next inside =>
    split at hq
    · next inside' =>
      obtain ⟨⟨rest, rfl⟩, -⟩ := inside
      obtain ⟨⟨rest', rfl⟩, -⟩ := inside'
      rw [List.drop_left] at hp hq
      cases hp
      cases hq
      exact (append_lt_append_iff dir rest rest').mp lower
    · cases hq
  · cases hp

/-- An entry has a name in the directory that its location goes on from. -/
lemma nameIn_eq_some_iff {loc : Location} : nameIn dir loc = some name ↔ loc = dir ++ [name] := by
  unfold nameIn
  rcases List.eq_nil_or_concat loc with rfl | ⟨above, last, rfl⟩
  · simp
  · rw [List.concat_eq_append, List.getLast?_concat, List.dropLast_concat]
    constructor
    · intro h
      dsimp only at h
      split at h
      · next same =>
        cases h
        rw [same]
      · cases h
    · intro h
      obtain ⟨rfl, same⟩ := List.append_inj' h rfl
      cases same
      exact if_pos rfl

/-- The entries of a directory are those one name further. -/
lemma mem_children_iff : (name, e) ∈ t.children dir ↔ t.get? (dir ++ [name]) = some e := by
  unfold children
  rw [List.mem_filterMap]
  constructor
  · rintro ⟨⟨loc, e'⟩, mem, found⟩
    obtain ⟨name', isName, same⟩ := Option.map_eq_some_iff.mp found
    cases same
    rw [← nameIn_eq_some_iff.mp isName]
    exact Table.mem_entries_iff.mp mem
  · intro entry
    refine ⟨(dir ++ [name], e), Table.mem_entries_iff.mpr entry, ?_⟩
    dsimp only
    rw [nameIn_eq_some_iff.mpr rfl]
    rfl

/-- The entries of a directory are listed by strictly ascending names. -/
lemma pairwise_children (t : FileTree) (dir : Location) :
    (t.children dir).Pairwise (fun p q => p.1 < q.1) := by
  refine t.ascending.filterMap _ ?_
  rintro ⟨loc, e⟩ ⟨loc', e'⟩ lower p hp q hq
  obtain ⟨name, isName, rfl⟩ := Option.map_eq_some_iff.mp hp
  obtain ⟨name', isName', rfl⟩ := Option.map_eq_some_iff.mp hq
  rw [nameIn_eq_some_iff.mp isName, nameIn_eq_some_iff.mp isName'] at lower
  have ordered := (append_lt_append_iff dir [name] [name']).mp lower
  rcases List.cons_lt_cons_iff.mp ordered with less | ⟨-, less⟩
  · exact less
  · exact absurd less (List.not_lt_nil _)

/-- Directories that hold the same have the same entries. -/
lemma children_congr (h : t.under dir = u.under dir) : t.children dir = u.children dir := by
  refine eq_of_pairwise_of_mem (pairwise_children t dir) (pairwise_children u dir) fun name e => ?_
  have same : ([name], e) ∈ t.under dir ↔ ([name], e) ∈ u.under dir := by rw [h]
  rw [mem_under_iff, mem_under_iff] at same
  rw [mem_children_iff, mem_children_iff]
  simpa using same

/-- Trees that agree on all that a directory holds list the same. -/
lemma under_congr (h : ∀ rel, rel ≠ [] → t.get? (dir ++ rel) = u.get? (dir ++ rel)) :
    t.under dir = u.under dir := by
  refine eq_of_pairwise_of_mem (pairwise_under t dir) (pairwise_under u dir) fun rel e => ?_
  rw [mem_under_iff, mem_under_iff]
  constructor
  · rintro ⟨nonempty, entry⟩
    exact ⟨nonempty, h rel nonempty ▸ entry⟩
  · rintro ⟨nonempty, entry⟩
    exact ⟨nonempty, (h rel nonempty).symm ▸ entry⟩

/-! ### Well-formed trees -/

/-- The entries have names, and those that are not at the top stand in directories. -/
structure Tidy (entries : List (Location × Entry)) : Prop where
  isName : ∀ p ∈ entries, ∀ name ∈ p.1, Path.IsName name ∧ IsEntryName name
  parent : ∀ p ∈ entries, p.1.dropLast = [] ∨ (p.1.dropLast, Entry.directory) ∈ entries

/-- The entries of the tree have names and stand in directories. -/
def WellFormed (t : FileTree) : Prop := Tidy t.entries

instance (name : String) : Decidable (Path.IsName name) :=
  decidable_of_iff (name ≠ "" ∧ '/' ∉ name.toList)
    ⟨fun h => ⟨h.1, h.2⟩, fun h => ⟨h.ne_empty, h.noSlash⟩⟩

instance (name : String) : Decidable (IsEntryName name) :=
  decidable_of_iff (name ≠ "." ∧ name ≠ ".." ∧ name.utf8ByteSize ≤ maxName)
    ⟨fun h => ⟨h.1, h.2.1, h.2.2⟩, fun h => ⟨h.ne_dot, h.ne_up, h.short⟩⟩

instance (entries : List (Location × Entry)) : Decidable (Tidy entries) :=
  decidable_of_iff ((∀ p ∈ entries, ∀ name ∈ p.1, Path.IsName name ∧ IsEntryName name) ∧
      ∀ p ∈ entries, p.1.dropLast = [] ∨ (p.1.dropLast, Entry.directory) ∈ entries)
    ⟨fun h => ⟨h.1, h.2⟩, fun h => ⟨h.isName, h.parent⟩⟩

instance (t : FileTree) : Decidable t.WellFormed :=
  inferInstanceAs (Decidable (Tidy t.entries))

/-- What stands in one directory is as tidy as the whole. -/
lemma Tidy.below {entries held : List (Location × Entry)} (tidy : Tidy entries)
    (rel : List String) (same : ∀ r e, (r, e) ∈ held ↔ r ≠ [] ∧ (rel ++ r, e) ∈ entries) :
    Tidy held := by
  refine ⟨?_, ?_⟩
  · rintro ⟨r, e⟩ mem name hname
    exact tidy.isName _ ((same r e).mp mem).2 name (List.mem_append_right rel hname)
  · rintro ⟨r, e⟩ mem
    obtain ⟨nonempty, whole⟩ := (same r e).mp mem
    by_cases top : r.dropLast = []
    · exact .inl top
    · refine .inr ((same _ _).mpr ⟨top, ?_⟩)
      have above := tidy.parent _ whole
      rw [List.dropLast_append_of_ne_nil nonempty] at above
      refine above.resolve_left fun empty => top ?_
      exact (List.append_eq_nil_iff.mp empty).2

/-- What a directory of a well-formed tree holds is tidy. -/
lemma WellFormed.tidy_under (wf : t.WellFormed) (dir : Location) : Tidy (t.under dir) := by
  refine Tidy.below wf dir fun r e => ?_
  rw [mem_under_iff, Table.mem_entries_iff]

/-- What a directory inside a directory holds is tidy. -/
lemma Tidy.under_append (tidy : Tidy (t.under dir)) (rel : List String) :
    Tidy (t.under (dir ++ rel)) := by
  refine Tidy.below tidy rel fun r e => ?_
  rw [mem_under_iff, mem_under_iff, List.append_assoc]
  constructor
  · rintro ⟨nonempty, entry⟩
    exact ⟨nonempty, by simp [nonempty], entry⟩
  · rintro ⟨nonempty, -, entry⟩
    exact ⟨nonempty, entry⟩

/-- Every step on the way to an entry is a directory. -/
lemma Tidy.directory_of_isPrefix (tidy : Tidy (t.under dir)) {below : List String}
    (mem : (rel, e) ∈ t.under dir) (isPrefix : below <+: rel) (nonempty : below ≠ [])
    (proper : below ≠ rel) : t.get? (dir ++ below) = some .directory := by
  obtain ⟨rest, rfl⟩ := isPrefix
  induction rest using List.reverseRecOn generalizing e with
  | nil => exact absurd (List.append_nil below).symm proper
  | append_singleton rest name ih =>
    have above := tidy.parent _ mem
    rw [← List.append_assoc, List.dropLast_concat] at above
    have whole : (below ++ rest, Entry.directory) ∈ t.under dir :=
      above.resolve_left fun empty => nonempty (List.append_eq_nil_iff.mp empty).1
    by_cases same : below = below ++ rest
    · rw [same]
      exact (mem_under_iff.mp whole).2
    · exact ih whole same

/-- Names that lead to a directory lead on to the directories inside of it. -/
lemma Leads.into {links : Nat} {loc : Location} {names : List String}
    (h : Leads t links loc names dir) (tidy : Tidy (t.under dir))
    (inside : rel = [] ∨ (rel, Entry.directory) ∈ t.under dir) :
    Leads t links loc (names ++ rel) (dir ++ rel) := by
  rcases inside with rfl | mem
  · simpa using h
  · refine h.append (fun name hname => (tidy.isName _ mem name hname).2)
      fun below isPrefix nonempty => ?_
    by_cases whole : below = rel
    · rw [whole]
      exact (mem_under_iff.mp mem).2
    · exact tidy.directory_of_isPrefix mem isPrefix nonempty whole

/-- A directory holds its entries, each followed by what it holds in turn. -/
theorem under_eq_flatMap (tidy : Tidy (t.under dir)) :
    t.under dir = (t.children dir).flatMap fun c =>
      ([c.1], c.2) :: (t.under (dir ++ [c.1])).map fun p => (c.1 :: p.1, p.2) := by
  refine eq_of_pairwise_of_mem (pairwise_under t dir) ?_ ?_
  · refine List.pairwise_flatMap.mpr ⟨?_, ?_⟩
    · rintro ⟨name, e⟩ -
      refine List.pairwise_cons.mpr ⟨?_, ?_⟩
      · intro p mem
        obtain ⟨⟨rest, e'⟩, held, rfl⟩ := List.mem_map.mp mem
        obtain ⟨first, rest, rfl⟩ := List.exists_cons_of_ne_nil (mem_under_iff.mp held).1
        exact (append_lt_append_iff [name] [] _).mpr (List.nil_lt_cons first rest)
      · refine (pairwise_under t _).map _ fun p q lower => ?_
        exact (append_lt_append_iff [name] p.1 q.1).mpr lower
    · refine (pairwise_children t dir).imp ?_
      rintro ⟨name, e⟩ ⟨name', e'⟩ lower p hp q hq
      have starts : ∀ (name : String) (e : Entry) (p : Location × Entry),
          p ∈ ([name], e) :: (t.under (dir ++ [name])).map (fun p => (name :: p.1, p.2)) →
            ∃ rest, p.1 = name :: rest := by
        intro name e p mem
        rcases List.mem_cons.mp mem with rfl | mem
        · exact ⟨[], rfl⟩
        · obtain ⟨p, -, rfl⟩ := List.mem_map.mp mem
          exact ⟨p.1, rfl⟩
      obtain ⟨rest, first⟩ := starts name e p hp
      obtain ⟨rest', second⟩ := starts name' e' q hq
      rw [first, second]
      exact List.cons_lt_cons_iff.mpr (.inl lower)
  · intro rel e
    rw [List.mem_flatMap]
    constructor
    · intro mem
      obtain ⟨nonempty, entry⟩ := mem_under_iff.mp mem
      obtain ⟨name, rest, rfl⟩ := List.exists_cons_of_ne_nil nonempty
      by_cases last : rest = []
      · subst last
        exact ⟨(name, e), mem_children_iff.mpr entry, List.mem_cons_self⟩
      · have directory : t.get? (dir ++ [name]) = some .directory :=
          tidy.directory_of_isPrefix mem ⟨rest, rfl⟩ (by simp) (by simpa using Ne.symm last)
        refine ⟨(name, .directory), mem_children_iff.mpr directory, List.mem_cons_of_mem _ ?_⟩
        refine List.mem_map.mpr ⟨(rest, e), mem_under_iff.mpr ⟨last, ?_⟩, rfl⟩
        rw [List.append_assoc]
        exact entry
    · rintro ⟨⟨name, e'⟩, child, mem⟩
      have entry := mem_children_iff.mp child
      rcases List.mem_cons.mp mem with same | mem
      · cases same
        exact mem_under_iff.mpr ⟨by simp, entry⟩
      · obtain ⟨⟨rest, e''⟩, held, same⟩ := List.mem_map.mp mem
        cases same
        obtain ⟨-, found⟩ := mem_under_iff.mp held
        rw [List.append_assoc] at found
        exact mem_under_iff.mpr ⟨by simp, found⟩

end FileTree

end Stencil
