import Stencil.Files.Path
import Stencil.Proofs.Text.Lines

/-!
# Names in paths

Joining paths puts their names one after another (`names_join`), and a list of names is the names of
the path that has slashes between them (`names_intercalate`).  So the paths of a visit below a
directory are told apart by their names.
-/

namespace Stencil

namespace Path

/-- A text that can stand between slashes. -/
structure IsName (name : String) : Prop where
  ne_empty : name ≠ ""
  noSlash : '/' ∉ name.toList

variable {p q name : String} {rel : List String}

/-! ### The names of a path -/

@[simp] lemma names_empty : names "" = [] := rfl

/-- The names on both sides of a slash. -/
lemma names_append_slash (p q : String) : names (p ++ "/" ++ q) = names p ++ names q := by
  have cut : (p ++ "/" ++ q).toList = p.toList ++ '/' :: q.toList := by simp
  simp only [names, cut, Text.splitOn_append, List.filter_append, List.map_append]

/-- A slash at the end of a path does not matter to its names. -/
lemma names_slash (p : String) : names (p ++ "/") = names p := by
  have cut := names_append_slash p ""
  rwa [String.append_empty, names_empty, List.append_nil] at cut

/-- The names of a path can stand between slashes. -/
lemma isName_of_mem_names (h : name ∈ names p) : IsName name := by
  obtain ⟨cs, mem, rfl⟩ := List.mem_map.mp h
  obtain ⟨cut, nonempty⟩ := List.mem_filter.mp mem
  refine ⟨?_, ?_⟩
  · simpa using nonempty
  · rw [String.toList_ofList]
    exact Text.notMem_of_mem_splitOn cut

/-- A name is its own only name. -/
lemma names_of_isName (h : IsName name) : names name = [name] := by
  have nonempty : name.toList.isEmpty = false := by
    simpa using h.ne_empty
  simp [names, Text.splitOn_of_notMem h.noSlash, nonempty]

/-- A list of names is the names of the path with slashes between them. -/
lemma names_intercalate (h : ∀ name ∈ rel, IsName name) : names ("/".intercalate rel) = rel := by
  induction rel with
  | nil => rfl
  | cons name rel ih =>
    have first := names_of_isName (h name List.mem_cons_self)
    have others := ih fun name hname => h name (List.mem_cons_of_mem _ hname)
    cases rel with
    | nil => simpa using first
    | cons next rel =>
      rw [String.intercalate_cons_cons, names_append_slash, first, others]
      rfl

/-- A path that ends in a slash is a path and the slash. -/
lemma exists_of_endsInSlash (h : endsInSlash p = true) : ∃ p', p = p' ++ "/" := by
  obtain ⟨cs, hcs⟩ := List.getLast?_eq_some_iff.mp (by simpa [endsInSlash] using h)
  refine ⟨String.ofList cs, ?_⟩
  apply String.toList_inj.mp
  simp [hcs]

/-- Joining puts a slash between paths that have none there. -/
lemma join_of_relative (h : isAbsolute q = false) (p : String) :
    join p q = if p.isEmpty || endsInSlash p then p ++ q else p ++ "/" ++ q := by
  rw [join, h, if_neg (by decide)]

/-- Joining paths puts their names one after another. -/
lemma names_join (h : isAbsolute q = false) : names (join p q) = names p ++ names q := by
  rw [join_of_relative h]
  by_cases empty : p = ""
  · simp [empty]
  by_cases slash : endsInSlash p = true
  · obtain ⟨p', rfl⟩ := exists_of_endsInSlash slash
    rw [if_pos (by simp [slash]), names_append_slash, names_slash]
  · rw [if_neg (by simp [slash, empty]), names_append_slash]

/-- A path that is not empty is not seen to be absolute from its end. -/
lemma isAbsolute_append (h : p ≠ "") : isAbsolute (p ++ q) = isAbsolute p := by
  have nonempty : p.toList ≠ [] := by simpa using h
  obtain ⟨c, cs, cut⟩ := List.exists_cons_of_ne_nil nonempty
  simp [isAbsolute, cut]

/-- Whether a path ends in a slash is seen from its end. -/
lemma endsInSlash_append (h : q ≠ "") : endsInSlash (p ++ q) = endsInSlash q := by
  have nonempty : q.toList ≠ [] := by simpa using h
  obtain ⟨cs, c, cut⟩ := List.eq_nil_or_concat q.toList |>.resolve_left nonempty
  simp [endsInSlash, cut]

/-- Joining does not change where a path starts. -/
lemma isAbsolute_join (h : isAbsolute q = false) : isAbsolute (join p q) = isAbsolute p := by
  rw [join_of_relative h]
  by_cases empty : p = ""
  · subst empty
    rw [if_pos (by decide), String.empty_append, h]
    rfl
  by_cases slash : endsInSlash p = true
  · rw [if_pos (by simp [slash]), isAbsolute_append empty]
  · rw [if_neg (by simp [slash, empty]), String.append_assoc, isAbsolute_append empty]

/-- Joined paths end as the second one does. -/
lemma endsInSlash_join (h : q ≠ "") : endsInSlash (join p q) = endsInSlash q := by
  unfold join
  split
  · rfl
  · split <;> rw [endsInSlash_append h]

/-- A joined path is at least as long as its parts. -/
lemma utf8ByteSize_join (h : isAbsolute q = false) :
    p.utf8ByteSize + q.utf8ByteSize ≤ (join p q).utf8ByteSize := by
  rw [join_of_relative h]
  split
  · exact Nat.le_of_eq String.utf8ByteSize_append.symm
  · rw [String.utf8ByteSize_append, String.utf8ByteSize_append]
    omega

/-- A path that is joined with a name is not empty. -/
lemma join_ne_empty (h : q ≠ "") : join p q ≠ "" := by
  intro empty
  unfold join at empty
  split at empty
  · exact h empty
  · split at empty
    · exact h (String.append_eq_empty_iff.mp empty).2
    · exact h (String.append_eq_empty_iff.mp empty).2

/-! ### Paths of names -/

/-- A name does not start with a slash. -/
lemma isAbsolute_of_isName (h : IsName name) : isAbsolute name = false := by
  have notMem := h.noSlash
  cases cut : name.toList with
  | nil => simp [isAbsolute, cut]
  | cons c cs =>
    rw [cut] at notMem
    simpa [isAbsolute, cut] using Ne.symm (not_or.mp (List.mem_cons.not.mp notMem)).1

/-- A name does not end in a slash. -/
lemma endsInSlash_of_isName (h : IsName name) : endsInSlash name = false := by
  rcases List.eq_nil_or_concat name.toList with cut | ⟨cs, c, cut⟩
  · simp [endsInSlash, cut]
  · have notMem := h.noSlash
    rw [cut] at notMem
    have other : c ≠ '/' := by
      rintro rfl
      exact notMem (by simp)
    simpa [endsInSlash, cut] using other

/-- A path of names neither starts nor ends in a slash, and is not empty. -/
lemma intercalate_spec (nonempty : rel ≠ []) (h : ∀ name ∈ rel, IsName name) :
    "/".intercalate rel ≠ "" ∧ isAbsolute ("/".intercalate rel) = false ∧
      endsInSlash ("/".intercalate rel) = false := by
  induction rel with
  | nil => exact absurd rfl nonempty
  | cons name rel ih =>
    have first := h name List.mem_cons_self
    cases rel with
    | nil =>
      rw [String.intercalate_singleton]
      exact ⟨first.ne_empty, isAbsolute_of_isName first, endsInSlash_of_isName first⟩
    | cons next rel =>
      obtain ⟨others, -, slash⟩ :=
        ih (by simp) fun name hname => h name (List.mem_cons_of_mem _ hname)
      rw [String.intercalate_cons_cons]
      refine ⟨?_, ?_, ?_⟩
      · intro empty
        exact others (String.append_eq_empty_iff.mp empty).2
      · rw [String.append_assoc, isAbsolute_append first.ne_empty, isAbsolute_of_isName first]
      · rw [endsInSlash_append others, slash]

/-- The path from a visited directory to an entry, one name further. -/
lemma join_intercalate (h : ∀ name ∈ rel, IsName name) (hname : IsName name) :
    (if ("/".intercalate rel).isEmpty then name else join ("/".intercalate rel) name) =
      "/".intercalate (rel ++ [name]) := by
  by_cases empty : rel = []
  · subst empty
    simp
  · obtain ⟨ne, -, slash⟩ := intercalate_spec empty h
    rw [if_neg (by simpa using ne), String.intercalate_append_of_ne_nil empty (by simp),
      String.intercalate_singleton, join_of_relative (isAbsolute_of_isName hname),
      if_neg (by simp [ne, slash])]

/-- The path of an entry below a directory. -/
def below (base : String) (rel : List String) : String :=
  if rel.isEmpty then base else join base ("/".intercalate rel)

/-- The path of an entry of a directory below a directory. -/
lemma join_below (base : String) (h : ∀ name ∈ rel, IsName name) (hname : IsName name) :
    join (below base rel) name = below base (rel ++ [name]) := by
  by_cases empty : rel = []
  · subst empty
    simp [below]
  · obtain ⟨ne, abs, slash⟩ := intercalate_spec empty h
    have notAbs := isAbsolute_of_isName hname
    have inner : join base ("/".intercalate rel) ≠ "" := join_ne_empty ne
    have outer : endsInSlash (join base ("/".intercalate rel)) = false := by
      rw [endsInSlash_join ne, slash]
    have further : "/".intercalate (rel ++ [name]) = "/".intercalate rel ++ "/" ++ name := by
      rw [String.intercalate_append_of_ne_nil empty (by simp), String.intercalate_singleton]
    have furtherAbs : isAbsolute ("/".intercalate rel ++ "/" ++ name) = false := by
      rw [String.append_assoc, isAbsolute_append ne, abs]
    have stays : below base rel = join base ("/".intercalate rel) := if_neg (by simpa using empty)
    have goesOn : below base (rel ++ [name]) = join base ("/".intercalate (rel ++ [name])) :=
      if_neg (by simp)
    rw [stays, goesOn, further, join_of_relative notAbs, if_neg (by simp [inner, outer]),
      join_of_relative abs, join_of_relative furtherAbs]
    split
    · simp only [String.append_assoc]
    · simp only [String.append_assoc]

/-- The names of the path of an entry below a directory. -/
lemma names_below (base : String) (h : ∀ name ∈ rel, IsName name) :
    names (below base rel) = names base ++ rel := by
  by_cases empty : rel = []
  · subst empty
    simp [below]
  · obtain ⟨-, abs, -⟩ := intercalate_spec empty h
    rw [below, if_neg (by simpa using empty), names_join abs, names_intercalate h]

/-- A path below a directory starts where the path of the directory does. -/
lemma isAbsolute_below (base : String) (h : ∀ name ∈ rel, IsName name) :
    isAbsolute (below base rel) = isAbsolute base := by
  by_cases empty : rel = []
  · subst empty
    rfl
  · obtain ⟨-, abs, -⟩ := intercalate_spec empty h
    rw [below, if_neg (by simpa using empty), isAbsolute_join abs]

/-- The path of an entry below a directory does not end in a slash. -/
lemma endsInSlash_below (base : String) (nonempty : rel ≠ []) (h : ∀ name ∈ rel, IsName name) :
    endsInSlash (below base rel) = false := by
  obtain ⟨ne, -, slash⟩ := intercalate_spec nonempty h
  rw [below, if_neg (by simpa using nonempty), endsInSlash_join ne, slash]

/-- The path of an entry below a directory is not empty. -/
lemma below_ne_empty (base : String) (nonempty : rel ≠ []) (h : ∀ name ∈ rel, IsName name) :
    below base rel ≠ "" := by
  obtain ⟨ne, -, -⟩ := intercalate_spec nonempty h
  rw [below, if_neg (by simpa using nonempty)]
  exact join_ne_empty ne

/-- The path of an entry is longer than that of the directory it is in. -/
lemma utf8ByteSize_below_lt (base : String) (h : ∀ name ∈ rel, IsName name) (hname : IsName name) :
    (below base rel).utf8ByteSize < (below base (rel ++ [name])).utf8ByteSize := by
  have joined := utf8ByteSize_join (p := below base rel) (isAbsolute_of_isName hname)
  rw [join_below base h hname] at joined
  have nonempty : name.utf8ByteSize ≠ 0 := by
    intro none
    exact hname.ne_empty (String.utf8ByteSize_eq_zero_iff.mp none)
  omega

end Path

end Stencil
