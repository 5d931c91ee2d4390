import Stencil.Proofs.Files.Walk
import Stencil.Proofs.Result

/-!
# The entries that paths name

A path names an entry when the names before its last one lead to a directory and the last one can be
looked up there; the entry may be missing.  A change of a tree at a path is a change at the entry
that the path names (`target_eq_ok_iff`), and reading at the path finds that entry when it is a file
(`lookUp_of_names`).
-/

namespace Stencil.FileTree

variable {t u : FileTree} {p : String} {loc dir : Location} {e : Entry}

/-- The path names the entry at `loc`. -/
def Names (t : FileTree) (p : String) (loc : Location) : Prop :=
  checkPath p = .ok () ∧ ∃ names name dir, Path.names p = names ++ [name] ∧
    Leads t maxLinks (startOf workingDirectory p) names dir ∧ IsEntryName name ∧
      loc = dir ++ [name]

/-- A path leads somewhere unless it is refused. -/
lemma resolve_eq_ok_iff {follow : Bool} {place : Place} :
    t.resolve follow p = .ok place ↔ checkPath p = .ok () ∧
      t.resolveSteps follow maxLinks (startOf workingDirectory p) (Path.steps p) = .ok place := by
  unfold resolve
  rw [bind_eq_ok_iff]
  constructor
  · rintro ⟨⟨⟩, checked, found⟩
    exact ⟨checked, found⟩
  · rintro ⟨checked, found⟩
    exact ⟨(), checked, found⟩

/-- What looking up finds is where the path leads. -/
lemma lookUp_eq_ok_iff {follow : Bool} :
    t.lookUp follow p = .ok (loc, e) ↔ t.resolve follow p = .ok (.found loc e) := by
  unfold lookUp
  rw [bind_eq_ok_iff]
  constructor
  · rintro ⟨place, resolved, h⟩
    cases place with
    | found loc' e' =>
      cases h
      exact resolved
    | vacant loc' => cases h
  · intro resolved
    exact ⟨_, resolved, rfl⟩

/-! ### Names -/

/-- The directory that names lead to. -/
lemma directoryAt_eq_ok_iff {names : List String} :
    t.directoryAt p names = .ok dir ↔
      Leads t maxLinks (startOf workingDirectory p) names dir := by
  unfold directoryAt
  rw [bind_eq_ok_iff]
  constructor
  · rintro ⟨place, resolved, h⟩
    obtain ⟨dir', leads, rfl⟩ := resolveSteps_dot_eq_ok_iff.mp resolved
    cases h
    exact leads
  · intro leads
    exact ⟨_, resolveSteps_dot_eq_ok_iff.mpr ⟨dir, leads, rfl⟩, rfl⟩

/-- The location that the last name of a path stands for. -/
lemma target_eq_ok_iff {special : FileError} : t.target special p = .ok loc ↔ Names t p loc := by
  unfold target
  rw [bind_eq_ok_iff]
  constructor
  · rintro ⟨⟨⟩, checked, h⟩
    rcases List.eq_nil_or_concat (Path.names p) with empty | ⟨names, name, cut⟩
    · rw [empty] at h
      cases h
    · rw [List.concat_eq_append] at cut
      rw [cut, List.getLast?_concat, List.dropLast_concat] at h
      obtain ⟨dir, found, h⟩ := bind_eq_ok_iff.mp h
      split at h
      · cases h
      · next notDots =>
        obtain ⟨hdot, hup⟩ := not_or.mp notDots
        split at h
        · cases h
        · next short =>
          cases h
          exact ⟨checked, names, name, dir, cut, directoryAt_eq_ok_iff.mp found,
            ⟨hdot, hup, Nat.not_lt.mp short⟩, rfl⟩
  · rintro ⟨checked, names, name, dir, cut, leads, isName, rfl⟩
    refine ⟨(), checked, ?_⟩
    rw [cut, List.getLast?_concat, List.dropLast_concat]
    refine bind_eq_ok_iff.mpr ⟨dir, directoryAt_eq_ok_iff.mpr leads, ?_⟩
    rw [if_neg (not_or.mpr ⟨isName.ne_dot, isName.ne_up⟩), if_neg (Nat.not_lt.mpr isName.short)]
    rfl

/-- A path names the same entry in a tree that keeps directories and links. -/
lemma Names.mono (keeps : Keeps t u) (h : Names t p loc) : Names u p loc := by
  obtain ⟨checked, names, name, dir, cut, leads, isName, rfl⟩ := h
  exact ⟨checked, names, name, dir, cut, leads.mono keeps, isName, rfl⟩

/-! ### Paths to entries that can be replaced -/

/-- The path leads to the location `loc`, where no directory is; a link there is not followed. -/
def Replaceable (t : FileTree) (p : String) (loc : Location) : Prop :=
  t.resolve false p = .ok (.vacant loc) ∨
    ∃ e, e ≠ .directory ∧ t.resolve false p = .ok (.found loc e)

/-- A path to what is no directory names that entry. -/
lemma names_of_resolve {place : Place} (h : t.resolve false p = .ok place)
    (notDirectory : ∀ loc, place ≠ .found loc .directory) :
    ∃ loc, Names t p loc ∧ Path.endsInSlash p = false ∧
      place = match t.get? loc with
        | none => .vacant loc
        | some e => .found loc e := by
  obtain ⟨checked, h⟩ := resolve_eq_ok_iff.mp h
  unfold Path.steps at h
  by_cases slash : Path.endsInSlash p = true
  · rw [if_pos slash] at h
    obtain ⟨dir, -, rfl⟩ := resolveSteps_dot_eq_ok_iff.mp h
    exact absurd rfl (notDirectory dir)
  · rw [if_neg slash] at h
    rcases List.eq_nil_or_concat (Path.names p) with empty | ⟨names, name, cut⟩
    · rw [empty, resolveSteps_nil] at h
      exact absurd (Except.ok.inj h).symm (notDirectory _)
    · rw [List.concat_eq_append] at cut
      rw [cut] at h
      obtain ⟨dir, leads, -⟩ := exists_leads (.inl (by simp)) h
      obtain ⟨left, -, same⟩ := resolveSteps_append leads
      rw [same false [name] (.inl (by simp))] at h
      have hdot : name ≠ "." := by
        rintro rfl
        rw [resolveSteps_dot, resolveSteps_nil] at h
        exact notDirectory _ (Except.ok.inj h).symm
      have hup : name ≠ ".." := by
        rintro rfl
        rw [resolveSteps_up, resolveSteps_nil] at h
        exact notDirectory _ (Except.ok.inj h).symm
      have short : name.utf8ByteSize ≤ maxName := by
        by_contra long
        rw [resolveSteps_cons_of_long hdot hup (Nat.not_le.mp long)] at h
        cases h
      have isName : IsEntryName name := ⟨hdot, hup, short⟩
      refine ⟨dir ++ [name], ⟨checked, names, name, dir, cut, leads, isName, rfl⟩,
        by simpa using slash, ?_⟩
      rw [resolveSteps_singleton isName] at h
      cases entry : t.get? (dir ++ [name]) with
      | none =>
        rw [entry] at h
        exact (Except.ok.inj h).symm
      | some e =>
        rw [entry] at h
        exact (Except.ok.inj h).symm

/-- A path that names an entry leads there. -/
lemma resolve_of_names (h : Names t p loc) (noSlash : Path.endsInSlash p = false) :
    t.resolve false p = .ok (match t.get? loc with
      | none => .vacant loc
      | some e => .found loc e) := by
  obtain ⟨checked, names, name, dir, cut, leads, isName, rfl⟩ := h
  obtain ⟨left, -, same⟩ := resolveSteps_append leads
  refine resolve_eq_ok_iff.mpr ⟨checked, ?_⟩
  rw [Path.steps, noSlash, if_neg (by decide), cut, same false [name] (.inl (by simp)),
    resolveSteps_singleton isName]
  cases t.get? (dir ++ [name]) with
  | none => rfl
  | some e => rfl

/-- A path leads to an entry that can be replaced when it names an entry that is no directory and
does not end in a slash. -/
lemma replaceable_iff :
    Replaceable t p loc ↔
      Names t p loc ∧ Path.endsInSlash p = false ∧ t.get? loc ≠ some .directory := by
  constructor
  · rintro (vacant | ⟨e, he, found⟩)
    · obtain ⟨loc', names, noSlash, same⟩ := names_of_resolve vacant (by simp)
      cases entry : t.get? loc' with
      | none =>
        rw [entry] at same
        cases same
        exact ⟨names, noSlash, by simp [entry]⟩
      | some e =>
        rw [entry] at same
        cases same
    · obtain ⟨loc', names, noSlash, same⟩ := names_of_resolve found (by simp [he])
      cases entry : t.get? loc' with
      | none =>
        rw [entry] at same
        cases same
      | some e' =>
        rw [entry] at same
        cases same
        exact ⟨names, noSlash, by simpa [entry] using he⟩
  · rintro ⟨names, noSlash, notDirectory⟩
    have resolved := resolve_of_names names noSlash
    cases entry : t.get? loc with
    | none =>
      rw [entry] at resolved
      exact .inl resolved
    | some e =>
      rw [entry] at resolved
      refine .inr ⟨e, ?_, resolved⟩
      rintro rfl
      exact notDirectory entry

/-! ### Looking up -/

/-- A path leads to a directory only through its names. -/
lemma leads_of_resolve {follow : Bool} (h : t.resolve follow p = .ok (.found dir .directory)) :
    checkPath p = .ok () ∧ Leads t maxLinks (startOf workingDirectory p) (Path.names p) dir := by
  obtain ⟨checked, h⟩ := resolve_eq_ok_iff.mp h
  refine ⟨checked, ?_⟩
  unfold Path.steps at h
  split at h
  · obtain ⟨dir', leads, same⟩ := resolveSteps_dot_eq_ok_iff.mp h
    cases same
    exact leads
  · exact leads_of_found h

/-- A path whose names lead to a directory leads to it. -/
lemma resolve_of_leads (checked : checkPath p = .ok ())
    (leads : Leads t maxLinks (startOf workingDirectory p) (Path.names p) dir) :
    t.resolve true p = .ok (.found dir .directory) := by
  refine resolve_eq_ok_iff.mpr ⟨checked, ?_⟩
  unfold Path.steps
  split
  · exact resolveSteps_dot_eq_ok_iff.mpr ⟨dir, leads, rfl⟩
  · exact resolveSteps_eq_found_directory_iff.mpr leads

/-- A path is that of a directory when its names lead to one. -/
lemma isDirectory_iff :
    t.isDirectory p = true ↔ checkPath p = .ok () ∧
      ∃ dir, Leads t maxLinks (startOf workingDirectory p) (Path.names p) dir := by
  unfold isDirectory
  constructor
  · intro h
    split at h
    · next dir found =>
      obtain ⟨checked, leads⟩ := leads_of_resolve (lookUp_eq_ok_iff.mp found)
      exact ⟨checked, dir, leads⟩
    · cases h
  · rintro ⟨checked, dir, leads⟩
    rw [lookUp_eq_ok_iff.mpr (resolve_of_leads checked leads)]

/-- The entry that a path names is found when it is a file. -/
lemma lookUp_of_names {content : Content} {mode : Mode} (h : Names t p loc)
    (noSlash : Path.endsInSlash p = false) (entry : t.get? loc = some (.file content mode)) :
    t.lookUp true p = .ok (loc, .file content mode) := by
  obtain ⟨checked, names, name, dir, cut, leads, isName, rfl⟩ := h
  obtain ⟨left, -, same⟩ := resolveSteps_append leads
  refine lookUp_eq_ok_iff.mpr (resolve_eq_ok_iff.mpr ⟨checked, ?_⟩)
  rw [Path.steps, noSlash, if_neg (by decide), cut, same true [name] (.inr rfl),
    resolveSteps_cons isName, entry]
  rfl

end Stencil.FileTree
