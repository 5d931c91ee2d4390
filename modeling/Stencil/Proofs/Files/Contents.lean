import Stencil.Proofs.Files.Replace
import Stencil.Proofs.Files.Subtree

/-!
# What files hold does not matter to paths

Two trees are alike when they differ at most in what their files hold.  Paths lead to the same
places in both (`resolve_alike`), so a file can be replaced in the one exactly when it can be
replaced in the other, at the same location, and else both refuse it for the same reason
(`runOn_replaceFile_alike`).
-/

namespace Stencil

/-- The entry, with nothing in it when it is a file. -/
def Entry.emptied : Entry → Entry
  | .file _ mode => .file (.text "") mode
  | e => e

/-- The place, with nothing in it when it is a file. -/
def Place.emptied : Place → Place
  | .found loc e => .found loc e.emptied
  | .vacant loc => .vacant loc

namespace FileTree

variable {t u : FileTree} {follow : Bool} {links : Nat} {p : String} {loc : Location}
  {names : List String} {content : Content} {mode : Mode}

/-- The trees differ at most in what their files hold. -/
def Alike (t u : FileTree) : Prop :=
  ∀ loc, (t.get? loc).map Entry.emptied = (u.get? loc).map Entry.emptied

/-- In trees that are alike, nothing, a file or the very same entry stands at a location. -/
lemma Alike.cases (same : Alike t u) (loc : Location) :
    (t.get? loc = none ∧ u.get? loc = none) ∨
      (∃ content content' mode, t.get? loc = some (.file content mode) ∧
        u.get? loc = some (.file content' mode)) ∨
      ∃ e, (∀ content mode, e ≠ .file content mode) ∧ t.get? loc = some e ∧
        u.get? loc = some e := by
  have alike := same loc
  cases first : t.get? loc with
  | none =>
    rw [first] at alike
    exact .inl ⟨rfl, Option.map_eq_none_iff.mp alike.symm⟩
  | some e =>
    rw [first] at alike
    obtain ⟨e', second, emptied⟩ := Option.map_eq_some_iff.mp alike.symm
    cases e <;> cases e' <;> cases emptied
    case file.file.refl content mode content' =>
      exact .inr (.inl ⟨content, content', mode, rfl, second⟩)
    all_goals exact .inr (.inr ⟨_, by simp, rfl, second⟩)

/-- Trees stay alike when the same entry is set in both. -/
lemma Alike.insert (same : Alike t u) (loc : Location) (e : Entry) :
    Alike (t.insert loc e) (u.insert loc e) := by
  intro l
  rw [Table.get?_insert, Table.get?_insert]
  split
  · rfl
  · exact same l

/-- A tree is like the one in which a file holds something else. -/
lemma alike_insert (entry : t.get? loc = some (.file content mode)) (content' : Content) :
    Alike t (t.insert loc (.file content' mode)) := by
  intro l
  rw [Table.get?_insert]
  split
  · next here =>
    rw [here, entry]
    rfl
  · rfl

/-- Trees that are alike have entries at the same locations. -/
lemma Alike.keys_eq (same : Alike t u) : t.keys = u.keys := by
  have ordered : ∀ t : FileTree,
      (t.entries.map fun p => (p.1, p.2.emptied)).Pairwise fun a b => a.1 < b.1 :=
    fun t => List.pairwise_map.mpr t.ascending
  have listed : ∀ (t : FileTree) loc e,
      (loc, e) ∈ t.entries.map (fun p => (p.1, p.2.emptied)) ↔
        (t.get? loc).map Entry.emptied = some e := by
    intro t loc e
    rw [List.mem_map, Option.map_eq_some_iff]
    constructor
    · rintro ⟨⟨loc', e'⟩, mem, same⟩
      cases same
      exact ⟨e', Table.mem_entries_iff.mp mem, rfl⟩
    · rintro ⟨e', entry, rfl⟩
      exact ⟨(loc, e'), Table.mem_entries_iff.mpr entry, rfl⟩
  have entries := eq_of_pairwise_of_mem (ordered t) (ordered u) fun loc e => by
    rw [listed, listed, same loc]
  have keys := congrArg (List.map Prod.fst) entries
  rwa [List.map_map, List.map_map] at keys

/-- Trees that are alike have the same fresh name. -/
lemma Alike.freshName_eq (same : Alike t u) : t.freshName = u.freshName := by
  unfold freshName
  rw [same.keys_eq]

/-! ### Where paths lead -/

/-- Names lead to the same places if they do after a link. -/
lemma Alike.walkNames_eq (same : Alike t u)
    {jump jump' : Location → List String → Except FileError Place}
    (linked : ∀ loc names,
      (jump loc names).map Place.emptied = (jump' loc names).map Place.emptied) :
    (t.walkNames follow jump loc names).map Place.emptied =
      (u.walkNames follow jump' loc names).map Place.emptied := by
  induction names generalizing loc with
  | nil => rfl
  | cons name rest ih =>
    rw [walkNames, walkNames]
    split
    · exact ih
    split
    · exact ih
    split
    · rfl
    dsimp only
    rcases same.cases (loc ++ [name]) with
      ⟨first, second⟩ | ⟨content, content', mode, first, second⟩ | ⟨e, notFile, first, second⟩
    · rw [first, second]
    · rw [first, second]
      dsimp only
      split
      · rfl
      · rfl
    · rw [first, second]
      cases e with
      | directory => exact ih
      | file content mode => exact absurd rfl (notFile content mode)
      | link target =>
        dsimp only
        split
        · rfl
        · exact linked _ _

lemma Alike.resolveSteps_eq (same : Alike t u) :
    (t.resolveSteps follow links loc names).map Place.emptied =
      (u.resolveSteps follow links loc names).map Place.emptied := by
  induction links generalizing loc names with
  | zero => exact same.walkNames_eq fun _ _ => rfl
  | succ links ih => exact same.walkNames_eq fun _ _ => ih

/-- A path leads to the same place in trees that are alike. -/
theorem resolve_alike (same : Alike t u) (follow : Bool) (p : String) :
    (t.resolve follow p).map Place.emptied = (u.resolve follow p).map Place.emptied := by
  unfold resolve
  rw [map_of_bind, map_of_bind, same.resolveSteps_eq]

/-- What a path leads to, apart from what a file there holds. -/
lemma Alike.lookUp_eq (same : Alike t u) (follow : Bool) (p : String) :
    (t.lookUp follow p).map (Prod.map id Entry.emptied) =
      (u.lookUp follow p).map (Prod.map id Entry.emptied) := by
  have looked : ∀ v : FileTree, (v.lookUp follow p).map (Prod.map id Entry.emptied) =
      ((v.resolve follow p).map Place.emptied).bind fun place =>
        match place with
        | .found loc e => .ok (loc, e)
        | .vacant _ => .error .notFound := by
    intro v
    unfold lookUp
    cases v.resolve follow p with
    | error e => rfl
    | ok place => cases place <;> rfl
  rw [looked, looked, resolve_alike same]

/-- Names lead to the same directory. -/
lemma Alike.directoryAt_eq (same : Alike t u) : t.directoryAt p names = u.directoryAt p names := by
  have found : ∀ v : FileTree, v.directoryAt p names =
      ((v.resolveSteps true maxLinks (startOf workingDirectory p) (names ++ ["."])).map
        Place.emptied).bind fun place =>
          match place with
          | .found loc _ => .ok loc
          | .vacant _ => .error .notFound := by
    intro v
    unfold directoryAt
    generalize v.resolveSteps true maxLinks (startOf workingDirectory p) (names ++ ["."]) = place
    cases place with
    | error e => rfl
    | ok place => cases place <;> rfl
  rw [found, found, same.resolveSteps_eq]

/-- A path stands for the same location. -/
lemma Alike.target_eq (same : Alike t u) (special : FileError) (p : String) :
    t.target special p = u.target special p := by
  unfold target
  simp only [same.directoryAt_eq]

/-- Directories stand at the same locations. -/
lemma Alike.directory_iff (same : Alike t u) (loc : Location) :
    t.get? loc = some .directory ↔ u.get? loc = some .directory := by
  rcases same.cases loc with
    ⟨first, second⟩ | ⟨content, content', mode, first, second⟩ | ⟨e, -, first, second⟩
  · rw [first, second]
  · simp [first, second]
  · rw [first, second]

/-- An entry can be moved to where a path leads in both trees, or in neither, for the same
reason. -/
lemma Alike.rename_cases (same : Alike t u) {source : Location} {e : Entry}
    (first : t.get? source = some e) (second : u.get? source = some e) (p : String) :
    (∃ reason, t.rename source p = .error reason ∧ u.rename source p = .error reason) ∨
      ∃ loc, t.rename source p = .ok ((t.erase source).insert loc e) ∧
        u.rename source p = .ok ((u.erase source).insert loc e) := by
  rw [rename_of_found first, rename_of_found second, same.target_eq]
  cases u.target .busy p with
  | error reason => exact .inl ⟨reason, rfl, rfl⟩
  | ok loc =>
    simp only [bind, Except.bind, same.directory_iff loc]
    split
    · exact .inl ⟨.notDirectory, rfl, rfl⟩
    split
    · exact .inl ⟨.isDirectory, rfl, rfl⟩
    · exact .inr ⟨loc, rfl, rfl⟩

/-- The file that a path leads to stands in the tree. -/
lemma get?_of_walkNames {jump : Location → List String → Except FileError Place} {l : Location}
    {e : Entry} (notDirectory : e ≠ .directory)
    (linked : ∀ loc names, jump loc names = .ok (.found l e) → t.get? l = some e)
    (h : t.walkNames follow jump loc names = .ok (.found l e)) : t.get? l = some e := by
  induction names generalizing loc with
  | nil =>
    cases h
    exact absurd rfl notDirectory
  | cons name rest ih =>
    rw [walkNames] at h
    split at h
    · exact ih h
    split at h
    · exact ih h
    split at h
    · cases h
    dsimp only at h
    cases entry : t.get? (loc ++ [name]) with
    | none =>
      rw [entry] at h
      dsimp only at h
      split at h <;> cases h
    | some here =>
      rw [entry] at h
      cases here with
      | directory => exact ih h
      | file content mode =>
        dsimp only at h
        split at h
        · cases h
          exact entry
        · cases h
      | link target =>
        dsimp only at h
        split at h
        · cases h
          exact entry
        · exact linked _ _ h

/-- What looking up finds stands in the tree, unless it is a directory, which may be the root. -/
lemma get?_of_lookUp {e : Entry} (notDirectory : e ≠ .directory)
    (h : t.lookUp follow p = .ok (loc, e)) : t.get? loc = some e := by
  have stands : ∀ links start names, t.resolveSteps follow links start names = .ok (.found loc e) →
      t.get? loc = some e := by
    intro links
    induction links with
    | zero =>
      intro start names h
      refine get?_of_walkNames notDirectory (fun _ _ stuck => ?_) h
      cases stuck
    | succ links ih =>
      intro start names h
      exact get?_of_walkNames notDirectory ih h
  exact stands _ _ _ (resolve_eq_ok_iff.mp (lookUp_eq_ok_iff.mp h)).2

end FileTree

namespace Files

variable {t u : FileTree}

/-- A file is staged in the same directory. -/
lemma stagingDirectory_alike (same : t.Alike u) (p : String) :
    stagingDirectory t p = stagingDirectory u p := by
  unfold stagingDirectory
  simp only [same.directoryAt_eq]

/-- Replacing a file fails in both trees for the same reason and leaves them as they were, or puts
the file at the same location of both. -/
theorem runOn_replaceFile_alike (same : t.Alike u) (p content : String) (mode : Mode) :
    (∃ e, runOn (replaceFile p content mode) t = (.error e, t) ∧
      runOn (replaceFile p content mode) u = (.error e, u)) ∨
    ∃ loc, runOn (replaceFile p content mode) t =
        (.ok (), t.insert loc (.file (.text content) mode)) ∧
      runOn (replaceFile p content mode) u =
        (.ok (), u.insert loc (.file (.text content) mode)) := by
  rw [runOn_replaceFile, runOn_replaceFile, stagingDirectory_alike same, same.freshName_eq]
  cases stagingDirectory u p with
  | error e => exact .inl ⟨e, rfl, rfl⟩
  | ok dir =>
    have fresh := FileTree.get?_freshName u dir
    have fresh' : t.get? (dir ++ [u.freshName]) = none :=
      same.freshName_eq ▸ FileTree.get?_freshName t dir
    have staged : ∀ v : FileTree,
        (v.insert (dir ++ [u.freshName]) (.file (.text content) mode)).get?
          (dir ++ [u.freshName]) = some (.file (.text content) mode) := by
      intro v
      rw [Table.get?_insert, if_pos rfl]
    dsimp only
    rcases (same.insert _ _).rename_cases (staged t) (staged u) p with
      ⟨reason, first, second⟩ | ⟨loc, first, second⟩
    · rw [first, second]
      exact .inl ⟨reason, rfl, rfl⟩
    · rw [first, second, Table.erase_insert fresh, Table.erase_insert fresh']
      exact .inr ⟨loc, rfl, rfl⟩

end Files

end Stencil
