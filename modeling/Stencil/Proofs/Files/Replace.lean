import Stencil.Proofs.Files.Designation
import Stencil.Proofs.Files.Program

/-!
# Replacing files

A file is replaced in one go: `Files.replaceFile` either fails and leaves the tree as it was, or
puts the file where the path leads and changes nothing else (`runOn_replaceFile_of_replaceable`).
On the way it writes a file under a fresh name.  Paths lead to the same directories with that file
and without it, since no path goes through a file.
-/

namespace Stencil

variable {t u : FileTree} {p : String} {loc dir : Location} {e : Entry}

namespace FileTree

/-! ### Fresh names -/

/-- Counting never goes below what it started from, or below an item that was counted. -/
lemma le_foldl_max {α : Type} (size : α → Nat) (xs : List α) (n : Nat) :
    n ≤ xs.foldl (fun n x => max n (size x)) n ∧
      ∀ x ∈ xs, size x ≤ xs.foldl (fun n x => max n (size x)) n := by
  induction xs generalizing n with
  | nil => simp
  | cons y xs ih =>
    obtain ⟨start, others⟩ := ih (max n (size y))
    rw [List.foldl_cons]
    refine ⟨by omega, ?_⟩
    intro x hx
    rcases List.mem_cons.mp hx with rfl | hx
    · omega
    · exact others x hx

/-- No entry has a fresh name. -/
lemma get?_freshName (t : FileTree) (dir : Location) : t.get? (dir ++ [t.freshName]) = none := by
  cases found : t.get? (dir ++ [t.freshName]) with
  | none => rfl
  | some e =>
    have listed : dir ++ [t.freshName] ∈ t.keys :=
      List.mem_map_of_mem (f := Prod.fst) (Table.mem_of_get?_eq_some found)
    have short := (le_foldl_max (fun loc : Location => (loc.getLast?.getD "").length) t.keys 0).2
      _ listed
    have counted : t.freshName.length = t.keys.foldl
        (fun n loc => max n ((loc.getLast?.getD "").length)) 0 + 1 := by
      have dot : ".".length = 1 := rfl
      simp only [freshName, String.length_ofList, List.length_cons, List.length_replicate]
    rw [List.getLast?_concat, Option.getD_some] at short
    omega

/-! ### Files under fresh names -/

/-- A file adds no directories and links. -/
lemma keeps_of_insert_file {content : Content} {mode : Mode} :
    Keeps (t.insert loc (.file content mode)) t := by
  intro l e entry notFile
  rw [Table.get?_insert] at entry
  split at entry
  · cases entry
    exact absurd rfl (notFile content mode)
  · exact entry

/-- A path names the same entry with a new file and without it. -/
lemma names_insert_file_iff {content : Content} {mode : Mode} {staged : Location}
    (fresh : t.get? staged = none) :
    Names (t.insert staged (.file content mode)) p loc ↔ Names t p loc :=
  ⟨Names.mono keeps_of_insert_file, Names.mono (keeps_insert fresh)⟩

/-- The same entries can be replaced with a new file and without it. -/
lemma replaceable_insert_file_iff {content : Content} {mode : Mode} {staged : Location}
    (fresh : t.get? staged = none) :
    Replaceable (t.insert staged (.file content mode)) p loc ↔ Replaceable t p loc := by
  have same : (t.insert staged (.file content mode)).get? loc = some .directory ↔
      t.get? loc = some .directory := by
    rw [Table.get?_insert]
    by_cases h : loc = staged
    · simp [h, fresh]
    · simp [h]
  rw [replaceable_iff, replaceable_iff, names_insert_file_iff fresh, ne_eq, same]

/-- Moving what stands in the tree to where a path leads. -/
lemma rename_of_found {source : Location} (found : t.get? source = some e) :
    t.rename source p = t.target .busy p >>= fun loc =>
      if Path.endsInSlash p then .error .notDirectory
      else if t.get? loc = some .directory then .error .isDirectory
      else .ok ((t.erase source).insert loc e) := by
  unfold rename
  rw [found]
  cases t.target .busy p with
  | error reason => rfl
  | ok loc =>
    simp only [bind, Except.bind]
    split
    · rfl
    · cases t.get? loc with
      | none => rfl
      | some e' => cases e' <;> rfl

/-- Moving a file to the entry that a path names. -/
lemma rename_of_names {source : Location} (found : t.get? source = some e) (names : Names t p loc)
    (noSlash : Path.endsInSlash p = false) :
    t.rename source p =
      if t.get? loc = some .directory then .error .isDirectory
      else .ok ((t.erase source).insert loc e) := by
  rw [rename_of_found found, target_eq_ok_iff.mpr names, noSlash]
  rfl

/-- A file can be moved to where a path leads to no directory. -/
lemma rename_eq_ok_iff {source : Location} (found : t.get? source = some e) {w : FileTree} :
    t.rename source p = .ok w ↔
      ∃ loc, Replaceable t p loc ∧ w = (t.erase source).insert loc e := by
  constructor
  · intro h
    have named : ∃ loc, Names t p loc ∧ Path.endsInSlash p = false := by
      rw [rename_of_found found] at h
      obtain ⟨loc, targeted, h⟩ := bind_eq_ok_iff.mp h
      refine ⟨loc, target_eq_ok_iff.mp targeted, ?_⟩
      by_contra slash
      rw [if_pos (by simpa using slash)] at h
      cases h
    obtain ⟨loc, names, noSlash⟩ := named
    rw [rename_of_names found names noSlash] at h
    split at h
    · cases h
    · next notDirectory =>
      exact ⟨loc, replaceable_iff.mpr ⟨names, noSlash, notDirectory⟩, (Except.ok.inj h).symm⟩
  · rintro ⟨loc, replaceable, rfl⟩
    obtain ⟨names, noSlash, notDirectory⟩ := replaceable_iff.mp replaceable
    rw [rename_of_names found names noSlash, if_neg notDirectory]

/-- A file under a fresh name can be moved where a path leads to no directory, and then only that
entry has changed. -/
lemma rename_staged {content : Content} {mode : Mode} {staged : Location}
    (fresh : t.get? staged = none) {w : FileTree} :
    rename (t.insert staged (.file content mode)) staged p = .ok w ↔
      ∃ loc, Replaceable t p loc ∧ w = t.insert loc (.file content mode) := by
  have found : (t.insert staged (.file content mode)).get? staged = some (.file content mode) := by
    rw [Table.get?_insert, if_pos rfl]
  rw [rename_eq_ok_iff found, Table.erase_insert fresh]
  simp only [replaceable_insert_file_iff fresh]

end FileTree

namespace Files

variable {content : String} {mode : Mode}

/-- Staging puts a file at a location where there is nothing. -/
lemma runOn_stage (p content : String) (t : FileTree) :
    runOn (stage p content) t =
      match stagingDirectory t p with
      | .ok dir => (.ok (dir ++ [t.freshName]),
          t.insert (dir ++ [t.freshName]) (.file (.text content) (.ofNat 0o600)))
      | .error e => (.error e, t) := by
  unfold stage
  rw [runOn_bind, runOn_read]
  cases stagingDirectory t p with
  | ok dir => rfl
  | error e => rfl

/-- Setting the permission bits of a staged file. -/
lemma runOn_setMode_staged (staged : Location) (c : Content) (m : Mode) :
    runOn (setMode staged mode : Files FileError Unit) (t.insert staged (.file c m)) =
      (.ok (), t.insert staged (.file c mode)) := by
  unfold setMode
  rw [runOn_get_bind]
  simp only [Table.get?_insert, if_true, runOn_modify, Table.insert_insert]

/-- Replacing a file moves the staged file to where the path leads, or changes nothing. -/
lemma runOn_replaceFile (p content : String) (mode : Mode) (t : FileTree) :
    runOn (replaceFile p content mode) t =
      match stagingDirectory t p with
      | .error e => (.error e, t)
      | .ok dir =>
        match FileTree.rename (t.insert (dir ++ [t.freshName]) (.file (.text content) mode))
            (dir ++ [t.freshName]) p with
        | .ok w => (.ok (), w)
        | .error e => (.error e, t) := by
  unfold replaceFile
  rw [runOn_bind, runOn_stage]
  cases stagingDirectory t p with
  | error e => rfl
  | ok dir =>
    have fresh := FileTree.get?_freshName t dir
    simp only [runOn_tryCatch, runOn_bind, runOn_setMode_staged, runOn_update]
    cases FileTree.rename (t.insert (dir ++ [t.freshName]) (.file (.text content) mode))
        (dir ++ [t.freshName]) p with
    | ok w => rfl
    | error e => simp only [runOn_modify, Table.erase_insert fresh, runOn_throw]

/-- A file that can be staged and can replace what the path leads to is put there, and nothing else
changes. -/
lemma runOn_replaceFile_of_replaceable (staging : stagingDirectory t p = .ok dir)
    (replaceable : t.Replaceable p loc) :
    runOn (replaceFile p content mode) t =
      (.ok (), t.insert loc (.file (.text content) mode)) := by
  have moved : FileTree.rename (t.insert (dir ++ [t.freshName]) (.file (.text content) mode))
      (dir ++ [t.freshName]) p = .ok (t.insert loc (.file (.text content) mode)) :=
    (FileTree.rename_staged (FileTree.get?_freshName t dir)).mpr ⟨loc, replaceable, rfl⟩
  rw [runOn_replaceFile, staging]
  dsimp only
  rw [moved]

/-- Replacing a file fails and leaves the tree as it was, or the file can be staged and can replace
what the path leads to. -/
lemma runOn_replaceFile_cases (p content : String) (mode : Mode) (t : FileTree) :
    (∃ e, runOn (replaceFile p content mode) t = (.error e, t)) ∨
      ∃ dir loc, stagingDirectory t p = .ok dir ∧ t.Replaceable p loc := by
  rw [runOn_replaceFile]
  cases staging : stagingDirectory t p with
  | error e => exact .inl ⟨e, rfl⟩
  | ok dir =>
    dsimp only
    cases moved : FileTree.rename (t.insert (dir ++ [t.freshName]) (.file (.text content) mode))
        (dir ++ [t.freshName]) p with
    | error e => exact .inl ⟨e, rfl⟩
    | ok w =>
      obtain ⟨loc, replaceable, -⟩ :=
        (FileTree.rename_staged (FileTree.get?_freshName t dir)).mp moved
      exact .inr ⟨dir, loc, rfl, replaceable⟩

/-- A file that could be replaced stands where its path leads, and nothing else has changed. -/
lemma exists_replaceable_of_runOn {u : FileTree}
    (ran : runOn (replaceFile p content mode) t = (.ok (), u)) :
    ∃ loc, t.Replaceable p loc ∧ u = t.insert loc (.file (.text content) mode) := by
  rcases runOn_replaceFile_cases p content mode t with
    ⟨e, failed⟩ | ⟨dir, loc, staging, replaceable⟩
  · rw [failed] at ran
    cases ran
  · rw [runOn_replaceFile_of_replaceable staging replaceable] at ran
    exact ⟨loc, replaceable, (congrArg Prod.snd ran).symm⟩

end Files

end Stencil
