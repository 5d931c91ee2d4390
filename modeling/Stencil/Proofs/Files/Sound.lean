import Stencil.Proofs.Files.Directories
import Stencil.Proofs.Files.Replace

/-!
# Trees stay well formed

Names lead from a directory to a directory, so a new entry at a path stands in a directory
(`Sound.insert_of_names`).  Making directories and replacing files therefore keep a tree well
formed, and the working directory stays where it is.
-/

namespace Stencil

namespace FileTree

variable {t u : FileTree} {links : Nat} {loc dir : Location} {name p : String} {names : List String}
  {e : Entry}

/-! ### New entries -/

/-- The location is the root or that of a directory. -/
def HasDirectory (t : FileTree) (loc : Location) : Prop :=
  loc = [] ∨ t.get? loc = some .directory

/-- An entry of a well-formed tree stands in a directory. -/
lemma WellFormed.parent (wf : t.WellFormed) (entry : t.get? loc = some e) :
    t.HasDirectory loc.dropLast :=
  (Tidy.parent wf _ (Table.mem_entries_iff.mpr entry)).imp_right Table.mem_entries_iff.mp

/-- The names that lead to an entry of a well-formed tree are names of entries. -/
lemma WellFormed.isName (wf : t.WellFormed) (entry : t.get? loc = some e) :
    ∀ name ∈ loc, Path.IsName name ∧ IsEntryName name :=
  Tidy.isName wf _ (Table.mem_entries_iff.mpr entry)

/-- A new entry in a directory keeps the tree well formed unless it replaces a directory. -/
lemma WellFormed.insert (wf : t.WellFormed) (inside : t.HasDirectory dir)
    (isName : Path.IsName name ∧ IsEntryName name)
    (keepsDirectory : t.get? (dir ++ [name]) = some .directory → e = .directory) :
    WellFormed (t.insert (dir ++ [name]) e) := by
  have keeps : ∀ loc, t.HasDirectory loc → HasDirectory (t.insert (dir ++ [name]) e) loc := by
    rintro loc (root | entry)
    · exact .inl root
    · refine .inr ?_
      rw [Table.get?_insert]
      split
      · next same => rw [keepsDirectory (same ▸ entry)]
      · exact entry
  have areNames : ∀ n ∈ dir ++ [name], Path.IsName n ∧ IsEntryName n := by
    intro n mem
    rcases List.mem_append.mp mem with above | last
    · rcases inside with root | entry
      · rw [root] at above
        cases above
      · exact wf.isName entry n above
    · rw [List.mem_singleton.mp last]
      exact isName
  refine ⟨?_, ?_⟩
  · rintro ⟨loc, e'⟩ mem n hn
    have entry := Table.mem_entries_iff.mp mem
    rw [Table.get?_insert] at entry
    split at entry
    · next same => exact areNames n (same ▸ hn)
    · exact wf.isName entry n hn
  · rintro ⟨loc, e'⟩ mem
    have entry := Table.mem_entries_iff.mp mem
    rw [Table.get?_insert] at entry
    have parent : HasDirectory (t.insert (dir ++ [name]) e) loc.dropLast := by
      split at entry
      · next same =>
        rw [same, List.dropLast_concat]
        exact keeps dir inside
      · exact keeps _ (wf.parent entry)
    exact parent.imp_right Table.mem_entries_iff.mpr

/-! ### Sound trees -/

/-- Names lead from a directory of a well-formed tree to a directory. -/
lemma Leads.hasDirectory (wf : t.WellFormed) (h : Leads t links loc names dir)
    (start : t.HasDirectory loc) : t.HasDirectory dir := by
  induction h with
  | nil => exact start
  | dot _ ih => exact ih start
  | up _ ih =>
    refine ih ?_
    rcases start with root | entry
    · exact .inl (by rw [root]; rfl)
    · exact wf.parent entry
  | enter _ entered _ ih => exact ih (.inr entered)
  | @jump links loc name target rest dir _ _ _ ih =>
    refine ih ?_
    unfold startOf
    split
    · exact .inl rfl
    · exact start

/-- The tree is well formed and has the working directory. -/
structure Sound (t : FileTree) : Prop where
  wellFormed : t.WellFormed
  working : t.get? workingDirectory = some .directory

/-- Paths start at a directory of a sound tree. -/
lemma Sound.hasDirectory_startOf (sound : t.Sound) (p : String) :
    t.HasDirectory (startOf workingDirectory p) := by
  unfold startOf
  split
  · exact .inl rfl
  · exact .inr sound.working

/-- An entry that a path names can be set unless that takes away a directory. -/
theorem Sound.insert_of_names (sound : t.Sound) (named : Names t p loc)
    (keepsDirectory : t.get? loc = some .directory → e = .directory) : Sound (t.insert loc e) := by
  obtain ⟨-, names, name, dir, cut, leads, isName, rfl⟩ := named
  have inside := leads.hasDirectory sound.wellFormed (sound.hasDirectory_startOf p)
  have mem : name ∈ Path.names p := by simp [cut]
  refine ⟨sound.wellFormed.insert inside ⟨Path.isName_of_mem_names mem, isName⟩ keepsDirectory, ?_⟩
  rw [Table.get?_insert]
  split
  · next same => rw [keepsDirectory (same ▸ sound.working)]
  · exact sound.working

/-- The tree that programs start with is sound. -/
lemma sound_start : start.Sound := ⟨by decide +kernel, by decide +kernel⟩

end FileTree

namespace Files

open FileTree

/-- Making directories keeps a tree sound. -/
theorem preserves_sound_makeDirectories (p : String) : Preserves Sound (makeDirectories p) := by
  refine preserves_makeDirectories fun q t u _ _ created sound => ?_
  obtain ⟨loc, named, missing, rfl⟩ := createDirectory_eq_ok_iff.mp created
  exact sound.insert_of_names named fun entry => absurd entry (by simp [missing])

/-- Replacing a file keeps a tree sound. -/
theorem preserves_sound_replaceFile (p content : String) (mode : Mode) :
    Preserves Sound (replaceFile p content mode) := by
  intro t sound
  rcases runOn_replaceFile_cases p content mode t with
    ⟨e, failed⟩ | ⟨dir, loc, staging, replaceable⟩
  · rw [failed]
    exact sound
  · rw [runOn_replaceFile_of_replaceable staging replaceable]
    obtain ⟨named, -, notDirectory⟩ := replaceable_iff.mp replaceable
    exact sound.insert_of_names named fun entry => absurd entry notDirectory

end Files

end Stencil
