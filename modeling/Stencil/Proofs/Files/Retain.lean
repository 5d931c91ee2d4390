import Stencil.Proofs.Files.Directories

/-!
# What programs retain

Making directories and replacing files never takes away a directory, a file or, but for a file in
its place, a link (`Retains`).  Names that lead to a directory before and after such changes lead to
the same one (`Leads.agree`), although links on their way may have become files.
-/

namespace Stencil

/-- The kinds of entries. -/
inductive EntryKind where
  | directory
  | file
  | link
  deriving DecidableEq

/-- The kind of an entry. -/
def Entry.kind : Entry → EntryKind
  | .directory => .directory
  | .file _ _ => .file
  | .link _ => .link

namespace FileTree

variable {t u w : FileTree} {p : String} {links links' : Nat} {loc dir dir' : Location}
  {names : List String} {content : Content} {mode : Mode} {target : String}

/-- The second tree has what the first one has, but for directories where there was nothing and for
files in place of what is no directory. -/
def Retains (t u : FileTree) : Prop :=
  ∀ loc, u.get? loc = t.get? loc ∨
    t.get? loc = none ∧ u.get? loc = some .directory ∨
    t.get? loc ≠ some .directory ∧ ∃ content mode, u.get? loc = some (.file content mode)

lemma Retains.refl (t : FileTree) : Retains t t :=
  fun _ => .inl rfl

/-- A directory stays. -/
lemma Retains.directory (h : Retains t u) (entry : t.get? loc = some .directory) :
    u.get? loc = some .directory := by
  rcases h loc with same | ⟨missing, -⟩ | ⟨other, -⟩
  · rw [same, entry]
  · rw [missing] at entry
    cases entry
  · exact absurd entry other

/-- A file stays a file. -/
lemma Retains.file (h : Retains t u) (entry : t.get? loc = some (.file content mode)) :
    ∃ content' mode', u.get? loc = some (.file content' mode') := by
  rcases h loc with same | ⟨missing, -⟩ | ⟨-, replaced⟩
  · exact ⟨content, mode, same.trans entry⟩
  · rw [missing] at entry
    cases entry
  · exact replaced

/-- Where something stood, something stands. -/
lemma Retains.exists_get? (h : Retains t u) {e : Entry} (entry : t.get? loc = some e) :
    ∃ e', u.get? loc = some e' := by
  rcases h loc with same | ⟨-, added⟩ | ⟨-, content, mode, replaced⟩
  · exact ⟨e, same.trans entry⟩
  · exact ⟨_, added⟩
  · exact ⟨_, replaced⟩

/-- No link is new. -/
lemma Retains.link (h : Retains t u) (entry : u.get? loc = some (.link target)) :
    t.get? loc = some (.link target) := by
  rcases h loc with same | ⟨-, added⟩ | ⟨-, content, mode, replaced⟩
  · rw [← same, entry]
  · rw [added] at entry
    cases entry
  · rw [replaced] at entry
    cases entry

/-- A link does not become a directory. -/
lemma Retains.ne_directory (h : Retains t u) (entry : t.get? loc = some (.link target)) :
    u.get? loc ≠ some .directory := by
  intro entered
  rcases h loc with same | ⟨missing, -⟩ | ⟨-, content, mode, replaced⟩
  · rw [same, entry] at entered
    cases entered
  · rw [entry] at missing
    cases missing
  · rw [replaced] at entered
    cases entered

lemma Retains.trans (h : Retains t u) (h' : Retains u w) : Retains t w := by
  intro loc
  rcases h loc with same | ⟨missing, added⟩ | ⟨other, content, mode, replaced⟩
  · rw [← same]
    exact h' loc
  · exact .inr (.inl ⟨missing, h'.directory added⟩)
  · exact .inr (.inr ⟨other, h'.file replaced⟩)

/-- New directories take nothing away. -/
lemma AddsDirectories.retains (h : AddsDirectories p t u) : Retains t u := by
  intro loc
  rcases h loc with same | ⟨missing, added, -⟩
  · exact .inl same
  · exact .inr (.inl ⟨missing, added⟩)

/-- A file in place of what is no directory takes nothing away. -/
lemma retains_insert_file (notDirectory : t.get? loc ≠ some .directory) :
    Retains t (t.insert loc (.file content mode)) := by
  intro l
  by_cases same : l = loc
  · subst same
    exact .inr (.inr ⟨notDirectory, content, mode, by rw [Table.get?_insert, if_pos rfl]⟩)
  · exact .inl (by rw [Table.get?_insert, if_neg same])

/-! ### Where names lead -/

lemma leads_dot_iff : Leads t links loc ("." :: names) dir ↔ Leads t links loc names dir := by
  rw [← resolveSteps_eq_found_directory_iff, resolveSteps_dot, resolveSteps_eq_found_directory_iff]

lemma leads_up_iff :
    Leads t links loc (".." :: names) dir ↔ Leads t links loc.dropLast names dir := by
  rw [← resolveSteps_eq_found_directory_iff, resolveSteps_up, resolveSteps_eq_found_directory_iff]

/-- The same names lead to the same directory before and after. -/
theorem Leads.agree (retains : Retains t u) (h : Leads t links loc names dir)
    (h' : Leads u links' loc names dir') : dir = dir' := by
  induction h generalizing links' with
  | nil =>
    cases h'
    rfl
  | dot _ ih => exact ih (leads_dot_iff.mp h')
  | up _ ih => exact ih (leads_up_iff.mp h')
  | enter isName entered _ ih =>
    cases h' with
    | dot => exact absurd rfl isName.ne_dot
    | up => exact absurd rfl isName.ne_up
    | enter _ _ onward => exact ih onward
    | jump _ linked =>
      rw [retains.directory entered] at linked
      cases linked
  | jump isName linked _ ih =>
    cases h' with
    | dot => exact absurd rfl isName.ne_dot
    | up => exact absurd rfl isName.ne_up
    | enter _ entered => exact absurd entered (retains.ne_directory linked)
    | jump _ linked' onward =>
      rw [retains.link linked'] at linked
      cases linked
      exact ih onward

/-- A path that names an entry before and after names the same one. -/
lemma Names.agree (retains : Retains t u) (h : Names t p loc) (h' : Names u p dir) : loc = dir := by
  obtain ⟨-, names, name, above, cut, leads, -, rfl⟩ := h
  obtain ⟨-, names', name', above', cut', leads', -, rfl⟩ := h'
  obtain ⟨rfl, same⟩ := List.append_inj' (cut.symm.trans cut') rfl
  rw [leads.agree retains leads', same]

/-- Names that lead to a directory before and after lead to it all the time: a link on their way
that became a file does not become a link again. -/
theorem Leads.between (retains : Retains t u) (retains' : Retains u w)
    (h : Leads t links loc names dir) (h' : Leads w links' loc names dir') :
    Leads u links loc names dir := by
  induction h generalizing links' with
  | nil => exact .nil
  | dot _ ih => exact .dot (ih (leads_dot_iff.mp h'))
  | up _ ih => exact .up (ih (leads_up_iff.mp h'))
  | enter isName entered _ ih =>
    have stays := retains.directory entered
    refine .enter isName stays ?_
    cases h' with
    | dot => exact absurd rfl isName.ne_dot
    | up => exact absurd rfl isName.ne_up
    | enter _ _ onward => exact ih onward
    | jump _ linked =>
      rw [retains'.directory stays] at linked
      cases linked
  | jump isName linked _ ih =>
    cases h' with
    | dot => exact absurd rfl isName.ne_dot
    | up => exact absurd rfl isName.ne_up
    | enter _ entered => exact absurd entered ((retains.trans retains').ne_directory linked)
    | jump _ linked' onward =>
      have stays := retains'.link linked'
      have before := retains.link stays
      rw [linked] at before
      cases before
      exact .jump isName stays (ih onward)

/-- Names that lead to a directory lead to one on the way. -/
lemma Leads.of_isPrefix {first : List String} (isPrefix : first <+: names)
    (h : Leads t links loc names dir) : ∃ dir', Leads t links loc first dir' := by
  obtain ⟨rest, rfl⟩ := isPrefix
  have found := resolveSteps_eq_found_directory_iff.mpr h
  obtain ⟨dir', leads, -⟩ := exists_leads (.inr ⟨dir, rfl⟩) found
  exact ⟨dir', leads⟩

end FileTree

end Stencil
