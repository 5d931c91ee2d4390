import Stencil.Proofs.Files.Directories
import Stencil.Proofs.Files.Subtree
import Stencil.Proofs.Renderer.Copy
import Stencil.Renderer.Directory

/-!
# Mirroring one entry

`Renderer.mirror` does for one entry what a visit does: it makes the counterpart of a directory and
renders a file into its counterpart.  When the directory of the counterpart exists, mirroring an
entry changes one entry of the tree at most, the counterpart (`runOn_mirror_file`,
`runOn_mirror_directory`).
-/

namespace Stencil.Renderer

open FileTree

variable {t u : FileTree} {names : Namespace} {source dest base : String} {B S D loc : Location}
  {up rel : List String} {name : String} {e : Entry} {content : Content} {mode : Mode}

/-- Mirrors an entry of the visited directory under the same names in another directory. -/
def mirror (names : Namespace) (source dest : String) (p : Location × Entry) : Files Failure Unit :=
  match p.2 with
  | .directory =>
    entering (Path.below source p.1) (prepare (Path.below dest p.1)) fun _ => return ()
  | .file _ _ => copyFilled names (Path.below source p.1) (Path.below dest p.1)
  | .link _ => return ()

/-- What stands for an entry in a mirrored directory. -/
inductive Counterpart (names : Namespace) : Entry → Entry → Prop
  | directory : Counterpart names .directory .directory
  | file {text out mode} : fill names (String.ofList (Text.unixLines text.toList)) = .ok out →
      Counterpart names (.file (.text text) mode) (.file (.text out) mode)

/-! ### The paths of a visit -/

/-- Names that entries can have and that paths can be made of. -/
def AreNames (rel : List String) : Prop := ∀ name ∈ rel, Path.IsName name ∧ IsEntryName name

/-- A path below a directory starts where the path of the directory does. -/
lemma startOf_below (h : AreNames rel) (loc : Location) (base : String) :
    startOf loc (Path.below base rel) = startOf loc base := by
  rw [startOf, startOf, Path.isAbsolute_below base fun name hname => (h name hname).1]

/-- The names of a path below a directory. -/
lemma names_below_append (h : AreNames (up ++ [name])) (base : String) :
    Path.names (Path.below base (up ++ [name])) = Path.names base ++ up ++ [name] := by
  rw [Path.names_below base fun name hname => (h name hname).1, List.append_assoc]

/-- A path below a directory names the entry that has the same names there. -/
lemma names_below_iff (h : AreNames (up ++ [name]))
    (leads : Leads t maxLinks (startOf workingDirectory base) (Path.names base ++ up) (B ++ up)) :
    Names t (Path.below base (up ++ [name])) loc ↔
      checkPath (Path.below base (up ++ [name])) = .ok () ∧ loc = B ++ (up ++ [name]) := by
  constructor
  · rintro ⟨checked, above, last, dir, cut, leads', -, rfl⟩
    refine ⟨checked, ?_⟩
    rw [names_below_append h] at cut
    obtain ⟨rfl, same⟩ := List.append_inj' cut rfl
    cases same
    rw [startOf_below h] at leads'
    rw [leads'.unique leads, List.append_assoc]
  · rintro ⟨checked, rfl⟩
    refine ⟨checked, Path.names base ++ up, name, B ++ up, names_below_append h base, ?_,
      (h name (by simp)).2, by rw [List.append_assoc]⟩
    rw [startOf_below h]
    exact leads

/-- What is found on a path below a directory is the file that has the same names there. -/
lemma lookUp_below (h : AreNames (up ++ [name]))
    (leads : Leads t maxLinks (startOf workingDirectory base) (Path.names base ++ up) (B ++ up))
    (entry : t.get? (B ++ (up ++ [name])) = some (.file content mode)) {origin : Location}
    (found : t.lookUp true (Path.below base (up ++ [name])) = .ok (origin, e)) :
    e = .file content mode := by
  obtain ⟨checked, -⟩ := resolve_eq_ok_iff.mp (lookUp_eq_ok_iff.mp found)
  have named := (names_below_iff h leads).mpr ⟨checked, rfl⟩
  have noSlash := Path.endsInSlash_below base (by simp) fun name hname => (h name hname).1
  rw [lookUp_of_names named noSlash entry] at found
  cases found
  rfl

/-- A directory of the visit is listed unless its path is refused. -/
lemma list_below (h : AreNames rel)
    (leads : Leads t maxLinks (startOf workingDirectory base) (Path.names base ++ rel) (B ++ rel)) :
    t.list (Path.below base rel) =
      (checkPath (Path.below base rel)).map fun _ => t.children (B ++ rel) := by
  unfold list
  cases checked : checkPath (Path.below base rel) with
  | error e =>
    unfold lookUp resolve
    rw [checked]
    rfl
  | ok =>
    rw [← startOf_below h, ← Path.names_below base fun name hname => (h name hname).1] at leads
    rw [lookUp_eq_ok_iff.mpr (resolve_of_leads checked leads)]
    rfl

/-! ### Files -/

/-- A file of the visit is rendered into its counterpart, or nothing changes. -/
lemma runOn_mirror_file (h : AreNames (up ++ [name]))
    (leadsS : Leads t maxLinks (startOf workingDirectory source) (Path.names source ++ up)
      (S ++ up))
    (leadsD : Leads t maxLinks (startOf workingDirectory dest) (Path.names dest ++ up) (D ++ up))
    (entry : t.get? (S ++ (up ++ [name])) = some (.file content mode)) :
    (∃ e, (mirror names source dest (up ++ [name], .file content mode)).runOn t = (.error e, t)) ∨
      ∃ c, Counterpart names (.file content mode) c ∧
        (mirror names source dest (up ++ [name], .file content mode)).runOn t =
          (.ok (), t.insert (D ++ (up ++ [name])) c) ∧
        Names t (Path.below dest (up ++ [name])) (D ++ (up ++ [name])) ∧
        t.get? (D ++ (up ++ [name])) ≠ some .directory := by
  have unfolded : mirror names source dest (up ++ [name], .file content mode) =
      copyFilled names (Path.below source (up ++ [name])) (Path.below dest (up ++ [name])) := rfl
  rw [unfolded]
  rcases runOn_copyFilled_cases names (Path.below source (up ++ [name]))
      (Path.below dest (up ++ [name])) t with
    failed | ⟨loc, out, mode', dir, renders, staging, replaceable⟩
  · exact .inl failed
  · obtain ⟨named, -, notDirectory⟩ := replaceable_iff.mp replaceable
    obtain ⟨-, rfl⟩ := (names_below_iff h leadsD).mp named
    refine .inr ⟨.file (.text out) mode', ?_, ?_, named, notDirectory⟩
    · obtain ⟨origin, text, found, filled⟩ := renders
      cases lookUp_below h leadsS entry found
      exact .file filled
    · exact runOn_copyFilled_of_replaceable renders staging replaceable

/-! ### Directories -/

/-- Preparing a directory adds directories on its way, also when it fails. -/
lemma addsDirectories_of_prepare {p : String} {outcome : Except Failure Unit}
    (prepared : (prepare p).runOn t = (outcome, u)) : AddsDirectories p t u := by
  have added := Files.addsDirectories_makeDirectories p t
  unfold prepare at prepared
  rw [Files.runOn_adapt] at prepared
  obtain ⟨-, rfl⟩ := Prod.mk.inj prepared
  exact added

/-- A directory that could be prepared is where its path leads. -/
lemma leads_of_prepare {p : String} (nonempty : p ≠ "")
    (prepared : (prepare p).runOn t = (.ok (), u)) :
    ∃ dir, Leads u maxLinks (startOf workingDirectory p) (Path.names p) dir := by
  unfold prepare at prepared
  rw [Files.runOn_adapt] at prepared
  cases made : (Files.makeDirectories p).runOn t with
  | mk outcome left =>
    rw [made] at prepared
    cases outcome with
    | error e => cases prepared
    | ok _ =>
      cases prepared
      exact (isDirectory_iff.mp (Files.isDirectory_of_runOn_makeDirectories nonempty made)).2

/-- A directory that a path below another one leads to is the one that has the same names there. -/
lemma get?_of_isDirectory_below (h : AreNames (up ++ [name]))
    (leads : Leads t maxLinks (startOf workingDirectory base) (Path.names base ++ up) (B ++ up))
    (noLink : ∀ target, t.get? (B ++ (up ++ [name])) ≠ some (.link target))
    (isDirectory : t.isDirectory (Path.below base (up ++ [name])) = true) :
    t.get? (B ++ (up ++ [name])) = some .directory := by
  obtain ⟨-, dir, leads'⟩ := isDirectory_iff.mp isDirectory
  rw [startOf_below h, names_below_append h] at leads'
  have found := resolveSteps_eq_found_directory_iff.mpr leads'
  obtain ⟨left, -, same⟩ := resolveSteps_append leads
  rw [same true [name] (.inr rfl), resolveSteps_cons (h name (by simp)).2,
    List.append_assoc] at found
  cases entry : t.get? (B ++ (up ++ [name])) with
  | none =>
    rw [entry] at found
    cases found
  | some e =>
    cases e with
    | directory => rfl
    | file content mode =>
      rw [entry] at found
      cases found
    | link target => exact absurd entry (noLink target)

/-- The counterpart of a directory is made or was there, or nothing changes. -/
lemma runOn_prepare_below (h : AreNames (up ++ [name]))
    (leads : Leads t maxLinks (startOf workingDirectory dest) (Path.names dest ++ up) (D ++ up))
    (noLink : ∀ target, t.get? (D ++ (up ++ [name])) ≠ some (.link target)) :
    (∃ e, (prepare (Path.below dest (up ++ [name]))).runOn t = (.error e, t)) ∨
      (prepare (Path.below dest (up ++ [name]))).runOn t =
        (.ok (), t.insert (D ++ (up ++ [name])) .directory) := by
  have nonempty := Path.below_ne_empty dest (by simp) fun name hname => (h name hname).1
  have leads' := leads
  rw [← startOf_below h] at leads'
  unfold prepare
  rw [Files.runOn_adapt,
    Files.runOn_makeDirectories_of_leads nonempty (names_below_append h dest) leads',
    Files.runOn_attempt]
  cases created : t.createDirectory (Path.below dest (up ++ [name])) with
  | ok u =>
    obtain ⟨loc, named, -, rfl⟩ := createDirectory_eq_ok_iff.mp created
    rw [((names_below_iff h leads).mp named).2]
    exact .inr rfl
  | error e =>
    by_cases isDirectory : t.isDirectory (Path.below dest (up ++ [name])) = true
    · have entry := get?_of_isDirectory_below h leads noLink isDirectory
      rw [Table.insert_of_get?_eq_some entry]
      dsimp only
      rw [if_pos isDirectory]
      exact .inr rfl
    · dsimp only
      rw [if_neg isDirectory]
      exact .inl ⟨.file e, rfl⟩

/-- A directory is listed before its counterpart is made, and a failure to list it is reported
afterwards. -/
lemma runOn_entering {α : Type} (path : String) (prepare : Files Failure Unit)
    (next : List (String × Entry) → Files Failure α) (t : FileTree) :
    (entering path prepare next).runOn t =
      match prepare.runOn t with
      | (.error e, left) => (.error e, left)
      | (.ok (), left) =>
        match t.list path with
        | .ok entries => (next entries).runOn left
        | .error e => (.error (.walk path e), left) := by
  unfold entering
  rw [Files.runOn_get_bind, Files.runOn_bind]
  obtain ⟨outcome, left⟩ := prepare.runOn t
  cases outcome with
  | error e => rfl
  | ok _ =>
    dsimp only
    cases t.list path with
    | ok entries => rfl
    | error e => rfl

/-- A directory that cannot be entered is not visited. -/
lemma runOn_entering_of_error {α : Type} {path : String} {prepare : Files Failure Unit}
    (next : List (String × Entry) → Files Failure α) {err : Failure}
    (h : (entering path prepare fun _ => return ()).runOn t = (.error err, u)) :
    (entering path prepare next).runOn t = (.error err, u) := by
  rw [runOn_entering] at h ⊢
  cases prepared : prepare.runOn t with
  | mk outcome left =>
    rw [prepared] at h
    cases outcome with
    | error e =>
      cases h
      rfl
    | ok _ =>
      dsimp only at h ⊢
      cases listed : t.list path with
      | error e =>
        rw [listed] at h
        cases h
        rfl
      | ok entries =>
        rw [listed] at h
        cases h

/-- A directory that can be entered is visited with the entries that it held. -/
lemma runOn_entering_of_ok {α : Type} {path : String} {prepare : Files Failure Unit}
    (next : List (String × Entry) → Files Failure α)
    (h : (entering path prepare fun _ => return ()).runOn t = (.ok (), u)) :
    ∃ entries, t.list path = .ok entries ∧
      (entering path prepare next).runOn t = (next entries).runOn u := by
  rw [runOn_entering] at h ⊢
  cases prepared : prepare.runOn t with
  | mk outcome left =>
    rw [prepared] at h
    cases outcome with
    | error e => cases h
    | ok _ =>
      dsimp only at h ⊢
      cases listed : t.list path with
      | error e =>
        rw [listed] at h
        cases h
      | ok entries =>
        rw [listed] at h
        cases h
        exact ⟨entries, rfl, rfl⟩

/-- The counterpart of a directory of the visit is made, also when the directory turns out to have a
path that is refused, or nothing changes. -/
lemma runOn_mirror_directory (names : Namespace) (h : AreNames (up ++ [name]))
    (leadsS : Leads t maxLinks (startOf workingDirectory source) (Path.names source ++ up)
      (S ++ up))
    (leadsD : Leads t maxLinks (startOf workingDirectory dest) (Path.names dest ++ up) (D ++ up))
    (entry : t.get? (S ++ (up ++ [name])) = some .directory)
    (noLink : ∀ target, t.get? (D ++ (up ++ [name])) ≠ some (.link target)) :
    (∃ e, (mirror names source dest (up ++ [name], .directory)).runOn t = (.error e, t)) ∨
      (mirror names source dest (up ++ [name], .directory)).runOn t =
        ((checkPath (Path.below source (up ++ [name]))).mapError
            (.walk (Path.below source (up ++ [name]))),
          t.insert (D ++ (up ++ [name])) .directory) := by
  have unfolded : mirror names source dest (up ++ [name], .directory) =
      entering (Path.below source (up ++ [name])) (prepare (Path.below dest (up ++ [name])))
        fun _ => return () := rfl
  have enters : Leads t maxLinks (startOf workingDirectory source)
      (Path.names source ++ (up ++ [name])) (S ++ (up ++ [name])) := by
    rw [← List.append_assoc, ← List.append_assoc]
    exact leadsS.concat (h name (by simp)).2 (by rw [List.append_assoc]; exact entry)
  rw [unfolded, runOn_entering, list_below h enters]
  rcases runOn_prepare_below h leadsD noLink with ⟨e, failed⟩ | made
  · rw [failed]
    exact .inl ⟨e, rfl⟩
  · rw [made]
    right
    cases checkPath (Path.below source (up ++ [name])) with
    | ok => rfl
    | error problem => rfl

end Stencil.Renderer
