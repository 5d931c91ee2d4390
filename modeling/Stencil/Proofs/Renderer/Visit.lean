import Stencil.Proofs.Renderer.Mirror

/-!
# A visit mirrors entry after entry

While a visit writes into another directory, the visited directory stays as it was.  So a visit does
what mirroring the entries one after another does, in the order in which the directory held them
when the visit began (`carries_visit`), although the names in a directory are read only when the
visit reaches it.
-/

namespace Stencil.Renderer

open FileTree

/-- Mirroring entries one after another, up to the first that fails. -/
inductive Mirrors (names : Namespace) (source dest : String) :
    FileTree → List (Location × Entry) → Except Failure Unit → FileTree → Prop
  | nil {t} : Mirrors names source dest t [] (.ok ()) t
  | cons {t u w p entries outcome} : (mirror names source dest p).runOn t = (.ok (), u) →
      Mirrors names source dest u entries outcome w →
      Mirrors names source dest t (p :: entries) outcome w
  | fail {t u p entries e} : (mirror names source dest p).runOn t = (.error e, u) →
      Mirrors names source dest t (p :: entries) (.error e) u

variable {t₀ t u w : FileTree} {names : Namespace} {source dest : String} {S D : Location}
  {up rel : List String} {name : String} {e : Entry} {entries more : List (Location × Entry)}

/-! ### What stays as it was -/

/-- The source path leads to the directory `S` and the destination path to the directory `D`, and
neither is inside the other. -/
structure Setting (t₀ : FileTree) (source dest : String) (S D : Location) : Prop where
  source : Leads t₀ maxLinks (startOf workingDirectory source) (Path.names source) S
  dest : Leads t₀ maxLinks (startOf workingDirectory dest) (Path.names dest) D
  tidy : Tidy (t₀.under S)
  notInside : ¬ S <+: D
  notAround : ¬ D <+: S

/-- The second tree differs from the first only in what `D` holds, keeps the directories there, and
has no links there. -/
structure Untouched (D : Location) (t₀ t : FileTree) : Prop where
  keeps : Keeps t₀ t
  frame : ∀ loc, (¬ D <+: loc ∨ loc = D) → t.get? loc = t₀.get? loc
  noLinks : ∀ loc target, D <+: loc → t.get? loc ≠ some (.link target)

/-- Mirroring one entry more leaves the rest untouched. -/
lemma Untouched.insert (state : Untouched D t₀ t) (hrel : rel ≠ []) {c : Entry}
    (notLink : ∀ target, c ≠ .link target)
    (keepsDirectory : t.get? (D ++ rel) = some .directory → c = .directory) :
    Untouched D t₀ (t.insert (D ++ rel) c) ∧ Keeps t (t.insert (D ++ rel) c) := by
  have keeps : Keeps t (t.insert (D ++ rel) c) := by
    intro loc e entry notFile
    rw [Table.get?_insert]
    split
    · next same =>
      subst same
      cases e with
      | directory => rw [keepsDirectory entry]
      | file content mode => exact absurd rfl (notFile content mode)
      | link target => exact absurd entry (state.noLinks _ target (List.prefix_append D rel))
    · exact entry
  refine ⟨⟨?_, ?_, ?_⟩, keeps⟩
  · intro loc e entry notFile
    exact keeps loc e (state.keeps loc e entry notFile) notFile
  · intro loc outside
    have other : loc ≠ D ++ rel := by
      rintro rfl
      rcases outside with outside | same
      · exact outside (List.prefix_append D rel)
      · exact hrel (by simpa using same)
    rw [Table.get?_insert, if_neg other, state.frame loc outside]
  · intro loc target inside
    rw [Table.get?_insert]
    split
    · simpa using notLink target
    · exact state.noLinks loc target inside

/-- What the source directory holds is untouched. -/
lemma Untouched.get?_source (set : Setting t₀ source dest S D) (state : Untouched D t₀ t)
    (rel : List String) : t.get? (S ++ rel) = t₀.get? (S ++ rel) := by
  refine state.frame _ (.inl fun inside => ?_)
  rcases List.prefix_or_prefix_of_prefix inside (List.prefix_append S rel) with h | h
  · exact set.notAround h
  · exact set.notInside h

/-- The source directory lists what it held. -/
lemma Untouched.children_source (set : Setting t₀ source dest S D) (state : Untouched D t₀ t)
    (rel : List String) : t.children (S ++ rel) = t₀.children (S ++ rel) := by
  refine children_congr (under_congr fun r _ => ?_)
  rw [List.append_assoc]
  exact state.get?_source set (rel ++ r)

/-- The path of a directory of the visit leads there all the time. -/
lemma Untouched.leads_source (set : Setting t₀ source dest S D) (state : Untouched D t₀ t)
    (visited : rel = [] ∨ (rel, Entry.directory) ∈ t₀.under S) :
    Leads t maxLinks (startOf workingDirectory source) (Path.names source ++ rel) (S ++ rel) :=
  (set.source.into set.tidy visited).mono state.keeps

/-! ### One entry -/

/-- Mirroring an entry fails and changes nothing, or sets the counterpart of the entry; the
counterpart of a directory whose path is refused is set before that is reported. -/
lemma mirror_cases (names : Namespace) (set : Setting t₀ source dest S D) (state : Untouched D t₀ t)
    (mem : (up ++ [name], e) ∈ t₀.under S) (notLink : ∀ target, e ≠ .link target)
    (leadsD : Leads t maxLinks (startOf workingDirectory dest) (Path.names dest ++ up) (D ++ up)) :
    (∃ err, (mirror names source dest (up ++ [name], e)).runOn t = (.error err, t)) ∨
      (∃ c, Counterpart names e c ∧ (mirror names source dest (up ++ [name], e)).runOn t =
          (.ok (), t.insert (D ++ (up ++ [name])) c) ∧
        (t.get? (D ++ (up ++ [name])) = some .directory → c = .directory) ∧
        ∀ content mode, e = .file content mode →
          Names t (Path.below dest (up ++ [name])) (D ++ (up ++ [name]))) ∨
      e = .directory ∧ ∃ problem, checkPath (Path.below source (up ++ [name])) = .error problem ∧
        (mirror names source dest (up ++ [name], e)).runOn t =
          (.error (.walk (Path.below source (up ++ [name])) problem),
            t.insert (D ++ (up ++ [name])) .directory) := by
  have areNames : AreNames (up ++ [name]) := set.tidy.isName _ mem
  have entry : t.get? (S ++ (up ++ [name])) = some e := by
    rw [state.get?_source set]
    exact (mem_under_iff.mp mem).2
  have leadsS : Leads t maxLinks (startOf workingDirectory source) (Path.names source ++ up)
      (S ++ up) := by
    refine state.leads_source set ?_
    have above := set.tidy.parent _ mem
    rwa [List.dropLast_concat] at above
  cases e with
  | link target => exact absurd rfl (notLink target)
  | file content mode =>
    rcases runOn_mirror_file areNames leadsS leadsD entry with
      failed | ⟨c, counterpart, made, named, notDirectory⟩
    · exact .inl failed
    · exact .inr (.inl ⟨c, counterpart, made, fun h => absurd h notDirectory, fun _ _ _ => named⟩)
  | directory =>
    rcases runOn_mirror_directory names areNames leadsS leadsD entry
        fun target => state.noLinks _ target (List.prefix_append D _) with failed | made
    · exact .inl failed
    · right
      cases checked : checkPath (Path.below source (up ++ [name])) with
      | ok =>
        rw [checked] at made
        exact .inl ⟨.directory, .directory, made, fun _ => rfl, fun _ _ h => nomatch h⟩
      | error problem =>
        rw [checked] at made
        exact .inr ⟨rfl, problem, rfl, made⟩

/-! ### Entry after entry -/

/-- More entries are mirrored after those that did not fail. -/
lemma Mirrors.append {outcome : Except Failure Unit}
    (h : Mirrors names source dest t entries (.ok ()) u)
    (h' : Mirrors names source dest u more outcome w) :
    Mirrors names source dest t (entries ++ more) outcome w := by
  generalize succeeded : (.ok () : Except Failure Unit) = first at h
  induction h with
  | nil => exact h'
  | cons mirrored _ ih => exact .cons mirrored (ih h' succeeded)
  | fail => cases succeeded

/-- Nothing is mirrored after an entry that fails. -/
lemma Mirrors.append_fail {err : Failure}
    (h : Mirrors names source dest t entries (.error err) u) :
    Mirrors names source dest t (entries ++ more) (.error err) u := by
  generalize failed : (.error err : Except Failure Unit) = outcome at h
  induction h with
  | nil => cases failed
  | cons mirrored _ ih => exact .cons mirrored (ih failed)
  | fail stops => exact .fail stops

/-- The paths of the counterparts of files. -/
def written (dest : String) (entries : List (Location × Entry)) : List String :=
  entries.filterMap fun p =>
    match p.2 with
    | .file _ _ => some (Path.below dest p.1)
    | _ => none

lemma written_append (dest : String) (entries more : List (Location × Entry)) :
    written dest (entries ++ more) = written dest entries ++ written dest more :=
  List.filterMap_append

/-- A part of a visit mirrors these entries and gives the paths of the files among them. -/
def Carries (t₀ : FileTree) (D : Location) (names : Namespace) (source dest : String) (t : FileTree)
    (entries : List (Location × Entry)) (run : Except Failure (List String) × FileTree) : Prop :=
  (∃ err, run.1 = .error err ∧ Mirrors names source dest t entries (.error err) run.2) ∨
    run.1 = .ok (written dest entries) ∧ Mirrors names source dest t entries (.ok ()) run.2 ∧
      Untouched D t₀ run.2 ∧ Keeps t run.2

/-! ### The entries below a visited directory -/

/-- What the directory `rel` below `S` holds, by the names from `S`. -/
def listing (t : FileTree) (S rel : Location) : List (Location × Entry) :=
  (t.under (S ++ rel)).map fun p => (rel ++ p.1, p.2)

lemma listing_nil (t : FileTree) (S : Location) : listing t S [] = t.under S := by
  simp [listing]

/-- A directory holds its entries, each with what it holds in turn. -/
lemma listing_eq_flatMap (tidy : Tidy (t.under S)) (rel : Location) :
    listing t S rel = (t.children (S ++ rel)).flatMap fun c =>
      (rel ++ [c.1], c.2) :: listing t S (rel ++ [c.1]) := by
  unfold listing
  rw [under_eq_flatMap (tidy.under_append rel), List.map_flatMap]
  congr 1
  funext c
  rw [List.map_cons, List.map_map, List.append_assoc]
  congr 2
  funext p
  simp

/-- Only directories hold something. -/
lemma listing_eq_nil (tidy : Tidy (t.under S)) (entry : t.get? (S ++ rel) = some e)
    (nonempty : rel ≠ []) (notDirectory : e ≠ .directory) : listing t S rel = [] := by
  refine List.map_eq_nil_iff.mpr (List.eq_nil_iff_forall_not_mem.mpr ?_)
  rintro ⟨r, e'⟩ mem
  obtain ⟨inner, found⟩ := mem_under_iff.mp mem
  rw [List.append_assoc] at found
  have whole : (rel ++ r, e') ∈ t.under S := mem_under_iff.mpr ⟨by simp [nonempty], found⟩
  have directory := tidy.directory_of_isPrefix whole (List.prefix_append rel r) nonempty
    (by simpa using inner)
  rw [directory] at entry
  cases entry
  exact notDirectory rfl

/-! ### The visit -/

/-- What a visit does for one entry of a directory. -/
def visitEntry (names : Namespace) (dest : String) (depth : Nat) (path within : String)
    (c : String × Entry) : Files Failure (List String) :=
  let source := Path.join path c.1
  let relative := if within.isEmpty then c.1 else Path.join within c.1
  let target := Path.join dest relative
  match c.2 with
  | .directory => entering source (prepare target) (visit names dest depth source relative)
  | .file _ _ => do
    copyFilled names source target
    return [target]
  | .link _ => return []

lemma visit_succ (names : Namespace) (dest : String) (depth : Nat) (path within : String)
    (cs : List (String × Entry)) :
    visit names dest (depth + 1) path within cs = do
      let written ← cs.mapM (visitEntry names dest depth path within)
      return written.flatten := rfl

/-- What a visit does for an entry, by the names of the entry from the visited directory. -/
lemma visitEntry_below {depth : Nat} (h : AreNames (rel ++ [name])) :
    visitEntry names dest depth (Path.below source rel) ("/".intercalate rel) (name, e) =
      match e with
      | .directory => entering (Path.below source (rel ++ [name]))
          (prepare (Path.below dest (rel ++ [name])))
          (visit names dest depth (Path.below source (rel ++ [name]))
            ("/".intercalate (rel ++ [name])))
      | .file _ _ => do
        copyFilled names (Path.below source (rel ++ [name])) (Path.below dest (rel ++ [name]))
        return [Path.below dest (rel ++ [name])]
      | .link _ => return [] := by
  have isName : Path.IsName name := (h name (by simp)).1
  have relative : ∀ n ∈ rel, Path.IsName n := fun n hn => (h n (by simp [hn])).1
  have target : Path.join dest ("/".intercalate (rel ++ [name])) =
      Path.below dest (rel ++ [name]) :=
    (if_neg (by simp)).symm
  simp only [visitEntry, Path.join_below source relative isName,
    Path.join_intercalate relative isName, target]

/-- The visit of the directory `rel` mirrors what the directory holds. -/
def VisitCarries (t₀ : FileTree) (names : Namespace) (source dest : String) (S D : Location)
    (depth : Nat) (rel : Location) : Prop :=
  ∀ t, Untouched D t₀ t → (rel = [] ∨ (rel, Entry.directory) ∈ t₀.under S) →
    Leads t maxLinks (startOf workingDirectory dest) (Path.names dest ++ rel) (D ++ rel) →
    checkPath (Path.below source rel) = .ok () →
    maxPath < depth + (Path.below source rel).utf8ByteSize →
    Carries t₀ D names source dest t (listing t₀ S rel)
      ((visit names dest depth (Path.below source rel) ("/".intercalate rel)
        (t₀.children (S ++ rel))).runOn t)

/-- A file of a visited directory is mirrored. -/
lemma carries_visitEntry_file (set : Setting t₀ source dest S D) (state : Untouched D t₀ t)
    {depth : Nat} {content : Content} {mode : Mode}
    (leadsD : Leads t maxLinks (startOf workingDirectory dest) (Path.names dest ++ rel) (D ++ rel))
    (whole : (rel ++ [name], .file content mode) ∈ t₀.under S) :
    Carries t₀ D names source dest t [(rel ++ [name], .file content mode)]
      ((visitEntry names dest depth (Path.below source rel) ("/".intercalate rel)
        (name, .file content mode)).runOn t) := by
  have unfoldedMirror : mirror names source dest (rel ++ [name], .file content mode) =
    copyFilled names (Path.below source (rel ++ [name])) (Path.below dest (rel ++ [name])) := rfl
  rw [visitEntry_below (set.tidy.isName _ whole)]
  dsimp only
  rw [← unfoldedMirror]
  rcases mirror_cases names set state whole (by simp) leadsD with
    ⟨err, failed⟩ | ⟨c, counterpart, made, keepsDirectory, -⟩ | ⟨directory, -⟩
  · rw [Files.runOn_bind_of_error failed]
    exact .inl ⟨err, rfl, .fail failed⟩
  · rw [Files.runOn_bind_of_ok made]
    have notLink : ∀ target, c ≠ .link target := by
      cases counterpart
      simp
    obtain ⟨state', keeps⟩ := state.insert (by simp) notLink keepsDirectory
    exact .inr ⟨rfl, .cons made .nil, state', keeps⟩
  · cases directory

/-- A directory in a visited one is mirrored with what it holds if what it holds is. -/
lemma carries_visitEntry_directory (set : Setting t₀ source dest S D) (state : Untouched D t₀ t)
    {depth : Nat}
    (leadsD : Leads t maxLinks (startOf workingDirectory dest) (Path.names dest ++ rel) (D ++ rel))
    (whole : (rel ++ [name], .directory) ∈ t₀.under S)
    (long : maxPath < depth + 1 + (Path.below source rel).utf8ByteSize)
    (inner : VisitCarries t₀ names source dest S D depth (rel ++ [name])) :
    Carries t₀ D names source dest t ((rel ++ [name], .directory) :: listing t₀ S (rel ++ [name]))
      ((visitEntry names dest depth (Path.below source rel) ("/".intercalate rel)
        (name, .directory)).runOn t) := by
  have further : AreNames (rel ++ [name]) := set.tidy.isName _ whole
  rw [visitEntry_below further]
  rcases mirror_cases names set state whole (by simp) leadsD with
    ⟨err, failed⟩ | ⟨c, counterpart, made, keepsDirectory, -⟩ | ⟨-, problem, -, failed⟩
  · rw [runOn_entering_of_error _ failed]
    exact .inl ⟨err, rfl, .fail failed⟩
  · obtain ⟨held, listed, goesOn⟩ := runOn_entering_of_ok (visit names dest depth
      (Path.below source (rel ++ [name])) ("/".intercalate (rel ++ [name]))) made
    cases counterpart
    obtain ⟨state', keeps⟩ := state.insert (by simp) (by simp) keepsDirectory
    rw [list_below further (state.leads_source set (.inr whole)),
      state.children_source set] at listed
    obtain ⟨checked, rfl⟩ : checkPath (Path.below source (rel ++ [name])) = .ok () ∧
        t₀.children (S ++ (rel ++ [name])) = held := by
      cases checked : checkPath (Path.below source (rel ++ [name])) with
      | error problem =>
        rw [checked] at listed
        cases listed
      | ok =>
        rw [checked] at listed
        exact ⟨rfl, Except.ok.inj listed⟩
    have leadsD' : Leads (t.insert (D ++ (rel ++ [name])) .directory) maxLinks
        (startOf workingDirectory dest) (Path.names dest ++ (rel ++ [name]))
        (D ++ (rel ++ [name])) := by
      have entered : Table.get? (t.insert (D ++ (rel ++ [name])) .directory)
          (D ++ rel ++ [name]) = some .directory := by
        rw [List.append_assoc, Table.get?_insert, if_pos rfl]
      have leads := (leadsD.mono keeps).concat (further name (by simp)).2 entered
      rwa [List.append_assoc, List.append_assoc] at leads
    rw [goesOn]
    have longer := Path.utf8ByteSize_below_lt source
      (fun n hn => (further n (List.mem_append_left _ hn)).1) (further name (by simp)).1
    rcases inner _ state' (.inr whole) leadsD' checked (by omega) with
      ⟨err, failed, stops⟩ | ⟨result, mirrored, state'', keeps'⟩
    · exact .inl ⟨err, failed, .cons made stops⟩
    · refine .inr ⟨result, .cons made mirrored, state'', ?_⟩
      exact fun loc e entry notFile => keeps' loc e (keeps loc e entry notFile) notFile
  · rw [runOn_entering_of_error _ failed]
    exact .inl ⟨_, rfl, .fail failed⟩

/-- An entry of a visited directory is mirrored with what it holds if what it holds is. -/
lemma carries_visitEntry (set : Setting t₀ source dest S D) (state : Untouched D t₀ t)
    {depth : Nat}
    (leadsD : Leads t maxLinks (startOf workingDirectory dest) (Path.names dest ++ rel) (D ++ rel))
    (mem : (name, e) ∈ t₀.children (S ++ rel))
    (long : maxPath < depth + 1 + (Path.below source rel).utf8ByteSize)
    (inner : VisitCarries t₀ names source dest S D depth (rel ++ [name])) :
    Carries t₀ D names source dest t ((rel ++ [name], e) :: listing t₀ S (rel ++ [name]))
      ((visitEntry names dest depth (Path.below source rel) ("/".intercalate rel) (name, e)).runOn
        t) := by
  have entry : t₀.get? (S ++ (rel ++ [name])) = some e := by
    rw [← List.append_assoc]
    exact mem_children_iff.mp mem
  have whole : (rel ++ [name], e) ∈ t₀.under S := mem_under_iff.mpr ⟨by simp, entry⟩
  cases e with
  | link target =>
    rw [listing_eq_nil set.tidy entry (by simp) (by simp)]
    have mirrored : (mirror names source dest (rel ++ [name], .link target)).runOn t =
      (.ok (), t) := rfl
    exact .inr ⟨rfl, .cons mirrored .nil, state, fun _ _ h _ => h⟩
  | file content mode =>
    rw [listing_eq_nil set.tidy entry (by simp) (by simp)]
    exact carries_visitEntry_file set state leadsD whole
  | directory => exact carries_visitEntry_directory set state leadsD whole long inner

/-- The entries of a visited directory are mirrored in turn. -/
lemma carries_entries (set : Setting t₀ source dest S D) {depth : Nat}
    (long : maxPath < depth + 1 + (Path.below source rel).utf8ByteSize)
    (inner : ∀ name, VisitCarries t₀ names source dest S D depth (rel ++ [name]))
    (cs : List (String × Entry)) (held : ∀ c ∈ cs, c ∈ t₀.children (S ++ rel))
    (t : FileTree) (state : Untouched D t₀ t)
    (leadsD : Leads t maxLinks (startOf workingDirectory dest) (Path.names dest ++ rel)
      (D ++ rel)) :
    Carries t₀ D names source dest t
      (cs.flatMap fun c => (rel ++ [c.1], c.2) :: listing t₀ S (rel ++ [c.1]))
      (((do
        let written ← cs.mapM (visitEntry names dest depth (Path.below source rel)
          ("/".intercalate rel))
        return written.flatten) : Files Failure (List String)).runOn t) := by
  induction cs generalizing t with
  | nil => exact .inr ⟨rfl, .nil, state, fun _ _ h _ => h⟩
  | cons c cs ih =>
    obtain ⟨name, e⟩ := c
    have first := carries_visitEntry set state leadsD (held (name, e) List.mem_cons_self) long
      (inner name)
    have apart : (do
        let written ← ((name, e) :: cs).mapM (visitEntry names dest depth (Path.below source rel)
          ("/".intercalate rel))
        return written.flatten : Files Failure (List String)) = (do
        let here ← visitEntry names dest depth (Path.below source rel) ("/".intercalate rel)
          (name, e)
        let others ← (do
          let written ← cs.mapM (visitEntry names dest depth (Path.below source rel)
            ("/".intercalate rel))
          return written.flatten : Files Failure (List String))
        return here ++ others) := by
      simp [List.mapM_cons]
    rw [apart, List.flatMap_cons]
    cases ran : (visitEntry names dest depth (Path.below source rel) ("/".intercalate rel)
        (name, e)).runOn t with
    | mk outcome u =>
      rw [ran] at first
      rcases first with ⟨err, rfl, stops⟩ | ⟨rfl, mirrored, state', keeps⟩
      · rw [Files.runOn_bind_of_error ran]
        exact .inl ⟨err, rfl, stops.append_fail⟩
      · rw [Files.runOn_bind_of_ok ran]
        have others := ih (fun c hc => held c (List.mem_cons_of_mem _ hc)) u state'
          (leadsD.mono keeps)
        cases ran' : ((do
            let written ← cs.mapM (visitEntry names dest depth (Path.below source rel)
              ("/".intercalate rel))
            return written.flatten) : Files Failure (List String)).runOn u with
        | mk outcome' w =>
          rw [ran'] at others
          rcases others with ⟨err, rfl, stops⟩ | ⟨rfl, mirrored', state'', keeps'⟩
          · rw [Files.runOn_bind_of_error ran']
            exact .inl ⟨err, rfl, mirrored.append stops⟩
          · rw [Files.runOn_bind_of_ok ran']
            refine .inr ⟨?_, mirrored.append mirrored', state'', ?_⟩
            · rw [written_append]
              rfl
            · exact fun loc e entry notFile => keeps' loc e (keeps loc e entry notFile) notFile

/-- A visit mirrors what the visited directory held when the visit began, and gives the paths of the
files. -/
theorem carries_visit (names : Namespace) (set : Setting t₀ source dest S D) (depth : Nat)
    (rel : Location) : VisitCarries t₀ names source dest S D depth rel := by
  induction depth generalizing rel with
  | zero =>
    intro t state visited leadsD checked long
    -- A path that is not refused is not longer than the number of directories that may nest.
    exfalso
    unfold checkPath at checked
    split at checked
    · cases checked
    · split at checked
      · cases checked
      · split at checked
        · cases checked
        · omega
  | succ depth ih =>
    intro t state visited leadsD checked long
    rw [visit_succ, listing_eq_flatMap set.tidy]
    exact carries_entries set long (fun name => ih (rel ++ [name])) _ (fun c hc => hc) t state
      leadsD

end Stencil.Renderer
