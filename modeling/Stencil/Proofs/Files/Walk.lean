import Stencil.Files.Resolve
import Mathlib.Data.List.Induction

/-!
# Following paths

`FileTree.Leads` says that names lead from one directory to another, through so many symbolic links
at most.  A path is resolved in two parts: names that lead to a directory can be cut off
(`resolveSteps_append`), and whatever stands before another name has to lead to a directory
(`exists_leads`).  Only directories and links are passed on the way, so names lead to the same
directory in every tree that keeps these (`Leads.mono`).
-/

namespace Stencil.FileTree

/-- A name that is looked up in a directory. -/
structure IsEntryName (name : String) : Prop where
  ne_dot : name ≠ "."
  ne_up : name ≠ ".."
  short : name.utf8ByteSize ≤ maxName

/-- The names lead from the directory `loc` to the directory at the end, through so many links at
most. -/
inductive Leads (t : FileTree) : Nat → Location → List String → Location → Prop
  | nil {links loc} : Leads t links loc [] loc
  | dot {links loc rest dir} : Leads t links loc rest dir → Leads t links loc ("." :: rest) dir
  | up {links loc rest dir} :
      Leads t links loc.dropLast rest dir → Leads t links loc (".." :: rest) dir
  | enter {links loc name rest dir} : IsEntryName name →
      t.get? (loc ++ [name]) = some .directory → Leads t links (loc ++ [name]) rest dir →
      Leads t links loc (name :: rest) dir
  | jump {links loc name target rest dir} : IsEntryName name →
      t.get? (loc ++ [name]) = some (.link target) →
      Leads t links (startOf loc target) (Path.steps target ++ rest) dir →
      Leads t (links + 1) loc (name :: rest) dir

variable {t u : FileTree} {follow : Bool} {links : Nat} {loc dir : Location} {name : String}
  {names rest : List String}

/-! ### One name at a time -/

/-- How resolving goes on after a symbolic link. -/
def afterLink (t : FileTree) (follow : Bool) :
    Nat → Location → List String → Except FileError Place
  | 0 => fun _ _ => .error .linkLoop
  | links + 1 => resolveSteps t follow links

lemma resolveSteps_eq_walkNames (t : FileTree) (follow : Bool) (links : Nat) :
    t.resolveSteps follow links = t.walkNames follow (afterLink t follow links) := by
  cases links with
  | zero => rfl
  | succ links => rfl

@[simp] lemma resolveSteps_nil :
    t.resolveSteps follow links loc [] = .ok (.found loc .directory) := by
  rw [resolveSteps_eq_walkNames, walkNames]

@[simp] lemma resolveSteps_dot :
    t.resolveSteps follow links loc ("." :: rest) = t.resolveSteps follow links loc rest := by
  rw [resolveSteps_eq_walkNames, walkNames, if_pos rfl]

@[simp] lemma resolveSteps_up :
    t.resolveSteps follow links loc (".." :: rest) =
      t.resolveSteps follow links loc.dropLast rest := by
  rw [resolveSteps_eq_walkNames, walkNames, if_neg (by decide), if_pos rfl]

/-- A name is looked up in the directory where resolving has come to. -/
lemma resolveSteps_cons (h : IsEntryName name) :
    t.resolveSteps follow links loc (name :: rest) =
      match t.get? (loc ++ [name]) with
      | none => if rest.isEmpty then .ok (.vacant (loc ++ [name])) else .error .notFound
      | some .directory => t.resolveSteps follow links (loc ++ [name]) rest
      | some (.file content mode) =>
        if rest.isEmpty then .ok (.found (loc ++ [name]) (.file content mode))
        else .error .notDirectory
      | some (.link target) =>
        if rest.isEmpty && !follow then .ok (.found (loc ++ [name]) (.link target))
        else afterLink t follow links (startOf loc target) (Path.steps target ++ rest) := by
  rw [resolveSteps_eq_walkNames, walkNames, if_neg h.ne_dot, if_neg h.ne_up]
  exact if_neg (Nat.not_lt.mpr h.short)

/-- A name that is too long leads nowhere. -/
lemma resolveSteps_cons_of_long (hdot : name ≠ ".") (hup : name ≠ "..")
    (h : maxName < name.utf8ByteSize) :
    t.resolveSteps follow links loc (name :: rest) = .error .nameTooLong := by
  rw [resolveSteps_eq_walkNames, walkNames, if_neg hdot, if_neg hup, if_pos h]

/-- The last name of a path is looked up where the names before it lead to. -/
lemma resolveSteps_singleton (h : IsEntryName name) :
    t.resolveSteps false links loc [name] =
      match t.get? (loc ++ [name]) with
      | none => .ok (.vacant (loc ++ [name]))
      | some e => .ok (.found (loc ++ [name]) e) := by
  rw [resolveSteps_cons h]
  cases t.get? (loc ++ [name]) with
  | none => rfl
  | some e =>
    cases e with
    | directory => exact resolveSteps_nil
    | file content mode => rfl
    | link target => rfl

/-! ### Cutting a path in two -/

/-- Names that lead to a directory can be cut off the front of a path; when nothing follows them,
links have to be followed to the end. -/
lemma resolveSteps_append (h : Leads t links loc names dir) :
    ∃ left ≤ links, ∀ (follow : Bool) (rest : List String), (rest ≠ [] ∨ follow = true) →
      t.resolveSteps follow links loc (names ++ rest) = t.resolveSteps follow left dir rest := by
  induction h with
  | @nil links loc => exact ⟨links, Nat.le_refl links, fun follow rest _ => rfl⟩
  | dot h ih =>
    obtain ⟨left, le, same⟩ := ih
    refine ⟨left, le, fun follow rest hrest => ?_⟩
    rw [List.cons_append, resolveSteps_dot, same follow rest hrest]
  | up h ih =>
    obtain ⟨left, le, same⟩ := ih
    refine ⟨left, le, fun follow rest hrest => ?_⟩
    rw [List.cons_append, resolveSteps_up, same follow rest hrest]
  | enter isName entered h ih =>
    obtain ⟨left, le, same⟩ := ih
    refine ⟨left, le, fun follow rest hrest => ?_⟩
    rw [List.cons_append, resolveSteps_cons isName, entered]
    exact same follow rest hrest
  | @jump links loc name target names dir isName linked h ih =>
    obtain ⟨left, le, same⟩ := ih
    refine ⟨left, Nat.le_succ_of_le le, fun follow rest hrest => ?_⟩
    have followed : ((names ++ rest).isEmpty && !follow) = false := by
      obtain nonempty | rfl := hrest
      · simp [nonempty]
      · simp
    rw [List.cons_append, resolveSteps_cons isName, linked]
    change (if ((names ++ rest).isEmpty && !follow) = true then _ else
      t.resolveSteps follow links (startOf loc target) (Path.steps target ++ (names ++ rest))) = _
    rw [followed, ← List.append_assoc, same follow rest hrest]
    rfl

/-- Names before the rest of a path lead to a directory if those after a link do. -/
lemma exists_leads_of_afterLink {p : Place} (hrest : rest ≠ [] ∨ ∃ dir, p = .found dir .directory)
    (linked : ∀ loc names, afterLink t follow links loc (names ++ rest) = .ok p →
      ∃ left dir, links = left + 1 ∧ Leads t left loc names dir ∧
        (rest = [] → p = .found dir .directory))
    (h : t.resolveSteps follow links loc (names ++ rest) = .ok p) :
    ∃ dir, Leads t links loc names dir ∧ (rest = [] → p = .found dir .directory) := by
  induction names generalizing loc with
  | nil =>
    refine ⟨loc, .nil, fun empty => ?_⟩
    subst empty
    rw [List.append_nil, resolveSteps_nil] at h
    exact (Except.ok.inj h).symm
  | cons name names ih =>
    rw [List.cons_append] at h
    by_cases hdot : name = "."
    · subst hdot
      rw [resolveSteps_dot] at h
      obtain ⟨dir, leads, whole⟩ := ih h
      exact ⟨dir, .dot leads, whole⟩
    by_cases hup : name = ".."
    · subst hup
      rw [resolveSteps_up] at h
      obtain ⟨dir, leads, whole⟩ := ih h
      exact ⟨dir, .up leads, whole⟩
    by_cases short : name.utf8ByteSize ≤ maxName
    · have isName : IsEntryName name := ⟨hdot, hup, short⟩
      have last : (names ++ rest).isEmpty = true → ∃ dir, p = .found dir .directory := by
        intro empty
        refine hrest.resolve_left fun nonempty => nonempty ?_
        exact (List.append_eq_nil_iff.mp (List.isEmpty_iff.mp empty)).2
      rw [resolveSteps_cons isName] at h
      cases entry : t.get? (loc ++ [name]) with
      | none =>
        rw [entry] at h
        dsimp only at h
        split at h
        · next empty =>
          obtain ⟨dir, rfl⟩ := last empty
          cases h
        · cases h
      | some e =>
        rw [entry] at h
        cases e with
        | directory =>
          obtain ⟨dir, leads, whole⟩ := ih h
          exact ⟨dir, .enter isName entry leads, whole⟩
        | file content mode =>
          dsimp only at h
          split at h
          · next empty =>
            obtain ⟨dir, rfl⟩ := last empty
            cases h
          · cases h
        | link target =>
          dsimp only at h
          split at h
          · next empty =>
            obtain ⟨dir, rfl⟩ := last (Bool.and_eq_true_iff.mp empty).1
            cases h
          · rw [← List.append_assoc] at h
            obtain ⟨left, dir, rfl, leads, whole⟩ := linked _ _ h
            exact ⟨dir, .jump isName entry leads, whole⟩
    · rw [resolveSteps_cons_of_long hdot hup (Nat.not_le.mp short)] at h
      cases h

/-- What stands before another name of a path that leads somewhere leads to a directory, and so does
the whole path when it leads to a directory. -/
lemma exists_leads {p : Place} (hrest : rest ≠ [] ∨ ∃ dir, p = .found dir .directory)
    (h : t.resolveSteps follow links loc (names ++ rest) = .ok p) :
    ∃ dir, Leads t links loc names dir ∧ (rest = [] → p = .found dir .directory) := by
  induction links generalizing loc names with
  | zero => exact exists_leads_of_afterLink hrest (fun _ _ h => nomatch h) h
  | succ links ih =>
    refine exists_leads_of_afterLink hrest (fun loc names linked => ?_) h
    obtain ⟨dir, leads, whole⟩ := ih linked
    exact ⟨links, dir, rfl, leads, whole⟩

/-- A path that leads to a directory leads there by its names, also when a last link is not
followed. -/
lemma leads_of_found (h : t.resolveSteps follow links loc names = .ok (.found dir .directory)) :
    Leads t links loc names dir := by
  have whole : t.resolveSteps follow links loc (names ++ []) = .ok (.found dir .directory) := by
    rwa [List.append_nil]
  obtain ⟨dir', leads, same⟩ := exists_leads (.inr ⟨dir, rfl⟩) whole
  cases same rfl
  exact leads

/-- Resolving a path to its end finds the directory that its names lead to. -/
lemma resolveSteps_eq_found_directory_iff :
    t.resolveSteps true links loc names = .ok (.found dir .directory) ↔
      Leads t links loc names dir := by
  refine ⟨leads_of_found, fun leads => ?_⟩
  obtain ⟨left, -, same⟩ := resolveSteps_append leads
  have whole := same true [] (.inr rfl)
  rw [List.append_nil] at whole
  rw [whole, resolveSteps_nil]

/-- Resolving the names of a directory finds the directory that they lead to. -/
lemma resolveSteps_dot_eq_ok_iff {p : Place} :
    t.resolveSteps follow links loc (names ++ ["."]) = .ok p ↔
      ∃ dir, Leads t links loc names dir ∧ p = .found dir .directory := by
  have found : ∀ dir, Leads t links loc names dir →
      t.resolveSteps follow links loc (names ++ ["."]) = .ok (.found dir .directory) := by
    intro dir leads
    obtain ⟨left, -, same⟩ := resolveSteps_append leads
    rw [same follow ["."] (.inl (by simp)), resolveSteps_dot, resolveSteps_nil]
  constructor
  · intro h
    obtain ⟨dir, leads, -⟩ := exists_leads (.inl (by simp)) h
    rw [found dir leads] at h
    exact ⟨dir, leads, (Except.ok.inj h).symm⟩
  · rintro ⟨dir, leads, rfl⟩
    exact found dir leads

/-- Names lead to one directory only. -/
lemma Leads.unique {dir' : Location} (h : Leads t links loc names dir)
    (h' : Leads t links loc names dir') : dir = dir' := by
  have found := resolveSteps_eq_found_directory_iff.mpr h
  rw [resolveSteps_eq_found_directory_iff.mpr h'] at found
  cases found
  rfl

/-- Names that lead on from a directory lead on from it alone. -/
lemma Leads.of_append {dir' : Location} (h : Leads t links loc names dir)
    (whole : Leads t links loc (names ++ rest) dir') :
    ∃ left ≤ links, Leads t left dir rest dir' := by
  obtain ⟨left, le, same⟩ := resolveSteps_append h
  have found := resolveSteps_eq_found_directory_iff.mpr whole
  rw [same true rest (.inr rfl)] at found
  exact ⟨left, le, resolveSteps_eq_found_directory_iff.mp found⟩

/-- Names lead downwards when none of them goes up and no link stands below. -/
lemma Leads.prefix_of_noLinks (h : Leads t links loc names dir) (down : ".." ∉ names)
    (noLinks : ∀ l target, loc <+: l → t.get? l ≠ some (.link target)) : loc <+: dir := by
  induction h with
  | nil => exact List.prefix_refl _
  | dot _ ih => exact ih (fun mem => down (List.mem_cons_of_mem _ mem)) noLinks
  | up _ _ => exact absurd List.mem_cons_self down
  | @enter links loc name rest dir _ _ _ ih =>
    have below : loc <+: loc ++ [name] := List.prefix_append loc [name]
    exact below.trans (ih (fun mem => down (List.mem_cons_of_mem _ mem))
      fun l target inside => noLinks l target (below.trans inside))
  | @jump links loc name target _ _ _ linked _ _ =>
    exact absurd linked (noLinks _ target (List.prefix_append loc [name]))

/-! ### Other trees -/

/-- The second tree keeps the directories and links of the first. -/
def Keeps (t u : FileTree) : Prop :=
  ∀ loc e, t.get? loc = some e → (∀ content mode, e ≠ .file content mode) → u.get? loc = some e

/-- A new entry keeps the directories and links. -/
lemma keeps_insert {e : Entry} (fresh : t.get? loc = none) : Keeps t (t.insert loc e) := by
  intro l e' entry _
  have other : l ≠ loc := by
    rintro rfl
    rw [fresh] at entry
    cases entry
  rw [Table.get?_insert, if_neg other, entry]

/-- Names lead to the same directory in a tree that keeps directories and links. -/
lemma Leads.mono (keeps : Keeps t u) (h : Leads t links loc names dir) :
    Leads u links loc names dir := by
  induction h with
  | nil => exact .nil
  | dot _ ih => exact .dot ih
  | up _ ih => exact .up ih
  | enter isName entered _ ih => exact .enter isName (keeps _ _ entered (by simp)) ih
  | jump isName linked _ ih => exact .jump isName (keeps _ _ linked (by simp)) ih

/-- Names lead on into a directory. -/
lemma Leads.concat (h : Leads t links loc names dir) (isName : IsEntryName name)
    (entered : t.get? (dir ++ [name]) = some .directory) :
    Leads t links loc (names ++ [name]) (dir ++ [name]) := by
  induction h with
  | nil => exact .enter isName entered .nil
  | dot _ ih => exact .dot (ih entered)
  | up _ ih => exact .up (ih entered)
  | enter isName' entered' _ ih => exact .enter isName' entered' (ih entered)
  | @jump links loc first target names dir isName' linked _ ih =>
    refine .jump isName' linked ?_
    change Leads t links _ (Path.steps target ++ (names ++ [name])) _
    rw [← List.append_assoc]
    exact ih entered

/-- Names lead on through directories that stand in each other. -/
lemma Leads.append (h : Leads t links loc names dir) (isName : ∀ name ∈ rest, IsEntryName name)
    (directories : ∀ below, below <+: rest → below ≠ [] → t.get? (dir ++ below) = some .directory) :
    Leads t links loc (names ++ rest) (dir ++ rest) := by
  induction rest using List.reverseRecOn with
  | nil => simpa using h
  | append_singleton rest name ih =>
    have entered := directories (rest ++ [name]) (List.prefix_refl _) (by simp)
    have above := ih (fun n hn => isName n (List.mem_append_left _ hn)) fun below isPrefix =>
      directories below (isPrefix.trans (List.prefix_append rest [name]))
    rw [← List.append_assoc] at entered
    rw [← List.append_assoc, ← List.append_assoc]
    exact above.concat (isName name (by simp)) entered

end Stencil.FileTree
