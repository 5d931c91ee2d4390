import Stencil.Proofs.Files.Parents
import Stencil.Proofs.Renderer.TwoPaths

/-!
# Rendering a directory through a link

A link to a directory is visited for what the directory holds, but the link itself is no entry that
has a counterpart, so the destination is not made for it.  Rendering through the link comes to what
rendering the directory comes to exactly when the destination is there already, or can be made and
is made anyway, since the first entry is a directory (`outcome_link_eq_iff`).
-/

namespace Stencil.Renderer

open FileTree Files

variable {names : Namespace} {source link dest path within : String} {t u w : FileTree}
  {S loc : Location} {name target : String} {e : Entry} {cs links others : List (String × Entry)}

/-! ### The first entry of a visit -/

/-- Links are skipped. -/
lemma runOn_locate_links (h : ∀ c ∈ links, c.2.kind = .link) (depth : Nat)
    (rest : List (String × Entry)) (t : FileTree) :
    runOn ((locate names dest (depth + 1) path within (links ++ rest)).adapt Stop.relative) t =
      runOn ((locate names dest (depth + 1) path within rest).adapt Stop.relative) t := by
  induction links with
  | nil => rfl
  | cons c links ih =>
    obtain ⟨isLink, others⟩ := List.forall_mem_cons.mp h
    obtain ⟨name, e⟩ := c
    cases e with
    | link target =>
      have skipped : locateEntry names dest (locate names dest depth) path within
          (name, .link target) = (return []) := rfl
      rw [List.cons_append, locate_cons, skipped, pure_bind]
      simp only [List.nil_append, bind_pure]
      exact ih others
    | directory => cases isLink
    | file content mode => cases isLink

/-- Entries are all links, or one that is none comes first after links. -/
lemma all_links_or_first (cs : List (String × Entry)) :
    (∀ c ∈ cs, c.2.kind = .link) ∨
      ∃ links c others, cs = links ++ c :: others ∧ (∀ c ∈ links, c.2.kind = .link) ∧
        c.2.kind ≠ .link := by
  induction cs with
  | nil => exact .inl (by simp)
  | cons c cs ih =>
    by_cases isLink : c.2.kind = .link
    · rcases ih with all | ⟨links, c', others, rfl, areLinks, notLink⟩
      · exact .inl (List.forall_mem_cons.mpr ⟨isLink, all⟩)
      · exact .inr ⟨c :: links, c', others, rfl,
          List.forall_mem_cons.mpr ⟨isLink, areLinks⟩, notLink⟩
    · exact .inr ⟨[], c, cs, rfl, by simp, isLink⟩

/-- A program in two parts does not fail in a way in which neither part fails. -/
lemma runOn_bind_ne_error {ε α β : Type} {program : Files ε α} {next : α → Files ε β} {e : ε}
    (first : ∀ t left, runOn program t ≠ (.error e, left))
    (onward : ∀ a t left, runOn (next a) t ≠ (.error e, left)) (t left : FileTree) :
    runOn (program >>= next) t ≠ (.error e, left) := by
  intro failed
  rw [runOn_bind] at failed
  rcases ran : runOn program t with ⟨problem | a, mid⟩
  · rw [ran] at failed
    cases failed
    exact first t _ ran
  · rw [ran] at failed
    exact onward a mid left failed

/-- A program that deals with an entry fails on that entry. -/
lemma runOn_adapt_const_ne {α : Type} {program : Files Failure α} {relative other : String}
    (h : relative ≠ other) (t left : FileTree) :
    runOn (program.adapt fun _ => relative) t ≠ (.error other, left) := by
  intro failed
  rw [runOn_adapt] at failed
  rcases ran : runOn program t with ⟨problem | a, mid⟩
  · rw [ran] at failed
    cases failed
    exact h rfl
  · rw [ran] at failed
    cases failed

/-- An entry is below the visited directory if it has a name or the directory that holds it is. -/
lemma relative_ne_empty (named : within ≠ "" ∨ name ≠ "") :
    (if within.isEmpty then name else Path.join within name) ≠ "" := by
  split
  · next empty => exact named.resolve_left fun ne => ne (String.isEmpty_iff.mp empty)
  · next nonempty =>
    unfold Path.join
    split
    · next absolute =>
      rintro rfl
      cases absolute
    · split <;> simp_all

/-- Dealing with an entry fails on this entry or below it. -/
lemma runOn_locateEntry_ne {depth : Nat}
    (relative : (if within.isEmpty then name else Path.join within name) ≠ "")
    (inner : ∀ path within cs, within ≠ "" → ∀ t left,
      runOn ((locate names dest depth path within cs).adapt Stop.relative) t ≠ (.error "", left))
    (t left : FileTree) :
    runOn ((locateEntry names dest (locate names dest depth) path within (name, e)).adapt
      Stop.relative) t ≠ (.error "", left) := by
  cases e with
  | link target => exact fun failed => nomatch failed
  | file content mode =>
    unfold locateEntry
    dsimp only
    rw [adapt_relative_locating]
    exact runOn_adapt_const_ne relative t left
  | directory =>
    unfold locateEntry
    dsimp only
    rw [adapt_bind, adapt_relative_locating]
    exact runOn_bind_ne_error (runOn_adapt_const_ne relative)
      (fun held t left => inner _ _ held relative t left) t left

/-- A visit fails on entries below the visited directory only. -/
lemma runOn_locate_ne (depth : Nat) (path within : String) (cs : List (String × Entry))
    (named : within ≠ "" ∨ 0 < depth ∧ ∀ c ∈ cs, c.1 ≠ "") (t left : FileTree) :
    runOn ((locate names dest depth path within cs).adapt Stop.relative) t ≠ (.error "", left) := by
  induction depth generalizing path within cs t left with
  | zero =>
    have nonempty := named.resolve_right fun ⟨positive, _⟩ => Nat.lt_irrefl 0 positive
    intro failed
    exact nonempty (Except.error.inj (congrArg Prod.fst failed))
  | succ depth inner =>
    induction cs generalizing t left with
    | nil => exact fun failed => nomatch failed
    | cons c cs ih =>
      obtain ⟨name, e⟩ := c
      have here : within ≠ "" ∨ name ≠ "" :=
        named.imp_right fun ⟨_, all⟩ => all _ List.mem_cons_self
      have later : within ≠ "" ∨ 0 < depth + 1 ∧ ∀ c ∈ cs, c.1 ≠ "" :=
        named.imp_right fun ⟨positive, all⟩ =>
          ⟨positive, fun c mem => all c (List.mem_cons_of_mem _ mem)⟩
      have entry : ∀ t left, runOn ((locateEntry names dest (locate names dest depth) path within
          (name, e)).adapt Stop.relative) t ≠ (.error "", left) :=
        runOn_locateEntry_ne (relative_ne_empty here) fun path within held below =>
          inner path within held (.inl below)
      rw [locate_cons, adapt_bind]
      refine runOn_bind_ne_error entry (fun _ t left => ?_) t left
      rw [adapt_bind]
      refine runOn_bind_ne_error (ih later) (fun _ _ _ failed => ?_) t left
      cases failed

/-- What a visit does for a directory that the visited directory holds. -/
lemma locateEntry_directory
    (inner : String → String → List (String × Entry) → Files Stop (List String)) :
    locateEntry names dest inner source "" (name, .directory) =
      (locating name (entering (Path.join source name) (prepare (Path.join dest name)) pure) >>=
        inner (Path.join source name) name) := rfl

/-- What a visit does for a file that the visited directory holds. -/
lemma locateEntry_file (content : Content) (mode : Mode)
    (inner : String → String → List (String × Entry) → Files Stop (List String)) :
    locateEntry names dest inner source "" (name, .file content mode) =
      locating name (copyFilled names (Path.join source name) (Path.join dest name) >>= fun _ =>
        return [Path.join dest name]) := rfl

/-! ### The two calls -/

/-- Rendering a directory makes the destination and visits what the directory holds. -/
lemma outcome_of_directory (r : Renderer) (caller : Namespace) (dest : String)
    (found : t.lookUp false source = .ok (S, .directory)) :
    r.outcome caller source dest t =
      match (prepare (Path.join dest "")).runOn t with
      | (.error _, left) => (.error "", left)
      | (.ok (), u) => runOn ((locate (r.names caller) dest maxPath source "" (t.children S)).adapt
          Stop.relative) u := by
  have entered : runOn ((locating "" (rootEntry false source)).adapt Stop.relative) t =
      (.ok .directory, t) := by
    rw [adapt_relative_locating, runOn_adapt_eq_ok_iff, runOn_rootEntry_eq_ok_iff]
    exact ⟨rfl, S, found⟩
  have listed := list_eq_ok_iff.mpr ⟨S, lookUp_true_of_directory found, rfl⟩
  unfold outcome locateDirectory
  rw [adapt_bind, runOn_bind_of_ok entered]
  dsimp only
  rw [adapt_bind, adapt_relative_locating, runOn_bind, runOn_adapt, runOn_entering, listed]
  rcases (prepare (Path.join dest "")).runOn t with ⟨_ | _, u⟩
  · rfl
  · rfl

/-- Rendering through a link visits what the directory holds. -/
lemma outcome_of_link (r : Renderer) (caller : Namespace)
    (linked : t.lookUp false link = .ok (loc, .link target))
    (found : t.lookUp true link = .ok (S, .directory)) :
    r.outcome caller link dest t =
      runOn ((locate (r.names caller) dest maxPath link "" (t.children S)).adapt
        Stop.relative) t := by
  have first : runOn ((locating "" (rootEntry false link)).adapt Stop.relative) t =
      (.ok (.link target), t) := by
    rw [adapt_relative_locating, runOn_adapt_eq_ok_iff, runOn_rootEntry_eq_ok_iff]
    exact ⟨rfl, loc, linked⟩
  have second : runOn ((locating "" (rootEntry true link)).adapt Stop.relative) t =
      (.ok .directory, t) := by
    rw [adapt_relative_locating, runOn_adapt_eq_ok_iff, runOn_rootEntry_eq_ok_iff]
    exact ⟨rfl, S, found⟩
  have listed := list_eq_ok_iff.mpr ⟨S, found, rfl⟩
  unfold outcome locateDirectory
  rw [adapt_bind, runOn_bind_of_ok first]
  dsimp only
  rw [adapt_bind, runOn_bind_of_ok second]
  dsimp only
  rw [adapt_bind, adapt_relative_locating, runOn_bind, runOn_adapt, runOn_entering, listed]
  rfl

/-! ### Making the destination -/

/-- The path of a destination without its slash, and with a name. -/
lemma exists_slash (hdest : dest ≠ "") (isName : Path.IsName name) :
    ∃ base, Path.join dest "" = base ++ "/" ∧ Path.join dest name = base ++ "/" ++ name := by
  have nonempty : dest.isEmpty = false := by simpa using hdest
  rw [Path.join_of_relative rfl, Path.join_of_relative (Path.isAbsolute_of_isName isName),
    nonempty, Bool.false_or, String.append_empty]
  by_cases slash : Path.endsInSlash dest = true
  · obtain ⟨base, rfl⟩ := Path.exists_of_endsInSlash slash
    rw [if_pos slash, if_pos slash]
    exact ⟨base, rfl, rfl⟩
  · rw [if_neg slash, if_neg slash, String.append_empty]
    exact ⟨dest, rfl, rfl⟩

/-- Making a directory in the destination comes to the same when the destination was made first. -/
lemma runOn_prepare_name (isName : Path.IsName name ∧ IsEntryName name)
    (checked : checkPath (Path.join dest name) = .ok ())
    (prepared : (prepare (Path.join dest "")).runOn t = (.ok (), u)) :
    (prepare (Path.join dest name)).runOn t = (prepare (Path.join dest name)).runOn u := by
  by_cases empty : dest = ""
  · subst empty
    cases prepared
    rfl
  · obtain ⟨base, slash, entry⟩ := exists_slash empty isName.1
    rw [slash, prepare, runOn_adapt_eq_ok_iff] at prepared
    rw [entry] at checked ⊢
    rw [prepare, runOn_adapt, runOn_adapt,
      runOn_makeDirectories_name isName.1 isName.2.ne_dot checked prepared]

/-- A destination that is there is not made. -/
lemma runOn_prepare_of_isDirectory (h : t.isDirectory dest = true) :
    (prepare dest).runOn t = (.ok (), t) := by
  rw [prepare, runOn_adapt_eq_ok_iff]
  exact runOn_makeDirectories_of_isDirectory h

/-- A path that is refused is not made. -/
lemma runOn_prepare_of_refused {problem : FileError} (hdest : dest ≠ "")
    (refused : checkPath dest = .error problem) :
    (prepare dest).runOn t = (.error (.file problem), t) := by
  have failed : t.createDirectory dest = .error problem := by
    rw [createDirectory, target, refused]
    rfl
  have found : problem ≠ .notFound := by
    rintro rfl
    rw [checkPath, if_neg (by simpa using hdest)] at refused
    split at refused
    · cases refused
    · split at refused <;> cases refused
  have missing : ¬ t.isDirectory dest = true := by
    intro stands
    rw [(isDirectory_iff.mp stands).1] at refused
    cases refused
  rw [prepare, runOn_adapt, makeDirectories, if_neg (by simpa using hdest), runOn_makeDirectory,
    failed, if_neg (by simpa using found), runOn_attempt, failed]
  dsimp only
  rw [if_neg missing]
  rfl

/-- Nothing is rendered into a destination that is not there. -/
lemma runOn_copyFilled_ne_ok (isName : Path.IsName name ∧ IsEntryName name)
    (checked : checkPath (Path.join dest "") = .ok ())
    (missing : ¬ t.isDirectory (Path.join dest "") = true) :
    (copyFilled names source (Path.join dest name)).runOn t ≠ (.ok (), u) := by
  intro copied
  obtain ⟨loc, out, mode, dir, -, -, replaceable, -⟩ := runOn_copyFilled_eq_ok_iff.mp copied
  obtain ⟨⟨-, above, last, dir, cut, leads, -⟩, -, -⟩ := replaceable_iff.mp replaceable
  have relative := Path.isAbsolute_of_isName isName.1
  rw [Path.names_join relative, Path.names_of_isName isName.1] at cut
  obtain ⟨rfl, -⟩ := List.append_inj' cut rfl
  refine missing (isDirectory_iff.mpr ⟨checked, dir, ?_⟩)
  rw [startOf, Path.isAbsolute_join relative] at leads
  rwa [startOf, Path.isAbsolute_join rfl, Path.names_join rfl, Path.names_empty, List.append_nil]

/-- A tree that retains a directory that was made is not the one that lacked it. -/
lemma ne_of_retains (added : AddsDirectories dest t u) (other : u ≠ t) (retains : Retains u w) :
    w ≠ t := by
  rintro rfl
  refine other (Table.ext_get? fun loc => ?_)
  rcases added loc with same | ⟨missing, stands, -⟩
  · exact same
  · rw [retains.directory stands] at missing
    cases missing

/-! ### When both calls come to the same -/

/-- The destination need not be made first: it is there already, or it can be made and is made
anyway, since the first entry of the directory `S`, apart from links, is a directory and its
counterpart has a path that is not refused. -/
def Ready (t : FileTree) (dest : String) (S : Location) : Prop :=
  (prepare (Path.join dest "")).runOn t = (.ok (), t) ∨
    ∃ u links name others, (prepare (Path.join dest "")).runOn t = (.ok (), u) ∧
      t.children S = links ++ (name, Entry.directory) :: others ∧
      (∀ c ∈ links, c.2.kind = .link) ∧ checkPath (Path.join dest name) = .ok ()

/-- The first entry of a visit, apart from links, is dealt with first. -/
lemma runOn_locate_first (areLinks : ∀ c ∈ links, c.2.kind = .link) (depth : Nat)
    (c : String × Entry) (others : List (String × Entry)) (t : FileTree) :
    runOn ((locate names dest (depth + 1) path within (links ++ c :: others)).adapt
        Stop.relative) t =
      runOn ((locateEntry names dest (locate names dest depth) path within c).adapt
        Stop.relative >>= fun here => (do
          let others ← locate names dest (depth + 1) path within others
          return here ++ others : Files Stop (List String)).adapt Stop.relative) t := by
  rw [runOn_locate_links areLinks, locate_cons, adapt_bind]

/-- A visit whose first entry is a directory comes to the same when the destination was made before
and holds nothing yet that the visit comes to. -/
lemma runOn_locate_of_first (areLinks : ∀ c ∈ links, c.2.kind = .link) (depth : Nat)
    (prepared : (prepare (Path.join dest name)).runOn t = (prepare (Path.join dest name)).runOn u)
    (listed : t.list (Path.join source name) = u.list (Path.join source name)) :
    runOn ((locate names dest (depth + 1) source "" (links ++ (name, .directory) :: others)).adapt
        Stop.relative) t =
      runOn ((locate names dest (depth + 1) source "" (links ++ (name, .directory) :: others)).adapt
        Stop.relative) u := by
  rw [runOn_locate_first areLinks, runOn_locate_first areLinks, locateEntry_directory, adapt_bind,
    adapt_relative_locating]
  have entered : runOn ((entering (Path.join source name) (prepare (Path.join dest name))
      pure).adapt fun _ => name) t = runOn ((entering (Path.join source name)
        (prepare (Path.join dest name)) pure).adapt fun _ => name) u := by
    rw [runOn_adapt, runOn_adapt, runOn_entering, runOn_entering, prepared, listed]
  apply runOn_bind_congr
  · exact runOn_bind_congr entered fun _ _ _ => rfl
  · exact fun _ _ _ => rfl

/-- Dealing with a file fails when the destination is not there, and so does dealing with a
directory whose counterpart has a path that is refused.  Nothing changes then. -/
lemma exists_runOn_locateEntry_eq_error (isName : Path.IsName name ∧ IsEntryName name)
    (checked : checkPath (Path.join dest "") = .ok ())
    (missing : ¬ t.isDirectory (Path.join dest "") = true) (notLink : e.kind ≠ .link)
    (refused : e = .directory → checkPath (Path.join dest name) ≠ .ok ()) (depth : Nat) :
    ∃ relative, runOn ((locateEntry names dest (locate names dest depth) source "" (name, e)).adapt
      Stop.relative) t = (.error relative, t) := by
  cases e with
  | link target => exact absurd rfl notLink
  | file content mode =>
    rw [locateEntry_file, adapt_relative_locating, runOn_adapt]
    rcases copied : (copyFilled names (Path.join source name) (Path.join dest name)).runOn t with
      ⟨problem | _, left⟩
    · rw [runOn_bind_of_error copied, eq_of_runOn_copyFilled_eq_error copied]
      exact ⟨name, rfl⟩
    · exact absurd copied (runOn_copyFilled_ne_ok isName checked missing)
  | directory =>
    cases checkedName : checkPath (Path.join dest name) with
    | ok => exact absurd checkedName (refused rfl)
    | error problem =>
      have failed : (prepare (Path.join dest name)).runOn t = (.error (.file problem), t) :=
        runOn_prepare_of_refused (Path.join_ne_empty isName.1.ne_empty) checkedName
      have entered : runOn ((entering (Path.join source name) (prepare (Path.join dest name))
          pure).adapt fun _ => name) t = (.error name, t) := by
        rw [runOn_adapt, runOn_entering, failed]
        rfl
      rw [locateEntry_directory, adapt_bind, adapt_relative_locating, runOn_bind_of_error entered]
      exact ⟨name, rfl⟩

/-- Rendering through a link changes nothing when the destination has to be made first. -/
lemma outcome_link_of_not_ready (r : Renderer) (caller : Namespace) (sound : t.Sound)
    (linked : t.lookUp false link = .ok (loc, .link target))
    (through : t.lookUp true link = .ok (S, .directory))
    (prepared : (prepare (Path.join dest "")).runOn t = (.ok (), u)) (other : u ≠ t)
    (notReady : ¬ Ready t dest S) : (r.outcome caller link dest t).2 = t := by
  have missing : ¬ t.isDirectory (Path.join dest "") = true := by
    intro stands
    rw [runOn_prepare_of_isDirectory stands] at prepared
    exact other (congrArg Prod.snd prepared).symm
  have nonempty : Path.join dest "" ≠ "" := by
    intro empty
    rw [empty] at prepared
    exact other (congrArg Prod.snd prepared).symm
  have checked : checkPath (Path.join dest "") = .ok () := by
    rw [prepare, runOn_adapt_eq_ok_iff] at prepared
    exact (isDirectory_iff.mp (isDirectory_of_runOn_makeDirectories nonempty prepared)).1
  obtain ⟨depth, long⟩ : ∃ depth, maxPath = depth + 1 := ⟨4094, rfl⟩
  rw [outcome_of_link r caller linked through, long]
  rcases all_links_or_first (t.children S) with
    areLinks | ⟨links, ⟨name, e⟩, others, cut, areLinks, notLink⟩
  · rw [← List.append_nil (t.children S), runOn_locate_links areLinks]
    rfl
  · have isName : Path.IsName name ∧ IsEntryName name := by
      have mem : (name, e) ∈ t.children S := by simp [cut]
      exact sound.wellFormed.isName (mem_children_iff.mp mem) name (by simp)
    have refused : e = .directory → checkPath (Path.join dest name) ≠ .ok () := by
      rintro rfl checkedName
      exact notReady (.inr ⟨u, links, name, others, prepared, cut, areLinks, checkedName⟩)
    obtain ⟨relative, failed⟩ :=
      exists_runOn_locateEntry_eq_error isName checked missing notLink refused depth
    rw [cut, runOn_locate_first areLinks, runOn_bind_of_error failed]

/-- When the destination cannot be made, rendering the directory fails on the directory itself, and
rendering through the link does not. -/
lemma outcome_link_ne (r : Renderer) (caller : Namespace) {problem : Failure} (sound : t.Sound)
    (found : t.lookUp false source = .ok (S, .directory))
    (linked : t.lookUp false link = .ok (loc, .link target))
    (through : t.lookUp true link = .ok (S, .directory))
    (prepared : (prepare (Path.join dest "")).runOn t = (.error problem, u)) :
    r.outcome caller link dest t ≠ r.outcome caller source dest t := by
  rw [outcome_of_directory r caller dest found, outcome_of_link r caller linked through, prepared]
  have named : ∀ c ∈ t.children S, c.1 ≠ "" := fun c mem =>
    (sound.wellFormed.isName (mem_children_iff.mp mem) c.1 (by simp)).1.ne_empty
  exact runOn_locate_ne maxPath link "" _ (.inr ⟨by decide, named⟩) t u

/-- When the destination was made, the visit through the link comes to what rendering the directory
comes to. -/
lemma runOn_locate_prepared (r : Renderer) (caller : Namespace) (sound : t.Sound)
    (found : t.lookUp false source = .ok (S, .directory))
    (prepared : (prepare (Path.join dest "")).runOn t = (.ok (), u))
    (hs : Anchored t (r.outcome caller source dest t).2 source S)
    (hl : Anchored t (r.outcome caller source dest t).2 link S) :
    runOn ((locate (r.names caller) dest maxPath link "" (t.children S)).adapt Stop.relative) u =
      r.outcome caller source dest t := by
  have whole := outcome_of_directory r caller dest found
  rw [prepared] at whole
  dsimp only at whole
  have made := retains_of_prepare prepared
  have standing : Standing t S [] (t.children S) := by
    have children : Standing t S [] (t.children (S ++ [])) :=
      standing_children sound (by simp [AreNames])
    rwa [List.append_nil] at children
  rw [whole] at hs hl ⊢
  exact sameVisit hs hl maxPath [] _ u ((preserves_sound_prepare _).of_runOn sound prepared) made
    (standing.retains made) (.refl _)

/-- A visit through the link comes to the same when the destination was made before, if the first
entry is a directory. -/
lemma runOn_locate_of_ready (hl : Anchored t w link S) (sound : t.Sound) (onward : Retains u w)
    (prepared : (prepare (Path.join dest "")).runOn t = (.ok (), u))
    (cut : t.children S = links ++ (name, Entry.directory) :: others)
    (areLinks : ∀ c ∈ links, c.2.kind = .link) (checked : checkPath (Path.join dest name) = .ok ())
    (apart : u.children (S ++ [name]) = t.children (S ++ [name])) :
    runOn ((locate names dest maxPath link "" (t.children S)).adapt Stop.relative) t =
      runOn ((locate names dest maxPath link "" (t.children S)).adapt Stop.relative) u := by
  have entry : t.get? (S ++ [name]) = some .directory := mem_children_iff.mp (by simp [cut])
  have areNames : AreNames [name] := by
    intro n mem
    rw [List.mem_singleton.mp mem]
    exact sound.wellFormed.isName entry name (by simp)
  have isName := areNames name (by simp)
  have made := retains_of_prepare prepared
  have sound' := (preserves_sound_prepare _).of_runOn sound prepared
  have before : Leads t maxLinks (startOf workingDirectory link) (Path.names link ++ [name])
      (S ++ [name]) :=
    hl.leads_below sound (.refl t) (made.trans onward) (.inr (mem_under_iff.mpr ⟨by simp, entry⟩))
  have after : Leads u maxLinks (startOf workingDirectory link) (Path.names link ++ [name])
      (S ++ [name]) :=
    hl.leads_below sound' made onward
      (.inr (mem_under_iff.mpr ⟨by simp, made.directory entry⟩))
  have listed : t.list (Path.join link name) = u.list (Path.join link name) := by
    have joined : Path.join link name = Path.below link [name] := by simp [Path.below]
    rw [joined, list_below areNames before, list_below areNames after, apart]
  obtain ⟨depth, long⟩ : ∃ depth, maxPath = depth + 1 := ⟨4094, rfl⟩
  rw [cut, long]
  exact runOn_locate_of_first areLinks depth (runOn_prepare_name isName checked prepared) listed

/-- Rendering a directory through a link to it comes to what rendering it by a path of its own comes
to, the same paths written or a failure on the same entry and the same tree, exactly when the
destination need not be made first.  This supposes that both paths lead to a directory in the tree
that is left, too, that no path below them is too long, and that making the destination adds nothing
to the directories that the visit starts with. -/
theorem outcome_link_eq_iff (r : Renderer) (caller : Namespace) (dest : String) (sound : t.Sound)
    (found : t.lookUp false source = .ok (S, .directory))
    (linked : t.lookUp false link = .ok (loc, .link target))
    (through : t.lookUp true link = .ok (S, .directory))
    (leaves : w = ((r.renderDirectory caller source dest).runOn t).2)
    (stays : w.isDirectory source = true ∧ w.isDirectory link = true)
    (short : ∀ rel e, w.get? (S ++ rel) = some e →
      (Path.below source rel).utf8ByteSize ≤ maxPath ∧ (Path.below link rel).utf8ByteSize ≤ maxPath)
    (apart : ∀ name, (name, Entry.directory) ∈ t.children S →
      FileTree.children ((prepare (Path.join dest "")).runOn t).2 (S ++ [name]) =
        t.children (S ++ [name])) :
    (∀ path, (r.locateDirectory caller path dest).adapt Stop.reason =
      r.renderDirectory caller path dest) ∧
    (r.outcome caller link dest t = r.outcome caller source dest t ↔ Ready t dest S) := by
  refine ⟨fun path => adapt_reason_locateDirectory r caller path dest, ?_⟩
  rw [← outcome_snd] at leaves
  subst leaves
  rcases prepared : (prepare (Path.join dest "")).runOn t with ⟨problem | _, u⟩
  · -- Nothing but the visited directory itself fails when the destination cannot be made.
    refine iff_of_false (outcome_link_ne r caller sound found linked through prepared) ?_
    rintro (ready | ⟨u', links, name, others, ready, -⟩)
    · rw [prepared] at ready
      cases ready
    · rw [prepared] at ready
      cases ready
  · rw [prepared] at apart
    dsimp only at apart
    have onward : Retains u (r.outcome caller source dest t).2 := by
      rw [outcome_of_directory r caller dest found, prepared]
      exact preserves_retains_locate u _ _ _ _ u (.refl u)
    have hs := anchored_of_isDirectory (lookUp_true_of_directory found) stays.1
      fun rel e entry => (short rel e entry).1
    have hl := anchored_of_isDirectory through stays.2 fun rel e entry => (short rel e entry).2
    have agree := runOn_locate_prepared r caller sound found prepared hs hl
    have viaLink : r.outcome caller link dest t = _ := outcome_of_link r caller linked through
    by_cases same : u = t
    · subst same
      rw [viaLink]
      exact iff_of_true agree (.inl prepared)
    constructor
    · intro equal
      by_contra notReady
      refine ne_of_retains (addsDirectories_of_prepare prepared) same onward ?_
      rw [← equal]
      exact outcome_link_of_not_ready r caller sound linked through prepared same notReady
    · rintro (ready | ⟨u', links, name, others, ready, cut, areLinks, checked⟩)
      · rw [prepared] at ready
        exact absurd (congrArg Prod.snd ready) same
      · have children := apart name (by simp [cut])
        rw [viaLink, ← agree]
        exact runOn_locate_of_ready hl sound onward prepared cut areLinks checked children

/-- A directory `s` with a directory and a template in it, and a link `l` to it. -/
def nestedWithLink : FileTree :=
  Table.insert nested ["home", "templates", "l"] (.link "s")

/-- The first entry of `s` is a directory, so `out` is made through the link, too. -/
theorem outcome_link_eq_nested :
    nestedWithLink.Sound ∧
    nestedWithLink.lookUp false "s" = .ok (["home", "templates", "s"], .directory) ∧
    nestedWithLink.lookUp false "l" = .ok (["home", "templates", "l"], .link "s") ∧
    nestedWithLink.lookUp true "l" = .ok (["home", "templates", "s"], .directory) ∧
    nestedWithLink.get? ["home", "templates", "out"] = none ∧
    outcome ⟨.empty, ""⟩ .empty "l" "out" nestedWithLink =
      outcome ⟨.empty, ""⟩ .empty "s" "out" nestedWithLink := by
  have sound : nestedWithLink.Sound := ⟨by decide +kernel, by decide +kernel⟩
  have found : nestedWithLink.lookUp false "s" = .ok (["home", "templates", "s"], .directory) := by
    decide +kernel
  have linked : nestedWithLink.lookUp false "l" = .ok (["home", "templates", "l"], .link "s") := by
    decide +kernel
  have through : nestedWithLink.lookUp true "l" = .ok (["home", "templates", "s"], .directory) := by
    decide +kernel
  have held : nestedWithLink.children ["home", "templates", "s"] =
      [("a", .directory), ("b", .file (.text "x") (.ofNat 0o644))] := by decide +kernel
  have sizes : ∀ p ∈
      ((renderDirectory ⟨.empty, ""⟩ .empty "s" "out").runOn nestedWithLink).2.entries,
      (Path.below "s" (p.1.drop 3)).utf8ByteSize ≤ maxPath ∧
        (Path.below "l" (p.1.drop 3)).utf8ByteSize ≤ maxPath := by decide +kernel
  have apart : FileTree.children ((prepare (Path.join "out" "")).runOn nestedWithLink).2
      ["home", "templates", "s", "a"] =
        nestedWithLink.children ["home", "templates", "s", "a"] := by decide +kernel
  obtain ⟨-, agree⟩ := outcome_link_eq_iff ⟨.empty, ""⟩ .empty "out" sound found linked through
    rfl ⟨by decide +kernel, by decide +kernel⟩
    (fun rel e entry => sizes _ (Table.mem_entries_iff.mpr entry)) (fun name mem => by
      rw [held] at mem
      simp only [List.mem_cons, Prod.mk.injEq, and_true, reduceCtorEq, and_false, List.not_mem_nil,
        or_false] at mem
      rw [mem]
      exact apart)
  refine ⟨sound, found, linked, through, by decide +kernel, agree.mpr (.inr ?_)⟩
  exact ⟨_, [], "a", _, rfl, held, by simp, by decide +kernel⟩

/-- A directory `s` with a template in it, and a link `l` to it. -/
def linkedTemplate : FileTree :=
  .ofList [(["home"], .directory), (["home", "templates"], .directory),
    (["home", "templates", "l"], .link "s"), (["home", "templates", "s"], .directory),
    (["home", "templates", "s", "b"], .file (.text "x") (.ofNat 0o644))]

/-- The first entry of `s` is a file, so `out` is lacking when it is rendered through the link: the
call fails and changes nothing, where the call by the path of `s` succeeds. -/
theorem renderDirectory_link_fails :
    linkedTemplate.Sound ∧
    linkedTemplate.lookUp false "s" = .ok (["home", "templates", "s"], .directory) ∧
    linkedTemplate.lookUp false "l" = .ok (["home", "templates", "l"], .link "s") ∧
    linkedTemplate.lookUp true "l" = .ok (["home", "templates", "s"], .directory) ∧
    (renderDirectory ⟨.empty, ""⟩ .empty "l" "out").runOn linkedTemplate =
      (.error (.file .notFound), linkedTemplate) ∧
    ((renderDirectory ⟨.empty, ""⟩ .empty "s" "out").runOn linkedTemplate).1 = .ok ["out/b"] := by
  refine ⟨⟨by decide +kernel, by decide +kernel⟩, by decide +kernel, by decide +kernel,
    by decide +kernel, ?_, by decide +kernel⟩
  have failed : ((renderDirectory ⟨.empty, ""⟩ .empty "l" "out").runOn linkedTemplate).1 =
      .error (.file .notFound) := by decide +kernel
  have unchanged : ((renderDirectory ⟨.empty, ""⟩ .empty "l" "out").runOn linkedTemplate).2 =
      linkedTemplate := by decide +kernel
  exact Prod.ext failed unchanged

end Stencil.Renderer
