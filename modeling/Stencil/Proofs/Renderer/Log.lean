import Stencil.Proofs.Files.Retain
import Stencil.Proofs.Renderer.Directory
import Stencil.Proofs.Renderer.Sound

/-!
# The log of a visit

A visit that succeeds comes to finitely many entries one after another.  Its log lists them with the
trees before and after each of them was dealt with (`Visits`, `Walks`); nothing in it bounds how
deep directories nest.  Rendering a directory succeeds exactly when there is a log, and then it
gives the paths of the files in the log (`runOn_renderDirectory_eq_ok_iff`).
-/

namespace Stencil

namespace FileTree

variable {t : FileTree} {p : String} {dir : Location} {held : List (String × Entry)}

/-- What is listed is what the directory holds that the path leads to. -/
lemma list_eq_ok_iff :
    t.list p = .ok held ↔
      ∃ dir, t.lookUp true p = .ok (dir, .directory) ∧ held = t.children dir := by
  unfold list
  rw [bind_eq_ok_iff]
  constructor
  · rintro ⟨⟨dir, e⟩, found, h⟩
    cases e with
    | directory => exact ⟨dir, found, (Except.ok.inj h).symm⟩
    | file content mode => cases h
    | link target => cases h
  · rintro ⟨dir, found, rfl⟩
    exact ⟨(dir, .directory), found, rfl⟩

/-- A path that is not refused is not too long. -/
lemma utf8ByteSize_le_of_checkPath (h : checkPath p = .ok ()) : p.utf8ByteSize ≤ maxPath := by
  unfold checkPath at h
  split at h
  · cases h
  · split at h
    · cases h
    · split at h
      · cases h
      · next short => exact Nat.not_lt.mp short

end FileTree

namespace Renderer

open FileTree

/-- An entry that a visit came to, by the names that lead there from the visited directory, with the
trees before and after the visit dealt with it.  What a directory holds is dealt with later. -/
structure Visited where
  rel : Location
  entry : Entry
  before : FileTree
  after : FileTree

/-- The entry with the names that lead there. -/
def Visited.named (v : Visited) : Location × Entry := (v.rel, v.entry)

/-- A visit of entries of the directory `rel` below the visited one has this log. -/
inductive Visits (names : Namespace) (source dest : String) :
    FileTree → Location → List (String × Entry) → List Visited → FileTree → Prop
  | nil {t rel} : Visits names source dest t rel [] [] t
  | link {t rel name target cs log left} :
      Visits names source dest t rel cs log left →
      Visits names source dest t rel ((name, .link target) :: cs)
        (⟨rel ++ [name], .link target, t, t⟩ :: log) left
  | file {t u rel name content mode cs log left} :
      (copyFilled names (Path.below source (rel ++ [name]))
        (Path.below dest (rel ++ [name]))).runOn t = (.ok (), u) →
      Visits names source dest u rel cs log left →
      Visits names source dest t rel ((name, .file content mode) :: cs)
        (⟨rel ++ [name], .file content mode, t, u⟩ :: log) left
  | directory {t u w rel name held cs inner log left} :
      t.list (Path.below source (rel ++ [name])) = .ok held →
      (prepare (Path.below dest (rel ++ [name]))).runOn t = (.ok (), u) →
      Visits names source dest u (rel ++ [name]) held inner w →
      Visits names source dest w rel cs log left →
      Visits names source dest t rel ((name, .directory) :: cs)
        (⟨rel ++ [name], .directory, t, u⟩ :: (inner ++ log)) left

/-- Rendering a directory has this log.  The first list holds the visited directory itself, unless
the path to it is that of a link; a link to anything but a directory is not visited. -/
inductive Walks (names : Namespace) (source dest : String) (t : FileTree) :
    List Visited → List Visited → FileTree → Prop
  | directory {S u log left} : t.lookUp false source = .ok (S, .directory) →
      (prepare (Path.join dest "")).runOn t = (.ok (), u) →
      Visits names source dest u [] (t.children S) log left →
      Walks names source dest t [⟨[], .directory, t, u⟩] log left
  | link {loc target S log left} : t.lookUp false source = .ok (loc, .link target) →
      t.lookUp true source = .ok (S, .directory) →
      Visits names source dest t [] (t.children S) log left →
      Walks names source dest t [] log left
  | other {loc target found e} : t.lookUp false source = .ok (loc, .link target) →
      t.lookUp true source = .ok (found, e) → e ≠ .directory →
      Walks names source dest t [] [] t

variable {names : Namespace} {source dest : String} {t u w left : FileTree} {S : Location}
  {rel : Location} {cs : List (String × Entry)} {log root : List Visited} {ws : List String}

/-! ### A part of a visit -/

lemma preserves_sound_prepare (p : String) : Files.Preserves Sound (prepare p) :=
  (Files.preserves_sound_makeDirectories p).adapt

/-- The entries of a directory in a well-formed tree have names. -/
lemma areNames_of_mem_children (wf : t.WellFormed) (h : AreNames rel) {dir : Location}
    {c : String × Entry} (mem : c ∈ t.children dir) : AreNames (rel ++ [c.1]) := by
  intro name inside
  rcases List.mem_append.mp inside with above | last
  · exact h name above
  · rw [List.mem_singleton.mp last]
    exact wf.isName (mem_children_iff.mp mem) c.1 (by simp)

/-- A visit goes through the entries one after another. -/
lemma visit_cons (names : Namespace) (dest : String) (depth : Nat) (path within : String)
    (c : String × Entry) (cs : List (String × Entry)) :
    visit names dest (depth + 1) path within (c :: cs) = do
      let here ← visitEntry names dest depth path within c
      let others ← visit names dest (depth + 1) path within cs
      return here ++ others := by
  simp [visit_succ, List.mapM_cons]

/-- A directory is entered when it can be listed and its counterpart can be made. -/
lemma runOn_entering_eq_ok_iff {α : Type} {path : String} {prepare : Files Failure Unit}
    {next : List (String × Entry) → Files Failure α} {a : α} :
    (entering path prepare next).runOn t = (.ok a, left) ↔
      ∃ held u, t.list path = .ok held ∧ prepare.runOn t = (.ok (), u) ∧
        (next held).runOn u = (.ok a, left) := by
  rw [runOn_entering]
  rcases prepare.runOn t with ⟨_ | _, u⟩
  · simp
  · cases t.list path with
    | error e => simp
    | ok held => simp

/-- The path of a directory that can be listed is longer than that of the directory that holds it,
but not too long. -/
lemma utf8ByteSize_of_list {name : String} {held : List (String × Entry)}
    (areNames : AreNames (rel ++ [name]))
    (listed : t.list (Path.below source (rel ++ [name])) = .ok held) :
    (Path.below source rel).utf8ByteSize < (Path.below source (rel ++ [name])).utf8ByteSize ∧
      (Path.below source (rel ++ [name])).utf8ByteSize ≤ maxPath := by
  obtain ⟨dir, found, -⟩ := list_eq_ok_iff.mp listed
  have checked := (resolve_eq_ok_iff.mp (lookUp_eq_ok_iff.mp found)).1
  refine ⟨Path.utf8ByteSize_below_lt source (fun n hn => ?_) (areNames name (by simp)).1,
    utf8ByteSize_le_of_checkPath checked⟩
  exact (areNames n (List.mem_append_left _ hn)).1

/-- How deep directories may nest does not matter to a visit if it is more than the paths of
directories can grow: it gives the same, also when it fails. -/
theorem runOn_visit_congr {depth depth' : Nat} (sound : t.Sound)
    (areNames : ∀ c ∈ cs, AreNames (rel ++ [c.1]))
    (short : (Path.below source rel).utf8ByteSize ≤ maxPath)
    (long : maxPath < depth + (Path.below source rel).utf8ByteSize)
    (long' : maxPath < depth' + (Path.below source rel).utf8ByteSize) :
    (visit names dest depth (Path.below source rel) ("/".intercalate rel) cs).runOn t =
      (visit names dest depth' (Path.below source rel) ("/".intercalate rel) cs).runOn t := by
  induction depth generalizing depth' rel cs t with
  | zero => omega
  | succ depth inner =>
    obtain ⟨depth', rfl⟩ : ∃ d, depth' = d + 1 := ⟨depth' - 1, by omega⟩
    induction cs generalizing t with
    | nil => rfl
    | cons c cs ih =>
      obtain ⟨name, e⟩ := c
      have here : AreNames (rel ++ [name]) := areNames (name, e) List.mem_cons_self
      have first : (visitEntry names dest depth (Path.below source rel) ("/".intercalate rel)
          (name, e)).runOn t = (visitEntry names dest depth' (Path.below source rel)
            ("/".intercalate rel) (name, e)).runOn t := by
        rw [visitEntry_below here, visitEntry_below here]
        cases e with
        | link target => rfl
        | file content mode => rfl
        | directory =>
          dsimp only
          rw [runOn_entering, runOn_entering]
          cases prepared : (prepare (Path.below dest (rel ++ [name]))).runOn t with
          | mk outcome u =>
            cases outcome with
            | error _ => rfl
            | ok _ =>
              cases listed : t.list (Path.below source (rel ++ [name])) with
              | error _ => rfl
              | ok held =>
                obtain ⟨longer, short'⟩ := utf8ByteSize_of_list here listed
                obtain ⟨dir, -, rfl⟩ := list_eq_ok_iff.mp listed
                exact inner ((preserves_sound_prepare _).of_runOn sound prepared)
                  (fun c mem => areNames_of_mem_children sound.wellFormed here mem) short'
                  (by omega) (by omega)
      rw [visit_cons, visit_cons, Files.runOn_bind, Files.runOn_bind, ← first]
      cases ran : (visitEntry names dest depth (Path.below source rel) ("/".intercalate rel)
          (name, e)).runOn t with
      | mk outcome u =>
        cases outcome with
        | error _ => rfl
        | ok here =>
          have others := ih ((preserves_visitEntry preserves_sound_prepare
            (preserves_sound_copyFilled names) (preserves_visit dest preserves_sound_prepare
              (preserves_sound_copyFilled names) depth) _ _ _).of_runOn sound ran)
            fun c mem => areNames c (List.mem_cons_of_mem _ mem)
          dsimp only
          rw [Files.runOn_bind, Files.runOn_bind, others]

/-- A part of a visit that succeeds has a log, and gives the paths of the files in it. -/
lemma exists_visits {depth : Nat} (sound : t.Sound) (areNames : ∀ c ∈ cs, AreNames (rel ++ [c.1]))
    (ran : (visit names dest depth (Path.below source rel) ("/".intercalate rel) cs).runOn t =
      (.ok ws, left)) :
    ∃ log, Visits names source dest t rel cs log left ∧
      ws = written dest (log.map Visited.named) := by
  induction depth generalizing rel cs t ws left with
  | zero => cases ran
  | succ depth inner =>
    induction cs generalizing t ws with
    | nil =>
      cases ran
      exact ⟨[], .nil, rfl⟩
    | cons c cs ih =>
      obtain ⟨name, e⟩ := c
      have here := areNames (name, e) List.mem_cons_self
      have later : ∀ c ∈ cs, AreNames (rel ++ [c.1]) :=
        fun c mem => areNames c (List.mem_cons_of_mem _ mem)
      rw [visit_cons, Files.runOn_bind_eq_ok_iff] at ran
      obtain ⟨first, u, entered, ran⟩ := ran
      rw [Files.runOn_bind_eq_ok_iff] at ran
      obtain ⟨others, w, visited, ran⟩ := ran
      cases ran
      rw [visitEntry_below here] at entered
      cases e with
      | link target =>
        cases entered
        obtain ⟨log, visits, rfl⟩ := ih sound later visited
        exact ⟨_, .link visits, rfl⟩
      | file content mode =>
        dsimp only at entered
        rw [Files.runOn_bind_eq_ok_iff] at entered
        obtain ⟨_, mid, copied, entered⟩ := entered
        cases entered
        obtain ⟨log, visits, rfl⟩ :=
          ih ((preserves_sound_copyFilled names _ _).of_runOn sound copied) later visited
        exact ⟨_, .file copied visits, rfl⟩
      | directory =>
        dsimp only at entered
        rw [runOn_entering_eq_ok_iff] at entered
        obtain ⟨held, mid, listed, prepared, entered⟩ := entered
        obtain ⟨dir, -, rfl⟩ := list_eq_ok_iff.mp listed
        have sound' := (preserves_sound_prepare _).of_runOn sound prepared
        obtain ⟨log, visits, rfl⟩ := inner sound'
          (fun c mem => areNames_of_mem_children sound.wellFormed here mem) entered
        obtain ⟨log', visits', rfl⟩ := ih
          ((preserves_visit dest preserves_sound_prepare
            (preserves_sound_copyFilled names) depth _ _ _).of_runOn sound' entered) later visited
        refine ⟨_, .directory listed prepared visits visits', ?_⟩
        rw [List.map_cons, List.map_append]
        exact (written_append dest _ _).symm

/-- A part of a visit that has a log succeeds, since the paths of directories that can be listed get
longer and longer but not too long. -/
lemma runOn_visit_of_visits (visits : Visits names source dest t rel cs log left) (sound : t.Sound)
    (areNames : ∀ c ∈ cs, AreNames (rel ++ [c.1])) (depth : Nat)
    (short : (Path.below source rel).utf8ByteSize ≤ maxPath)
    (long : maxPath < depth + (Path.below source rel).utf8ByteSize) :
    (visit names dest depth (Path.below source rel) ("/".intercalate rel) cs).runOn t =
      (.ok (written dest (log.map Visited.named)), left) := by
  induction visits generalizing depth with
  | nil =>
    obtain ⟨depth, rfl⟩ : ∃ d, depth = d + 1 := ⟨depth - 1, by omega⟩
    rfl
  | @link t rel name target cs log left _ ih =>
    obtain ⟨depth, rfl⟩ : ∃ d, depth = d + 1 := ⟨depth - 1, by omega⟩
    have later := ih sound (fun c mem => areNames c (List.mem_cons_of_mem _ mem)) _ short long
    rw [visit_cons, visitEntry_below (areNames _ List.mem_cons_self)]
    exact Files.runOn_bind_eq_ok_iff.mpr
      ⟨[], t, rfl, Files.runOn_bind_eq_ok_iff.mpr ⟨_, left, later, rfl⟩⟩
  | @file t u rel name content mode cs log left copied _ ih =>
    obtain ⟨depth, rfl⟩ : ∃ d, depth = d + 1 := ⟨depth - 1, by omega⟩
    have later := ih ((preserves_sound_copyFilled names _ _).of_runOn sound copied)
      (fun c mem => areNames c (List.mem_cons_of_mem _ mem)) _ short long
    rw [visit_cons, visitEntry_below (areNames _ List.mem_cons_self)]
    dsimp only
    refine Files.runOn_bind_eq_ok_iff.mpr ⟨[Path.below dest (rel ++ [name])], u, ?_, ?_⟩
    · exact Files.runOn_bind_eq_ok_iff.mpr ⟨(), u, copied, rfl⟩
    · exact Files.runOn_bind_eq_ok_iff.mpr ⟨_, left, later, rfl⟩
  | @directory t u w rel name held cs inner log left listed prepared _ _ ihInner ih =>
    obtain ⟨depth, rfl⟩ : ∃ d, depth = d + 1 := ⟨depth - 1, by omega⟩
    have here : AreNames (rel ++ [name]) := areNames _ List.mem_cons_self
    obtain ⟨longer, short'⟩ := utf8ByteSize_of_list here listed
    obtain ⟨dir, -, rfl⟩ := list_eq_ok_iff.mp listed
    have sound' := (preserves_sound_prepare _).of_runOn sound prepared
    have first := ihInner sound'
      (fun c mem => areNames_of_mem_children sound.wellFormed here mem) depth
      short' (by omega)
    have later := ih
      ((preserves_visit dest preserves_sound_prepare
        (preserves_sound_copyFilled names) _ _ _ _).of_runOn sound' first)
      (fun c mem => areNames c (List.mem_cons_of_mem _ mem)) _ short long
    rw [visit_cons, visitEntry_below here]
    refine Files.runOn_bind_eq_ok_iff.mpr ⟨_, w, runOn_entering_eq_ok_iff.mpr
      ⟨_, u, listed, prepared, first⟩, Files.runOn_bind_eq_ok_iff.mpr ⟨_, left, later, ?_⟩⟩
    rw [List.map_cons, List.map_append, Files.runOn_pure]
    congr 2
    exact (written_append dest _ _).symm

/-- A part of a visit succeeds exactly when it has a log, and then it gives the paths of the files
in it. -/
theorem runOn_visit_eq_ok_iff {depth : Nat} (sound : t.Sound)
    (areNames : ∀ c ∈ cs, AreNames (rel ++ [c.1]))
    (short : (Path.below source rel).utf8ByteSize ≤ maxPath)
    (long : maxPath < depth + (Path.below source rel).utf8ByteSize) :
    (visit names dest depth (Path.below source rel) ("/".intercalate rel) cs).runOn t =
        (.ok ws, left) ↔
      ∃ log, Visits names source dest t rel cs log left ∧
        ws = written dest (log.map Visited.named) := by
  constructor
  · exact exists_visits sound areNames
  · rintro ⟨log, visits, rfl⟩
    exact runOn_visit_of_visits visits sound areNames depth short long

/-! ### The whole visit -/

/-- Nothing is ever rendered into a path that ends as that of a directory does. -/
lemma runOn_copyFilled_join_empty_ne_ok :
    (copyFilled names source (Path.join dest "")).runOn t ≠ (.ok (), left) := by
  intro copied
  obtain ⟨loc, out, mode, dir, -, -, replaceable, -⟩ := runOn_copyFilled_eq_ok_iff.mp copied
  obtain ⟨named, noSlash, -⟩ := replaceable_iff.mp replaceable
  obtain ⟨-, above, name, dir', cut, -⟩ := named
  rw [Path.names_join rfl, Path.names_empty, List.append_nil] at cut
  rw [Path.join_of_relative rfl, String.append_empty] at noSlash
  split at noSlash
  · next ends =>
    rcases Bool.or_eq_true_iff.mp ends with empty | slash
    · rw [String.isEmpty_iff.mp empty, Path.names_empty] at cut
      simp at cut
    · rw [slash] at noSlash
      cases noSlash
  · rw [String.append_empty, Path.endsInSlash_append (by decide)] at noSlash
    cases noSlash

/-- What the path of a visited directory leads to. -/
lemma runOn_rootEntry_eq_ok_iff {follow : Bool} {e : Entry} :
    (rootEntry follow source).runOn t = (.ok e, u) ↔
      u = t ∧ ∃ loc, t.lookUp follow source = .ok (loc, e) := by
  unfold rootEntry
  rw [Files.runOn_bind, Files.runOn_adapt, Files.runOn_read]
  rcases t.lookUp follow source with problem | ⟨loc, found⟩
  · simp [Except.mapError]
  · simp [Except.mapError, and_comm, eq_comm]

/-- A path that leads anywhere is not empty and not too long. -/
lemma utf8ByteSize_of_lookUp {follow : Bool} {e : Entry}
    (found : t.lookUp follow source = .ok (S, e)) :
    0 < source.utf8ByteSize ∧ source.utf8ByteSize ≤ maxPath := by
  have checked := (resolve_eq_ok_iff.mp (lookUp_eq_ok_iff.mp found)).1
  refine ⟨Nat.pos_of_ne_zero fun none => ?_, utf8ByteSize_le_of_checkPath checked⟩
  rw [String.utf8ByteSize_eq_zero_iff] at none
  subst none
  cases checked

/-- The bound on how deep directories nest is no bound of the visit of what a directory holds. -/
lemma runOn_visit_maxPath (sound : t.Sound) (sound' : u.Sound)
    (found : t.lookUp true source = .ok (S, .directory)) (more : Nat) :
    (visit names dest (maxPath + more) source "" (t.children S)).runOn u =
      (visit names dest maxPath source "" (t.children S)).runOn u := by
  obtain ⟨nonempty, short⟩ := utf8ByteSize_of_lookUp found
  have noNames : AreNames [] := by simp [AreNames]
  have long : ∀ more, maxPath < maxPath + more + (Path.below source []).utf8ByteSize := fun more =>
    Nat.lt_of_le_of_lt (Nat.le_add_right _ more) (Nat.lt_add_of_pos_right nonempty)
  exact runOn_visit_congr sound'
    (fun c mem => areNames_of_mem_children sound.wellFormed noNames mem) short (long more) (long 0)

/-- What the visited directory holds is visited exactly when there is a log. -/
lemma runOn_visit_maxPath_eq_ok_iff (sound : t.Sound) (sound' : u.Sound)
    (found : t.lookUp true source = .ok (S, .directory)) :
    (visit names dest maxPath source "" (t.children S)).runOn u = (.ok ws, left) ↔
      ∃ log, Visits names source dest u [] (t.children S) log left ∧
        ws = written dest (log.map Visited.named) := by
  obtain ⟨nonempty, short⟩ := utf8ByteSize_of_lookUp found
  have noNames : AreNames [] := by simp [AreNames]
  have long : maxPath < maxPath + (Path.below source []).utf8ByteSize :=
    Nat.lt_add_of_pos_right nonempty
  exact runOn_visit_eq_ok_iff sound'
    (fun c mem => areNames_of_mem_children sound.wellFormed noNames mem) short long

/-- A path to a directory that is not that of a link leads there in any case. -/
lemma lookUp_true_of_directory (h : t.lookUp false source = .ok (S, .directory)) :
    t.lookUp true source = .ok (S, .directory) := by
  obtain ⟨checked, leads⟩ := leads_of_resolve (lookUp_eq_ok_iff.mp h)
  exact lookUp_eq_ok_iff.mpr (resolve_of_leads checked leads)

/-- Rendering a directory succeeds exactly when it has a log, and then it gives the paths of the
files in it. -/
theorem runOn_renderDirectory_eq_ok_iff (r : Renderer) (caller : Namespace) (sound : t.Sound) :
    (r.renderDirectory caller source dest).runOn t = (.ok ws, left) ↔
      ∃ root log, Walks (r.names caller) source dest t root log left ∧
        ws = written dest (log.map Visited.named) := by
  unfold renderDirectory
  constructor
  · intro ran
    obtain ⟨e, _, first, ran⟩ := Files.runOn_bind_eq_ok_iff.mp ran
    obtain ⟨rfl, loc, found⟩ := runOn_rootEntry_eq_ok_iff.mp first
    cases e with
    | directory =>
      obtain ⟨held, u, listed, prepared, ran⟩ := runOn_entering_eq_ok_iff.mp ran
      obtain ⟨S, found', rfl⟩ := list_eq_ok_iff.mp listed
      rw [lookUp_true_of_directory found] at found'
      cases found'
      obtain ⟨log, visits, rfl⟩ := (runOn_visit_maxPath_eq_ok_iff sound
        ((preserves_sound_prepare _).of_runOn sound prepared)
        (lookUp_true_of_directory found)).mp ran
      exact ⟨_, log, .directory found prepared visits, rfl⟩
    | file content mode =>
      obtain ⟨_, u, copied, -⟩ := Files.runOn_bind_eq_ok_iff.mp ran
      exact absurd copied runOn_copyFilled_join_empty_ne_ok
    | link target =>
      obtain ⟨e', _, second, ran⟩ := Files.runOn_bind_eq_ok_iff.mp ran
      obtain ⟨rfl, S, found'⟩ := runOn_rootEntry_eq_ok_iff.mp second
      cases e' with
      | directory =>
        obtain ⟨held, u, listed, prepared, ran⟩ := runOn_entering_eq_ok_iff.mp ran
        cases prepared
        obtain ⟨S', found'', rfl⟩ := list_eq_ok_iff.mp listed
        rw [found'] at found''
        cases found''
        obtain ⟨log, visits, rfl⟩ := (runOn_visit_maxPath_eq_ok_iff sound sound found').mp ran
        exact ⟨[], log, .link found found' visits, rfl⟩
      | file content mode =>
        cases ran
        exact ⟨[], [], .other found found' (by simp), rfl⟩
      | link target' =>
        cases ran
        exact ⟨[], [], .other found found' (by simp), rfl⟩
  · rintro ⟨root, log, walks, rfl⟩
    cases walks with
    | directory found prepared visits =>
      have listed := list_eq_ok_iff.mpr ⟨_, lookUp_true_of_directory found, rfl⟩
      have visited := (runOn_visit_maxPath_eq_ok_iff sound
        ((preserves_sound_prepare _).of_runOn sound prepared)
        (lookUp_true_of_directory found)).mpr ⟨log, visits, rfl⟩
      exact Files.runOn_bind_eq_ok_iff.mpr ⟨_, t, runOn_rootEntry_eq_ok_iff.mpr ⟨rfl, _, found⟩,
        runOn_entering_eq_ok_iff.mpr ⟨_, _, listed, prepared, visited⟩⟩
    | link found found' visits =>
      have listed := list_eq_ok_iff.mpr ⟨_, found', rfl⟩
      have visited := (runOn_visit_maxPath_eq_ok_iff sound sound found').mpr ⟨log, visits, rfl⟩
      exact Files.runOn_bind_eq_ok_iff.mpr ⟨_, t, runOn_rootEntry_eq_ok_iff.mpr ⟨rfl, _, found⟩,
        Files.runOn_bind_eq_ok_iff.mpr ⟨_, t, runOn_rootEntry_eq_ok_iff.mpr ⟨rfl, _, found'⟩,
          runOn_entering_eq_ok_iff.mpr ⟨_, t, listed, rfl, visited⟩⟩⟩
    | @other _ _ _ e found found' notDirectory =>
      refine Files.runOn_bind_eq_ok_iff.mpr ⟨_, t, runOn_rootEntry_eq_ok_iff.mpr ⟨rfl, _, found⟩,
        Files.runOn_bind_eq_ok_iff.mpr ⟨e, t, runOn_rootEntry_eq_ok_iff.mpr ⟨rfl, _, found'⟩, ?_⟩⟩
      cases e with
      | directory => exact absurd rfl notDirectory
      | file content mode => rfl
      | link target => rfl

end Renderer

end Stencil
