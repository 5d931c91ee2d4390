import Stencil.Proofs.Renderer.Located
import Stencil.Proofs.Renderer.OwnOutput

/-!
# Two paths to the visited directory

A visit reads through the path that it was given.  When two paths lead to the same directory all
along, a visit through the one does what a visit through the other does: it writes the same paths or
fails on the same entry, and it leaves the same tree (`sameVisit`).
-/

namespace Stencil

namespace FileTree

variable {p : String} {rel : List String}

/-- A path below one that is not refused is refused for its names or for its length only. -/
lemma checkPath_below (checked : checkPath p = .ok ()) (h : ∀ name ∈ rel, Path.IsName name)
    (short : (Path.below p rel).utf8ByteSize ≤ maxPath) :
    checkPath (Path.below p rel) =
      if ("/".intercalate rel).toList.any (· == '\x00') then .error .nulInName else .ok () := by
  by_cases empty : rel = []
  · subst empty
    exact checked
  · obtain ⟨-, relative, -⟩ := Path.intercalate_spec empty h
    have noNul : p.toList.any (· == '\x00') = false := by
      unfold checkPath at checked
      split at checked
      · cases checked
      · split at checked
        · cases checked
        · next noNul => exact Bool.eq_false_iff.mpr noNul
    have nul : (Path.below p rel).toList.any (· == '\x00') =
        ("/".intercalate rel).toList.any (· == '\x00') := by
      rw [Path.below, if_neg (by simpa using empty), Path.join_of_relative relative]
      split
      · rw [String.toList_append, List.any_append, noNul, Bool.false_or]
      · rw [String.toList_append, String.toList_append, List.any_append, List.any_append, noNul]
        rfl
    rw [checkPath, if_neg (by simpa using Path.below_ne_empty p empty h), nul,
      if_neg (Nat.not_lt.mpr short)]

end FileTree

namespace Renderer

open FileTree Files

variable {names : Namespace} {source dest p q : String} {t u w left : FileTree} {S : Location}
  {rel up : List String} {name : String} {e : Entry} {cs : List (String × Entry)}

/-! ### What a visit retains -/

/-- Naming the entries on which a program fails does not change what it keeps. -/
lemma preserves_adapt_relative {α : Type} {P : FileTree → Prop} {program : Files Stop α}
    (h : Preserves P (program.adapt Stop.reason)) : Preserves P (program.adapt Stop.relative) := by
  intro u holds
  have kept := h u holds
  rw [runOn_adapt] at kept ⊢
  exact kept

/-- A visit retains every tree. -/
lemma preserves_retains_locate (t : FileTree) (depth : Nat) (path within : String)
    (entries : List (String × Entry)) :
    Preserves (Retains t) ((locate names dest depth path within entries).adapt Stop.relative) := by
  apply preserves_adapt_relative
  rw [adapt_reason_locate]
  exact preserves_retains_visit t dest depth path within entries

/-- Dealing with an entry keeps what making directories and rendering files keep. -/
lemma preserves_locateEntry {P : FileTree → Prop} (prepared : ∀ path, Preserves P (prepare path))
    (copied : ∀ source dest, Preserves P (copyFilled names source dest)) (depth : Nat)
    (path within : String) (c : String × Entry) :
    Preserves P
      ((locateEntry names dest (locate names dest depth) path within c).adapt Stop.relative) := by
  apply preserves_adapt_relative
  rw [adapt_reason_locateEntry depth (adapt_reason_locate depth)]
  exact preserves_visitEntry prepared copied (preserves_visit dest prepared copied depth) path
    within c

/-! ### Paths that lead to the visited directory all along -/

/-- From the first tree to the second, the path leads to the directory `S`, and no path below it to
what stands in `S` is too long. -/
structure Anchored (t w : FileTree) (p : String) (S : Location) : Prop where
  checked : checkPath p = .ok ()
  leads : ∀ u, Retains t u → Retains u w →
    Leads u maxLinks (startOf workingDirectory p) (Path.names p) S
  short : ∀ rel e, w.get? (S ++ rel) = some e → (Path.below p rel).utf8ByteSize ≤ maxPath

/-- A path that leads to the directory before and to a directory after leads there all along. -/
lemma anchored_of_isDirectory (before : t.lookUp true p = .ok (S, .directory))
    (after : w.isDirectory p = true)
    (short : ∀ rel e, w.get? (S ++ rel) = some e → (Path.below p rel).utf8ByteSize ≤ maxPath) :
    Anchored t w p S := by
  obtain ⟨checked, first⟩ := leads_of_resolve (lookUp_eq_ok_iff.mp before)
  obtain ⟨-, dir, last⟩ := isDirectory_iff.mp after
  exact ⟨checked, fun u since until_ => first.between since until_ last, short⟩

/-- An entry of the visited directory has a path that is refused through both paths or neither. -/
lemma Anchored.checkPath_eq (hp : Anchored t w p S) (hq : Anchored t w q S)
    (areNames : AreNames rel) (onward : Retains u w) (entry : u.get? (S ++ rel) = some e) :
    checkPath (Path.below q rel) = checkPath (Path.below p rel) := by
  obtain ⟨e', stays⟩ := onward.exists_get? entry
  have names : ∀ name ∈ rel, Path.IsName name := fun name mem => (areNames name mem).1
  rw [checkPath_below hp.checked names (hp.short _ _ stays),
    checkPath_below hq.checked names (hq.short _ _ stays)]

/-- Directories below the visited one are reached through the path. -/
lemma Anchored.leads_below (hp : Anchored t w p S) (sound : u.Sound) (since : Retains t u)
    (onward : Retains u w) (stands : IsStart u S rel) :
    Leads u maxLinks (startOf workingDirectory p) (Path.names p ++ rel) (S ++ rel) :=
  (hp.leads u since onward).into (sound.wellFormed.tidy_under S) stands

/-- A directory lists the same through both paths, or cannot be listed for the same reason. -/
lemma Anchored.list_eq (hp : Anchored t w p S) (hq : Anchored t w q S) (sound : u.Sound)
    (since : Retains t u) (onward : Retains u w) (nonempty : rel ≠ [])
    (entry : u.get? (S ++ rel) = some .directory) :
    u.list (Path.below q rel) = u.list (Path.below p rel) := by
  have mem : (rel, Entry.directory) ∈ u.under S := mem_under_iff.mpr ⟨nonempty, entry⟩
  have areNames : AreNames rel := (sound.wellFormed.tidy_under S).isName _ mem
  rw [list_below areNames (hq.leads_below sound since onward (.inr mem)),
    list_below areNames (hp.leads_below sound since onward (.inr mem)),
    hp.checkPath_eq hq areNames onward entry]

/-- A file is found through both paths, or cannot be found for the same reason. -/
lemma Anchored.lookUp_eq (hp : Anchored t w p S) (hq : Anchored t w q S) (sound : u.Sound)
    (since : Retains t u) (onward : Retains u w) {content : Content} {mode : Mode}
    (entry : u.get? (S ++ (up ++ [name])) = some (.file content mode)) :
    u.lookUp true (Path.below q (up ++ [name])) = u.lookUp true (Path.below p (up ++ [name])) := by
  have tidy := sound.wellFormed.tidy_under S
  have mem : (up ++ [name], Entry.file content mode) ∈ u.under S :=
    mem_under_iff.mpr ⟨by simp, entry⟩
  have areNames : AreNames (up ++ [name]) := tidy.isName _ mem
  have above : IsStart u S up := by
    have parent := tidy.parent _ mem
    rwa [List.dropLast_concat] at parent
  have refused := hp.checkPath_eq hq areNames onward entry
  have found : ∀ {p : String}, Anchored t w p S →
      checkPath (Path.below p (up ++ [name])) = .ok () →
      u.lookUp true (Path.below p (up ++ [name])) =
        .ok (S ++ (up ++ [name]), .file content mode) := by
    intro p hp checked
    have named := (names_below_iff areNames (hp.leads_below sound since onward above)).mpr
      ⟨checked, rfl⟩
    exact lookUp_of_names named
      (Path.endsInSlash_below p (by simp) fun name mem => (areNames name mem).1) entry
  cases checked : checkPath (Path.below p (up ++ [name])) with
  | ok => rw [found hp checked, found hq (refused.trans checked)]
  | error problem =>
    unfold lookUp resolve
    rw [refused, checked]
    rfl

/-! ### Entries of the visited directory -/

/-- The directories and files among these entries of the directory `rel` below `S` stand there. -/
structure Standing (u : FileTree) (S rel : Location) (cs : List (String × Entry)) : Prop where
  areNames : ∀ c ∈ cs, AreNames (rel ++ [c.1])
  directory : ∀ name, (name, Entry.directory) ∈ cs →
    u.get? (S ++ (rel ++ [name])) = some .directory
  file : ∀ name content mode, (name, Entry.file content mode) ∈ cs →
    ∃ content' mode', u.get? (S ++ (rel ++ [name])) = some (.file content' mode')

/-- What a directory holds stands there. -/
lemma standing_children (sound : u.Sound) (areNames : AreNames rel) :
    Standing u S rel (u.children (S ++ rel)) := by
  refine ⟨fun c mem => areNames_of_mem_children sound.wellFormed areNames mem,
    fun name mem => ?_, fun name content mode mem => ⟨content, mode, ?_⟩⟩
  · rw [← List.append_assoc]
    exact mem_children_iff.mp mem
  · rw [← List.append_assoc]
    exact mem_children_iff.mp mem

/-- What stands there stays there. -/
lemma Standing.retains (h : Standing u S rel cs) (retains : Retains u w) : Standing w S rel cs := by
  refine ⟨h.areNames, fun name mem => retains.directory (h.directory name mem),
    fun name content mode mem => ?_⟩
  obtain ⟨content', mode', entry⟩ := h.file name content mode mem
  exact retains.file entry

lemma Standing.tail {c : String × Entry} (h : Standing u S rel (c :: cs)) : Standing u S rel cs :=
  ⟨fun c mem => h.areNames c (List.mem_cons_of_mem _ mem),
    fun name mem => h.directory name (List.mem_cons_of_mem _ mem),
    fun name content mode mem => h.file name content mode (List.mem_cons_of_mem _ mem)⟩

/-! ### One entry -/

/-- What is copied depends on what the path of the source leads to. -/
lemma runOn_copyFilled_congr (found : u.lookUp true q = u.lookUp true p) :
    (copyFilled names q dest).runOn u = (copyFilled names p dest).runOn u := by
  have filled : fillFile names u q = fillFile names u p := by
    unfold fillFile readText
    rw [found]
  have modes : u.modeOf q = u.modeOf p := by
    unfold modeOf
    rw [found]
  unfold copyFilled
  apply runOn_bind_congr
  · rw [runOn_read, runOn_read, filled]
  · intro out left ran
    rw [runOn_read] at ran
    obtain ⟨-, rfl⟩ := Prod.mk.inj ran
    apply runOn_bind_congr
    · rw [runOn_adapt, runOn_adapt, runOn_read, runOn_read, modes]
    · intro mode left ran
      rfl

/-- Whether a directory can be entered depends on what it lists. -/
lemma runOn_entering_congr {problem : String} {prepare : Files Failure Unit}
    (listed : u.list q = u.list p) :
    runOn ((entering q prepare pure).adapt fun _ => problem) u =
      runOn ((entering p prepare pure).adapt fun _ => problem) u := by
  rw [runOn_adapt, runOn_adapt, runOn_entering, runOn_entering, listed]
  rcases prepare.runOn u with ⟨_ | _, left⟩
  · rfl
  · dsimp only
    cases u.list p with
    | error e => rfl
    | ok held => rfl

/-- The tree that the first part of a program leaves is retained if the second part retains every
tree. -/
lemma retains_runOn_bind {ε α β : Type} {program : Files ε α} {next : α → Files ε β}
    (onward : ∀ a t, Preserves (Retains t) (next a)) (u : FileTree) :
    Retains (runOn program u).2 (runOn (program >>= next) u).2 := by
  rw [runOn_bind]
  rcases runOn program u with ⟨_ | a, left⟩
  · exact .refl left
  · exact onward a left left (.refl left)

/-- A visit goes through the entries one after another. -/
lemma locate_cons (depth : Nat) (path within : String) (c : String × Entry)
    (cs : List (String × Entry)) :
    locate names dest (depth + 1) path within (c :: cs) = do
      let here ← locateEntry names dest (locate names dest depth) path within c
      let others ← locate names dest (depth + 1) path within cs
      return here ++ others := by
  simp [locate, List.mapM_cons]

/-- What a visit does for an entry, by the names of the entry from the visited directory. -/
lemma locateEntry_below
    {inner : String → String → List (String × Entry) → Files Stop (List String)}
    (h : AreNames (rel ++ [name])) :
    locateEntry names dest inner (Path.below source rel) ("/".intercalate rel) (name, e) =
      match e with
      | .directory => do
        let held ← locating ("/".intercalate (rel ++ [name]))
          (entering (Path.below source (rel ++ [name]))
            (prepare (Path.below dest (rel ++ [name]))) pure)
        inner (Path.below source (rel ++ [name])) ("/".intercalate (rel ++ [name])) held
      | .file _ _ => locating ("/".intercalate (rel ++ [name])) do
        copyFilled names (Path.below source (rel ++ [name])) (Path.below dest (rel ++ [name]))
        return [Path.below dest (rel ++ [name])]
      | .link _ => return [] := by
  have isName : Path.IsName name := (h name (by simp)).1
  have relative : ∀ n ∈ rel, Path.IsName n := fun n hn => (h n (by simp [hn])).1
  have target : Path.join dest ("/".intercalate (rel ++ [name])) =
      Path.below dest (rel ++ [name]) :=
    (if_neg (by simp)).symm
  have inside := Path.join_intercalate relative isName
  unfold locateEntry
  cases e <;> simp only [Path.join_below source relative isName, inside, target]

/-- Visiting the entries of the directory `rel` comes to the same through both paths, in every tree
from which it leads on to the last one. -/
def SameVisit (names : Namespace) (dest : String) (t w : FileTree) (p q : String) (S : Location)
    (depth : Nat) (rel : Location) (cs : List (String × Entry)) : Prop :=
  ∀ u : FileTree, u.Sound → Retains t u → Standing u S rel cs →
    Retains (runOn ((locate names dest depth (Path.below p rel) ("/".intercalate rel) cs).adapt
      Stop.relative) u).2 w →
    runOn ((locate names dest depth (Path.below q rel) ("/".intercalate rel) cs).adapt
        Stop.relative) u =
      runOn ((locate names dest depth (Path.below p rel) ("/".intercalate rel) cs).adapt
        Stop.relative) u

/-- Dealing with an entry comes to the same through both paths, if visiting what it holds does. -/
lemma runOn_locateEntry_eq (hp : Anchored t w p S) (hq : Anchored t w q S) {depth : Nat}
    (sound : u.Sound) (since : Retains t u) (standing : Standing u S rel ((name, e) :: cs))
    (onward : Retains (runOn ((locateEntry names dest (locate names dest depth)
      (Path.below p rel) ("/".intercalate rel) (name, e)).adapt Stop.relative) u).2 w)
    (inner : ∀ held, SameVisit names dest t w p q S depth (rel ++ [name]) held) :
    runOn ((locateEntry names dest (locate names dest depth) (Path.below q rel)
        ("/".intercalate rel) (name, e)).adapt Stop.relative) u =
      runOn ((locateEntry names dest (locate names dest depth) (Path.below p rel)
        ("/".intercalate rel) (name, e)).adapt Stop.relative) u := by
  have areNames : AreNames (rel ++ [name]) := standing.areNames (name, e) List.mem_cons_self
  have before : Retains u w :=
    (preserves_locateEntry (preserves_retains_prepare u) (preserves_retains_copyFilled u) depth
      _ _ _ u (.refl u)).trans onward
  rw [locateEntry_below areNames] at onward ⊢
  rw [locateEntry_below areNames]
  cases e with
  | link target => rfl
  | file content mode =>
    obtain ⟨content', mode', entry⟩ := standing.file name content mode List.mem_cons_self
    have found := hp.lookUp_eq hq sound since before entry
    dsimp only
    rw [adapt_relative_locating, adapt_relative_locating, runOn_adapt, runOn_adapt, runOn_bind,
      runOn_bind, runOn_copyFilled_congr found]
  | directory =>
    have entry := standing.directory name List.mem_cons_self
    have listed := hp.list_eq hq sound since before (by simp) entry
    dsimp only at onward ⊢
    rw [adapt_bind, adapt_relative_locating] at onward ⊢
    rw [adapt_bind, adapt_relative_locating]
    apply runOn_bind_congr
    · exact runOn_entering_congr listed
    · intro held left ran
      rw [runOn_bind_of_ok ran] at onward
      obtain ⟨held, mid, listed', prepared, entered⟩ :=
        runOn_entering_eq_ok_iff.mp (runOn_adapt_eq_ok_iff.mp ran)
      cases entered
      have mem : (rel ++ [name], Entry.directory) ∈ u.under S := mem_under_iff.mpr ⟨by simp, entry⟩
      have holds : held = u.children (S ++ (rel ++ [name])) := by
        rw [list_below areNames (hp.leads_below sound since before (.inr mem))] at listed'
        cases refused : checkPath (Path.below p (rel ++ [name])) with
        | error problem =>
          rw [refused] at listed'
          cases listed'
        | ok =>
          rw [refused] at listed'
          exact (Except.ok.inj listed').symm
      have retains := retains_of_prepare prepared
      refine inner held _ ((preserves_sound_prepare _).of_runOn sound prepared)
        (since.trans retains) ?_ onward
      rw [holds]
      exact (standing_children sound areNames).retains retains

/-! ### The whole visit -/

/-- Visiting entries of a directory comes to the same through both paths. -/
theorem sameVisit (hp : Anchored t w p S) (hq : Anchored t w q S) (depth : Nat) (rel : Location)
    (cs : List (String × Entry)) : SameVisit names dest t w p q S depth rel cs := by
  induction depth generalizing rel cs with
  | zero =>
    intro u sound since standing onward
    rw [locate, locate, adapt_throw, adapt_throw]
  | succ depth inner =>
    -- The trees change from entry to entry, so both inductions are about every tree between the
    -- first and the last one.
    induction cs with
    | nil =>
      intro u sound since standing onward
      rw [locate, locate, List.mapM_nil, List.mapM_nil]
    | cons c cs ih =>
      intro u sound since standing onward
      rw [locate_cons, adapt_bind] at onward ⊢
      rw [locate_cons, adapt_bind]
      have others : ∀ here v, Preserves (Retains v)
          ((do
            let others ← locate names dest (depth + 1) (Path.below p rel) ("/".intercalate rel) cs
            return here ++ others : Files Stop (List String)).adapt Stop.relative) := by
        intro here v
        rw [adapt_bind]
        exact (preserves_retains_locate v _ _ _ _).bind fun _ => .pure _
      have first := (retains_runOn_bind others u).trans onward
      apply runOn_bind_congr
      · exact runOn_locateEntry_eq hp hq sound since standing first fun held => inner _ held
      · intro here left ran
        have sound' := (preserves_locateEntry preserves_sound_prepare
          (preserves_sound_copyFilled names) depth _ _ _).of_runOn sound ran
        have retains := (preserves_locateEntry (preserves_retains_prepare u)
          (preserves_retains_copyFilled u) depth _ _ _).of_runOn (.refl u) ran
        rw [runOn_bind_of_ok ran, adapt_bind] at onward
        rw [adapt_bind, adapt_bind]
        apply runOn_bind_congr
        · exact ih left sound' (since.trans retains) (standing.tail.retains retains)
            ((retains_runOn_bind (fun _ _ => .pure _) left).trans onward)
        · exact fun _ _ _ => rfl

end Renderer

end Stencil
