import Stencil.Proofs.Renderer.Sound

/-!
# Rendering a directory mirrors it

Rendering a directory into another one goes through the files and directories that the first holds,
depth first and by ascending names, and gives each of them its counterpart under the same names in
the second (`renderDirectory_mirrors`).  It stops at the first entry that fails; the entries before
it have their counterparts then, and nothing else has changed but that directories on the way to the
second directory were made first, and that a directory with a path too long to be listed has its
counterpart already.
-/

namespace Stencil

namespace FileTree

/-- The files and directories that a directory holds at any depth, by the names that lead there. -/
def contents (t : FileTree) (dir : Location) : List (Location × Entry) :=
  (t.under dir).filter fun p =>
    match p.2 with
    | .link _ => false
    | _ => true

variable {t : FileTree} {dir : Location} {rel : List String} {e : Entry}

/-- Links are left out of the contents of a directory. -/
lemma mem_contents_iff :
    (rel, e) ∈ t.contents dir ↔ (rel, e) ∈ t.under dir ∧ ∀ target, e ≠ .link target := by
  unfold contents
  rw [List.mem_filter]
  cases e with
  | link target => simp
  | directory => simp
  | file content mode => simp

/-- The contents of a directory are listed in strictly ascending order. -/
lemma pairwise_contents (t : FileTree) (dir : Location) :
    (t.contents dir).Pairwise (fun p q => p.1 < q.1) :=
  (pairwise_under t dir).filter _

/-- A location comes before those that go on from it. -/
lemma lt_of_isPrefix {below : List String} (h : below <+: rel) (proper : below ≠ rel) :
    below < rel := by
  obtain ⟨rest, rfl⟩ := h
  cases rest with
  | nil => exact absurd (List.append_nil below).symm proper
  | cons name rest =>
    have lower := (append_lt_append_iff below [] (name :: rest)).mpr (List.nil_lt_cons name rest)
    rwa [List.append_nil] at lower

end FileTree

namespace Renderer

open FileTree

variable {t₀ t u w : FileTree} {names : Namespace} {source dest : String} {S D : Location}
  {done todo : List (Location × Entry)} {p : Location × Entry}

/-! ### Mirrored trees -/

/-- In the second tree the entries that are done have their counterparts in `D`, those of files
under the paths below `dest`; everything else is as in the first tree. -/
structure Mirrored (names : Namespace) (dest : String) (D : Location)
    (done : List (Location × Entry)) (t₀ t : FileTree) : Prop where
  counterpart : ∀ p ∈ done, ∃ c, Counterpart names p.2 c ∧ t.get? (D ++ p.1) = some c
  named : ∀ p ∈ done, ∀ content mode, p.2 = .file content mode →
    Names t (Path.below dest p.1) (D ++ p.1)
  elsewhere : ∀ loc, (∀ p ∈ done, loc ≠ D ++ p.1) → t.get? loc = t₀.get? loc

/-- Nothing is done at first. -/
lemma Mirrored.start (names : Namespace) (dest : String) (D : Location) (t₀ : FileTree) :
    Mirrored names dest D [] t₀ t₀ :=
  ⟨by simp, by simp, fun _ _ => rfl⟩

/-- One entry more has its counterpart. -/
lemma Mirrored.insert {c : Entry} (mirrored : Mirrored names dest D done t₀ t)
    (other : ∀ q ∈ done, q.1 ≠ p.1) (counterpart : Counterpart names p.2 c)
    (keeps : Keeps t (t.insert (D ++ p.1) c))
    (named : ∀ content mode, p.2 = .file content mode →
      Names t (Path.below dest p.1) (D ++ p.1)) :
    Mirrored names dest D (done ++ [p]) t₀ (t.insert (D ++ p.1) c) := by
  refine ⟨?_, ?_, ?_⟩
  · intro q mem
    rw [List.mem_append, List.mem_singleton] at mem
    rcases mem with mem | rfl
    · obtain ⟨c', isCounterpart, entry⟩ := mirrored.counterpart q mem
      refine ⟨c', isCounterpart, ?_⟩
      have different : D ++ q.1 ≠ D ++ p.1 := fun same => other q mem (List.append_cancel_left same)
      rw [Table.get?_insert, if_neg different, entry]
    · exact ⟨c, counterpart, by rw [Table.get?_insert, if_pos rfl]⟩
  · intro q mem content mode isFile
    rw [List.mem_append, List.mem_singleton] at mem
    rcases mem with mem | rfl
    · exact (mirrored.named q mem content mode isFile).mono keeps
    · exact (named content mode isFile).mono keeps
  · intro loc elsewhere
    have different : loc ≠ D ++ p.1 := elsewhere p (by simp)
    rw [Table.get?_insert, if_neg different]
    exact mirrored.elsewhere loc fun q mem => elsewhere q (by simp [mem])

/-- The directory of a counterpart exists when all entries before it are done. -/
lemma leads_dest_of_mirrored (set : Setting t₀ source dest S D) (state : Untouched D t₀ t)
    {up : Location} {name : String} {e : Entry}
    (cut : t₀.contents S = done ++ (up ++ [name], e) :: todo)
    (mirrored : Mirrored names dest D done t₀ t) :
    Leads t maxLinks (startOf workingDirectory dest) (Path.names dest ++ up) (D ++ up) := by
  have ordered := pairwise_contents t₀ S
  rw [cut] at ordered
  obtain ⟨-, later, -⟩ := List.pairwise_append.mp ordered
  have mem : (up ++ [name], e) ∈ t₀.under S :=
    (mem_contents_iff.mp (cut ▸ List.mem_append_right done List.mem_cons_self)).1
  refine (set.dest.mono state.keeps).append
    (fun n hn => (set.tidy.isName _ mem n (List.mem_append_left _ hn)).2) ?_
  intro below isPrefix nonempty
  have further : below <+: up ++ [name] := isPrefix.trans (List.prefix_append up [name])
  have proper : below ≠ up ++ [name] := by
    rintro rfl
    have shorter := isPrefix.length_le
    rw [List.length_append, List.length_singleton] at shorter
    omega
  have directory := set.tidy.directory_of_isPrefix mem further nonempty proper
  have visited : (below, Entry.directory) ∈ t₀.contents S :=
    mem_contents_iff.mpr ⟨mem_under_iff.mpr ⟨nonempty, directory⟩, by simp⟩
  have isDone : (below, Entry.directory) ∈ done := by
    rw [cut, List.mem_append, List.mem_cons] at visited
    rcases visited with isDone | same | isLater
    · exact isDone
    · cases same
      exact absurd rfl proper
    · have above := (List.pairwise_cons.mp later).1 _ isLater
      exact absurd (KeyOrder.lt_trans (lt_of_isPrefix further proper) above) (KeyOrder.lt_irrefl _)
  obtain ⟨c, isCounterpart, entry⟩ := mirrored.counterpart _ isDone
  cases isCounterpart
  exact entry

/-- The next entry fails and changes nothing, or it is done; a directory whose path is refused has
its counterpart before that is reported. -/
lemma mirror_next_cases (set : Setting t₀ source dest S D) (state : Untouched D t₀ t)
    (cut : t₀.contents S = done ++ p :: todo) (mirrored : Mirrored names dest D done t₀ t) :
    (∃ err, (mirror names source dest p).runOn t = (.error err, t)) ∨
      (∃ c, (mirror names source dest p).runOn t = (.ok (), t.insert (D ++ p.1) c) ∧
        Untouched D t₀ (t.insert (D ++ p.1) c) ∧
        Mirrored names dest D (done ++ [p]) t₀ (t.insert (D ++ p.1) c)) ∨
      p.2 = .directory ∧ ∃ problem, checkPath (Path.below source p.1) = .error problem ∧
        (mirror names source dest p).runOn t =
          (.error (.walk (Path.below source p.1) problem), t.insert (D ++ p.1) .directory) := by
  obtain ⟨rel, e⟩ := p
  have visited : (rel, e) ∈ t₀.contents S := cut ▸ List.mem_append_right done List.mem_cons_self
  obtain ⟨mem, notLink⟩ := mem_contents_iff.mp visited
  obtain ⟨up, name, rfl⟩ : ∃ up name, rel = up ++ [name] := by
    rcases List.eq_nil_or_concat rel with rfl | ⟨up, name, rfl⟩
    · exact absurd rfl (mem_under_iff.mp mem).1
    · exact ⟨up, name, List.concat_eq_append⟩
  have ordered := pairwise_contents t₀ S
  rw [cut] at ordered
  have other : ∀ q ∈ done, q.1 ≠ up ++ [name] := by
    intro q hq same
    have lower := (List.pairwise_append.mp ordered).2.2 q hq _ List.mem_cons_self
    rw [same] at lower
    exact KeyOrder.lt_irrefl _ lower
  rcases mirror_cases names set state mem notLink
      (leads_dest_of_mirrored set state cut mirrored) with
    failed | ⟨c, counterpart, made, keepsDirectory, named⟩ | refused
  · exact .inl failed
  · have notLink' : ∀ target, c ≠ .link target := by
      cases counterpart <;> simp
    obtain ⟨state', keeps⟩ := state.insert (by simp) notLink' keepsDirectory
    exact .inr (.inl ⟨c, made, state', mirrored.insert other counterpart keeps named⟩)
  · exact .inr (.inr refused)

/-! ### The whole visit -/

/-- Mirroring skips links. -/
lemma Mirrors.contents {entries : List (Location × Entry)} {outcome : Except Failure Unit}
    (h : Mirrors names source dest t entries outcome w) :
    Mirrors names source dest t (entries.filter fun p =>
      match p.2 with
      | .link _ => false
      | _ => true) outcome w := by
  induction h with
  | nil => exact .nil
  | @cons t u w p entries outcome mirrored _ ih =>
    obtain ⟨rel, e⟩ := p
    cases e with
    | link target =>
      cases mirrored
      exact ih
    | directory => exact .cons mirrored ih
    | file content mode => exact .cons mirrored ih
  | @fail t u p entries err stops =>
    obtain ⟨rel, e⟩ := p
    cases e with
    | link target => cases stops
    | directory => exact .fail stops
    | file content mode => exact .fail stops

/-- A visit that fails at an entry leaves the tree as the entry does when those before it are
mirrored: unchanged, unless the entry is a directory whose path is refused, which has its
counterpart then. -/
structure StopsAt (names : Namespace) (source dest : String) (D : Location) (t₀ : FileTree)
    (done : List (Location × Entry)) (p : Location × Entry) (err : Failure) (t left : FileTree) :
    Prop where
  before : Mirrored names dest D done t₀ t
  fails : (mirror names source dest p).runOn t = (.error err, left)
  after : left = t ∨ p.2 = .directory ∧ left = t.insert (D ++ p.1) .directory ∧
    ∃ problem, checkPath (Path.below source p.1) = .error problem ∧
      err = .walk (Path.below source p.1) problem

/-- Mirroring goes on to the end or stops at the first entry that fails. -/
lemma mirrored_of_mirrors (set : Setting t₀ source dest S D) {outcome : Except Failure Unit}
    (h : Mirrors names source dest t todo outcome w) (cut : t₀.contents S = done ++ todo)
    (state : Untouched D t₀ t) (mirrored : Mirrored names dest D done t₀ t) :
    outcome = .ok () ∧ Mirrored names dest D (t₀.contents S) t₀ w ∨
      ∃ err done p rest t, outcome = .error err ∧ t₀.contents S = done ++ p :: rest ∧
        StopsAt names source dest D t₀ done p err t w := by
  induction h generalizing done with
  | nil =>
    rw [List.append_nil] at cut
    rw [cut]
    exact .inl ⟨rfl, mirrored⟩
  | @cons t u w p todo outcome made _ ih =>
    rcases mirror_next_cases set state cut mirrored with
      ⟨err, failed⟩ | ⟨c, made', state', mirrored'⟩ | ⟨-, problem, -, failed⟩
    · rw [made] at failed
      cases failed
    · rw [made] at made'
      cases made'
      have cut' : t₀.contents S = (done ++ [p]) ++ todo := by rw [cut, List.append_cons]
      exact ih cut' state' mirrored'
    · rw [made] at failed
      cases failed
  | @fail t u p todo err failed =>
    refine .inr ⟨err, done, p, todo, t, rfl, cut, mirrored, failed, ?_⟩
    rcases mirror_next_cases set state cut mirrored with
      ⟨err', failed'⟩ | ⟨c, made, -, -⟩ | ⟨directory, problem, refused, failed'⟩
    · rw [failed] at failed'
      cases failed'
      exact .inl rfl
    · rw [failed] at made
      cases made
    · rw [failed] at failed'
      cases failed'
      exact .inr ⟨directory, rfl, problem, refused, rfl⟩

/-- Links have no counterparts, so they give no paths. -/
lemma written_contents (dest : String) (t : FileTree) (S : Location) :
    written dest (t.contents S) = written dest (t.under S) := by
  unfold written contents
  rw [List.filterMap_filter]
  congr 1
  funext p
  obtain ⟨rel, e⟩ := p
  cases e <;> rfl

/-- Paths below a directory are told apart by their names, so the paths of a visit ascend. -/
lemma pairwise_written (tidy : Tidy (t.under S)) (dest : String) :
    ((written dest (t.contents S)).map Path.names).Pairwise (· < ·) := by
  rw [List.pairwise_map, written, List.pairwise_filterMap]
  refine (pairwise_contents t S).imp_of_mem ?_
  intro p q hp hq lower path hpath path' hpath'
  have named : ∀ p ∈ t.contents S, ∀ path ∈ written dest [p],
      Path.names path = Path.names dest ++ p.1 := by
    intro p hp path hpath
    have areNames := tidy.isName p (mem_contents_iff.mp hp).1
    obtain ⟨p', same, hpath⟩ := List.mem_filterMap.mp hpath
    cases List.mem_singleton.mp same
    split at hpath
    · cases hpath
      exact Path.names_below dest fun name hname => (areNames name hname).1
    · cases hpath
  have isWritten : path ∈ written dest [p] :=
    List.mem_filterMap.mpr ⟨p, List.mem_singleton_self p, hpath⟩
  have isWritten' : path' ∈ written dest [q] :=
    List.mem_filterMap.mpr ⟨q, List.mem_singleton_self q, hpath'⟩
  rw [named p hp path isWritten, named q hq path' isWritten']
  exact (append_lt_append_iff _ _ _).mpr lower

/-- The path of a destination with nothing below it. -/
lemma addsDirectories_join_empty (h : AddsDirectories (Path.join dest "") t u) :
    AddsDirectories dest t u := by
  have sameNames : Path.names (Path.join dest "") = Path.names dest := by
    rw [Path.names_join rfl, Path.names_empty, List.append_nil]
  have sameStart : startOf workingDirectory (Path.join dest "") =
      startOf workingDirectory dest := by
    rw [startOf, startOf, Path.isAbsolute_join rfl]
  unfold AddsDirectories OnWay at h ⊢
  rw [sameNames, sameStart] at h
  exact h

/-- A destination that could be made leads to a directory. -/
lemma exists_leads_of_prepare (prepared : (prepare (Path.join dest "")).runOn t = (.ok (), u)) :
    ∃ D, Leads u maxLinks (startOf workingDirectory dest) (Path.names dest) D := by
  by_cases empty : dest = ""
  · subst empty
    exact ⟨workingDirectory, .nil⟩
  · have joined : Path.join dest "" ≠ "" := by
      intro none
      have size : dest.utf8ByteSize + "".utf8ByteSize ≤ (Path.join dest "").utf8ByteSize :=
        Path.utf8ByteSize_join rfl
      rw [none] at size
      exact empty (String.utf8ByteSize_eq_zero_iff.mp (by simpa using size))
    obtain ⟨D, leads⟩ := leads_of_prepare joined prepared
    rw [Path.names_join rfl, Path.names_empty, List.append_nil] at leads
    rw [startOf, Path.isAbsolute_join rfl] at leads
    exact ⟨D, leads⟩

/-- Rendering a directory visits what it holds, after the destination has been made. -/
lemma runOn_renderDirectory (r : Renderer) (caller : Namespace) (dest : String)
    (h : t.lookUp false source = .ok (S, .directory)) :
    (r.renderDirectory caller source dest).runOn t =
      match (prepare (Path.join dest "")).runOn t with
      | (.error err, left) => (.error err, left)
      | (.ok (), left) =>
        (visit (r.names caller) dest maxPath source "" (t.children S)).runOn left := by
  have entered : (r.renderDirectory caller source dest).runOn t =
      (entering source (prepare (Path.join dest ""))
        (visit (r.names caller) dest maxPath source "")).runOn t := by
    have root : (rootEntry false source).runOn t = (.ok .directory, t) := by
      unfold rootEntry
      rw [Files.runOn_bind, Files.runOn_adapt, Files.runOn_read, h]
      rfl
    unfold renderDirectory
    rw [Files.runOn_bind_of_ok root]
  obtain ⟨checked, leads⟩ := leads_of_resolve (lookUp_eq_ok_iff.mp h)
  have noNames : AreNames [] := by simp [AreNames]
  have leads' : Leads t maxLinks (startOf workingDirectory source) (Path.names source ++ [])
      (S ++ []) := by simpa using leads
  have listed := list_below noNames leads'
  change t.list source = (checkPath source).map fun _ => t.children (S ++ []) at listed
  rw [checked, List.append_nil] at listed
  rw [entered, runOn_entering, listed]
  rfl

/-- A visit of a directory outside of the destination mirrors it or stops at an entry that fails. -/
lemma mirrored_of_visit (names : Namespace) (set : Setting t source dest S D)
    (checked : checkPath source = .ok ())
    (noLinks : ∀ loc target, D <+: loc → t.get? loc ≠ some (.link target)) :
    (∃ left, (visit names dest maxPath source "" (t.children S)).runOn t =
        (.ok (written dest (t.contents S)), left) ∧ Mirrored names dest D (t.contents S) t left) ∨
      ∃ err done p rest t' left, (visit names dest maxPath source "" (t.children S)).runOn t =
        (.error err, left) ∧ t.contents S = done ++ p :: rest ∧
          StopsAt names source dest D t done p err t' left := by
  have state : Untouched D t t := ⟨fun _ _ h _ => h, fun _ _ => rfl, noLinks⟩
  have leadsD : Leads t maxLinks (startOf workingDirectory dest) (Path.names dest ++ [])
      (D ++ []) := by
    simpa using set.dest
  have long : maxPath < maxPath + (Path.below source []).utf8ByteSize := by
    have nonempty : source.utf8ByteSize ≠ 0 := by
      intro none
      rw [String.utf8ByteSize_eq_zero_iff] at none
      subst none
      cases checked
    change maxPath < maxPath + source.utf8ByteSize
    omega
  have carried := carries_visit names set maxPath [] t state (.inl rfl) leadsD checked long
  rw [listing_nil, List.append_nil] at carried
  change Carries t D names source dest t (t.under S)
    ((visit names dest maxPath source "" (t.children S)).runOn t) at carried
  cases ran : (visit names dest maxPath source "" (t.children S)).runOn t with
  | mk outcome left =>
    rw [ran] at carried
    have cut : t.contents S = [] ++ t.contents S := rfl
    rcases carried with ⟨err, rfl, stops⟩ | ⟨rfl, mirrors, -, -⟩
    · rcases mirrored_of_mirrors set stops.contents cut state (.start names dest D t) with
        ⟨succeeded, -⟩ | ⟨err', done, p, rest, t', same, cut', stopsAt⟩
      · cases succeeded
      · cases same
        exact .inr ⟨err, done, p, rest, t', left, rfl, cut', stopsAt⟩
    · rcases mirrored_of_mirrors set mirrors.contents cut state (.start names dest D t) with
        ⟨-, mirrored⟩ | ⟨err', done, p, rest, t', failed, -⟩
      · have sameWritten : written dest (t.under S) = written dest (t.contents S) :=
          (written_contents dest t S).symm
        rw [sameWritten]
        exact .inl ⟨left, rfl, mirrored⟩
      · cases failed

/-! ### Refused paths -/

/-- A directory with a refused path has its counterpart made before the refusal is reported. -/
lemma runOn_renderDirectory_refused (r : Renderer) (caller : Namespace) {name : String}
    {cs : List (String × Entry)} {problem : FileError}
    (isDirectory : t.lookUp false source = .ok (S, .directory))
    (prepared : (prepare (Path.join dest "")).runOn t = (.ok (), u))
    (first : t.children S = (name, .directory) :: cs)
    (made : (prepare (Path.join dest name)).runOn u = (.ok (), w))
    (refused : checkPath (Path.join source name) = .error problem) :
    (r.renderDirectory caller source dest).runOn t =
      (.error (.walk (Path.join source name) problem), w) := by
  have listed : u.list (Path.join source name) = .error problem := by
    unfold list lookUp resolve
    rw [refused]
    rfl
  have entered :
      (visitEntry (r.names caller) dest (maxPath - 1) source "" (name, .directory)).runOn u =
        (.error (.walk (Path.join source name) problem), w) := by
    have whole : visitEntry (r.names caller) dest (maxPath - 1) source "" (name, .directory) =
        entering (Path.join source name) (prepare (Path.join dest name))
          (visit (r.names caller) dest (maxPath - 1) (Path.join source name) name) := rfl
    rw [whole, runOn_entering, made]
    dsimp only
    rw [listed]
  rw [runOn_renderDirectory r caller dest isDirectory, prepared, first]
  change (visit (r.names caller) dest (maxPath - 1 + 1) source "" _).runOn u = _
  rw [visit_succ, List.mapM_cons, bind_assoc, Files.runOn_bind_of_error entered]

/-- The path of the directory `s` with so many slashes at the end. -/
def slashed : Nat → String
  | 0 => "s"
  | slashes + 1 => slashed slashes ++ "/"

lemma utf8ByteSize_slashed (slashes : Nat) : (slashed slashes).utf8ByteSize = slashes + 1 := by
  induction slashes with
  | zero => rfl
  | succ slashes ih =>
    have one : "/".utf8ByteSize = 1 := by decide
    rw [slashed, String.utf8ByteSize_append, ih, one]

lemma names_slashed (slashes : Nat) : Path.names (slashed slashes) = ["s"] := by
  induction slashes with
  | zero => rfl
  | succ slashes ih => rw [slashed, Path.names_slash, ih]

lemma isAbsolute_slashed (slashes : Nat) : Path.isAbsolute (slashed slashes) = false := by
  induction slashes with
  | zero => decide
  | succ slashes ih =>
    have nonempty : slashed slashes ≠ "" := by
      intro empty
      have size := utf8ByteSize_slashed slashes
      rw [empty] at size
      cases size
    rw [slashed, Path.isAbsolute_append nonempty, ih]

/-- Paths that go on from slashes are refused when they are too long. -/
lemma checkPath_slashed_append (slashes : Nat) {name : String} (noNul : '\x00' ∉ name.toList) :
    checkPath (slashed slashes ++ name) =
      if maxPath < slashes + 1 + name.utf8ByteSize then .error .nameTooLong else .ok () := by
  have none : '\x00' ∉ (slashed slashes).toList := by
    induction slashes with
    | zero => decide
    | succ slashes ih =>
      rw [slashed, String.toList_append, List.mem_append, not_or]
      exact ⟨ih, by decide⟩
  have size : (slashed slashes ++ name).utf8ByteSize = slashes + 1 + name.utf8ByteSize := by
    rw [String.utf8ByteSize_append, utf8ByteSize_slashed]
  have nonempty : ¬ (slashed slashes ++ name).isEmpty = true := by
    intro empty
    rw [String.isEmpty_iff.mp empty] at size
    change 0 = _ at size
    omega
  have clean : ¬ (slashed slashes ++ name).toList.any (· == '\x00') = true := by
    rw [String.toList_append, List.any_append]
    simpa using ⟨none, noNul⟩
  rw [checkPath, if_neg nonempty, if_neg clean, size]

/-! ### Rendering a directory -/

/-- Rendering a directory makes the destination with the parents that it lacks, which stay whatever
happens later, and then mirrors what the directory holds, up to the first entry that fails.  Where
names on the way to the destination go up again, no directory may be made inside the rendered one
for them. -/
theorem renderDirectory_mirrors (r : Renderer) (caller : Namespace) (dest : String)
    {source : String} {t t₁ : FileTree} {S : Location} {outcome : Except Failure Unit}
    (wf : t.WellFormed)
    (isDirectory : t.lookUp false source = .ok (S, .directory))
    (prepared : (prepare (Path.join dest "")).runOn t = (outcome, t₁)) :
    AddsDirectories dest t t₁ ∧
    (∀ err, outcome = .error err →
      (r.renderDirectory caller source dest).runOn t = (.error err, t₁)) ∧
    Retains t₁ ((r.renderDirectory caller source dest).runOn t).2 ∧
    (outcome = .ok () → ∃ D, t₁.directoryAt dest (Path.names dest) = .ok D ∧
      (¬ S <+: D → ¬ D <+: S → (∀ loc target, D <+: loc → t.get? loc ≠ some (.link target)) →
        (".." ∈ Path.names dest → t₁.under S = t.under S) →
        (∃ left, (r.renderDirectory caller source dest).runOn t =
            (.ok (written dest (t.contents S)), left) ∧
          Mirrored (r.names caller) dest D (t.contents S) t₁ left) ∨
        ∃ err done p rest t' left,
          (r.renderDirectory caller source dest).runOn t = (.error err, left) ∧
          t.contents S = done ++ p :: rest ∧
          StopsAt (r.names caller) source dest D t₁ done p err t' left)) ∧
    ((written dest (t.contents S)).map Path.names).Pairwise (· < ·) := by
  have added : AddsDirectories dest t t₁ :=
    addsDirectories_join_empty (addsDirectories_of_prepare prepared)
  refine ⟨added, ?_, ?_, ?_, pairwise_written (wf.tidy_under S) dest⟩
  · rintro err rfl
    rw [runOn_renderDirectory r caller dest isDirectory, prepared]
  · rw [runOn_renderDirectory r caller dest isDirectory, prepared]
    cases outcome with
    | error err => exact .refl t₁
    | ok => exact preserves_retains_visit t₁ dest maxPath source "" (t.children S) t₁ (.refl t₁)
  · rintro rfl
    obtain ⟨D, leadsD⟩ := exists_leads_of_prepare prepared
    refine ⟨D, directoryAt_eq_ok_iff.mpr leadsD, ?_⟩
    intro notInside notAround noLinks goesUp
    have same : t₁.under S = t.under S := by
      by_cases up : ".." ∈ Path.names dest
      · exact goesUp up
      · exact added.under_eq wf leadsD up notInside
    obtain ⟨checked, leadsS⟩ := leads_of_resolve (lookUp_eq_ok_iff.mp isDirectory)
    have set : Setting t₁ source dest S D :=
      ⟨leadsS.mono added.keeps, leadsD, same ▸ wf.tidy_under S, notInside, notAround⟩
    have sameContents : t₁.contents S = t.contents S := by
      rw [contents, contents, same]
    have mirrored := mirrored_of_visit (r.names caller) set checked (added.noLinks noLinks)
    rw [sameContents, children_congr same] at mirrored
    rw [runOn_renderDirectory r caller dest isDirectory, prepared]
    exact mirrored

/-- A directory `s` with a directory and a template in it. -/
def nested : FileTree :=
  .ofList [(["home"], .directory), (["home", "templates"], .directory),
    (["home", "templates", "s"], .directory),
    (["home", "templates", "s", "a"], .directory),
    (["home", "templates", "s", "b"], .file (.text "x") (.ofNat 0o644))]

/-- The directory `s` with an empty directory `out` beside it. -/
def nestedWithOut : FileTree :=
  Table.insert nested ["home", "templates", "out"] .directory

/-- The directory and the template in `s` have their counterparts in `out` afterwards. -/
theorem renderDirectory_mirrors_nested :
    nested.WellFormed ∧ nested.lookUp false "s" = .ok (["home", "templates", "s"], .directory) ∧
      (prepare (Path.join "out" "")).runOn nested = (.ok (), nestedWithOut) ∧
      ∃ left, (renderDirectory ⟨.empty, ""⟩ .empty "s" "out").runOn nested = (.ok ["out/b"], left) ∧
        Mirrored (Renderer.names ⟨.empty, ""⟩ .empty) "out" ["home", "templates", "out"]
          [(["a"], .directory), (["b"], .file (.text "x") (.ofNat 0o644))] nestedWithOut left := by
  have wf : nested.WellFormed := by decide +kernel
  have isDirectory : nested.lookUp false "s" = .ok (["home", "templates", "s"], .directory) := by
    decide +kernel
  have prepared : (prepare (Path.join "out" "")).runOn nested = (.ok (), nestedWithOut) := rfl
  have leads : nestedWithOut.directoryAt "out" (Path.names "out") =
      .ok ["home", "templates", "out"] := by decide +kernel
  have held : nested.contents ["home", "templates", "s"] =
      [(["a"], .directory), (["b"], .file (.text "x") (.ofNat 0o644))] := by decide +kernel
  have noLinks : ∀ loc target, ["home", "templates", "out"] <+: loc →
      nested.get? loc ≠ some (.link target) := by
    intro loc target inside entry
    have outside : ∀ p ∈ nested.entries, ¬ ["home", "templates", "out"] <+: p.1 := by decide +kernel
    exact outside _ (Table.mem_entries_iff.mpr entry) inside
  have succeeds : ((renderDirectory ⟨.empty, ""⟩ .empty "s" "out").runOn nested).1 =
      .ok ["out/b"] := by decide +kernel
  obtain ⟨-, -, -, mirrors, -⟩ :=
    renderDirectory_mirrors ⟨.empty, ""⟩ .empty "out" wf isDirectory prepared
  obtain ⟨D, leadsD, mirrors⟩ := mirrors rfl
  rw [leads] at leadsD
  cases leadsD
  refine ⟨wf, isDirectory, prepared, ?_⟩
  rcases mirrors (by decide) (by decide) noLinks (fun up => absurd up (by decide +kernel)) with
    ⟨left, ran, mirrored⟩ | ⟨err, done, p, rest, t', left, ran, -⟩
  · rw [held] at mirrored
    rw [ran] at succeeds
    exact ⟨left, ran.trans (congrArg (·, left) succeeds), mirrored⟩
  · rw [ran] at succeeds
    cases succeeds

/-- Rendering changes more than the counterparts when the way to the destination goes through a
directory that is missing, and a directory with a refused path keeps its counterpart. -/
theorem renderDirectory_adds_elsewhere :
    (nested.get? ["home", "templates", "nope"] = none ∧
      ((renderDirectory ⟨.empty, ""⟩ .empty "s" "nope/../out").runOn nested).1 =
        .ok ["nope/../out/b"] ∧
      ((renderDirectory ⟨.empty, ""⟩ .empty "s" "nope/../out").runOn nested).2.get?
        ["home", "templates", "nope"] = some .directory) ∧
    ∃ left, nested.get? ["home", "templates", "out", "a"] = none ∧
      (renderDirectory ⟨.empty, ""⟩ .empty (slashed 4094) "out").runOn nested =
        (.error (.walk (slashed 4094 ++ "a") .nameTooLong), left) ∧
      left.get? ["home", "templates", "out", "a"] = some .directory := by
  refine ⟨⟨by decide +kernel, by decide +kernel, by decide +kernel⟩, ?_⟩
  have slash : Path.endsInSlash (slashed 4094) = true := by
    rw [slashed, Path.endsInSlash_append (by decide)]
    decide
  have isDirectory : nested.lookUp false (slashed 4094) =
      .ok (["home", "templates", "s"], .directory) := by
    have checked : checkPath (slashed 4094 ++ "") = .ok () := by
      rw [checkPath_slashed_append 4094 (by decide), if_neg (by decide)]
    rw [String.append_empty] at checked
    have leads : Leads nested maxLinks workingDirectory ["s"] ["home", "templates", "s"] :=
      .enter (by decide) (by decide +kernel) .nil
    refine lookUp_eq_ok_iff.mpr (resolve_eq_ok_iff.mpr ⟨checked, ?_⟩)
    rw [Path.steps, if_pos slash, names_slashed, startOf, isAbsolute_slashed]
    exact resolveSteps_dot_eq_ok_iff.mpr ⟨_, leads, rfl⟩
  have prepared : (prepare (Path.join "out" "")).runOn nested = (.ok (), nestedWithOut) := rfl
  have first : nested.children ["home", "templates", "s"] =
      [("a", .directory), ("b", .file (.text "x") (.ofNat 0o644))] := by decide +kernel
  have made : (prepare (Path.join "out" "a")).runOn nestedWithOut =
      (.ok (), Table.insert nestedWithOut ["home", "templates", "out", "a"] .directory) := rfl
  have joined : Path.join (slashed 4094) "a" = slashed 4094 ++ "a" := by
    rw [Path.join_of_relative (by decide), slash, Bool.or_true, if_pos rfl]
  have refused : checkPath (Path.join (slashed 4094) "a") = .error .nameTooLong := by
    rw [joined, checkPath_slashed_append 4094 (by decide), if_pos (by decide)]
  have ran :=
    runOn_renderDirectory_refused ⟨.empty, ""⟩ .empty isDirectory prepared first made refused
  rw [joined] at ran
  exact ⟨_, by decide +kernel, ran, by rw [Table.get?_insert, if_pos rfl]⟩

end Renderer

end Stencil
