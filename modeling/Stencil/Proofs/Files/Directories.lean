import Stencil.Proofs.Files.Designation
import Stencil.Proofs.Files.Program
import Stencil.Proofs.Files.Subtree

/-!
# Making directories

Making a directory with the parents that it lacks adds directories where there was nothing, each of
them on the way to the new one, and changes nothing else, whether it succeeds or fails half way
(`addsDirectories_makeDirectories`).  When it succeeds, the path leads to a directory.
-/

namespace Stencil

variable {t u w : FileTree} {p q : String} {loc : Location}

namespace Path

/-! ### The pieces of a path -/

/-- The names among pieces that have slashes between them are those that are not empty. -/
lemma names_intercalate_pieces {pieces : List String} (h : ∀ s ∈ pieces, '/' ∉ s.toList) :
    names ("/".intercalate pieces) = pieces.filter (· ≠ "") := by
  have single : ∀ s : String, '/' ∉ s.toList → names s = [s].filter (· ≠ "") := by
    intro s hs
    by_cases empty : s = ""
    · simp [empty]
    · rw [names_of_isName ⟨empty, hs⟩]
      simp [empty]
  induction pieces with
  | nil => rfl
  | cons s pieces ih =>
    have first := single s (h s List.mem_cons_self)
    cases pieces with
    | nil => rw [String.intercalate_singleton, first]
    | cons s' pieces =>
      rw [String.intercalate_cons_cons, names_append_slash, first,
        ih fun s hs => h s (List.mem_cons_of_mem _ hs), ← List.filter_append]
      rfl

/-- No piece of a path holds a slash. -/
lemma noSlash_of_mem_piecesUp {piece : String} (h : piece ∈ piecesUp p) : '/' ∉ piece.toList := by
  simp only [piecesUp, List.mem_reverse, List.mem_map] at h
  obtain ⟨cs, mem, rfl⟩ := h
  rw [String.toList_ofList]
  exact Text.notMem_of_mem_splitOn mem

/-- The names of a path are its pieces that are not empty. -/
lemma names_eq_filter_piecesUp (p : String) :
    names p = (piecesUp p).reverse.filter (· ≠ "") := by
  have kept : ∀ pieces : List (List Char),
      (pieces.filter fun name => !name.isEmpty).map String.ofList =
        (pieces.map String.ofList).filter (· ≠ "") := by
    intro pieces
    induction pieces with
    | nil => rfl
    | cons cs pieces ih =>
      by_cases empty : cs = []
      · simpa [empty] using ih
      · have named : String.ofList cs ≠ "" := by simpa using empty
        simpa [empty, named] using ih
  unfold names piecesUp
  rw [List.reverse_reverse, kept]
  by_cases abs : isAbsolute p = true
  · rw [if_pos abs]
    obtain ⟨cs, cut⟩ : ∃ cs, p.toList = '/' :: cs := by
      have first : p.toList.head? = some '/' := by simpa [isAbsolute] using abs
      cases shape : p.toList with
      | nil => simp [shape] at first
      | cons c cs =>
        rw [shape] at first
        exact ⟨cs, by simpa using first⟩
    simp [cut, Text.splitOn]
  · rw [if_neg abs]

/-- The names of the path of some pieces are those pieces that are not empty. -/
lemma names_ofPiecesUp {pieces : List String} (h : ∀ s ∈ pieces, '/' ∉ s.toList)
    (absolute : Bool) : names (ofPiecesUp absolute pieces) = pieces.reverse.filter (· ≠ "") := by
  have relative : names ("/".intercalate pieces.reverse) = pieces.reverse.filter (· ≠ "") :=
    names_intercalate_pieces fun s hs => h s (List.mem_reverse.mp hs)
  unfold ofPiecesUp
  cases absolute with
  | false => exact relative
  | true =>
    have slash := names_append_slash "" ("/".intercalate pieces.reverse)
    rw [String.empty_append, names_empty, List.nil_append] at slash
    exact slash.trans relative

/-- The names of the path of some pieces from the start of another path. -/
lemma names_ofPiecesUp_prefix {pieces : List String} (h : pieces <:+ piecesUp p)
    (absolute : Bool) : names (ofPiecesUp absolute pieces) <+: names p := by
  rw [names_ofPiecesUp (fun s hs => noSlash_of_mem_piecesUp (h.subset hs)),
    names_eq_filter_piecesUp]
  exact (List.reverse_prefix.mpr h).filter _

/-- The path of some pieces from the start of another path starts where that one does. -/
lemma isAbsolute_ofPiecesUp {pieces : List String} (h : pieces <:+ piecesUp p)
    (nonempty : pieces ≠ []) (hp : p ≠ "") :
    isAbsolute (ofPiecesUp (isAbsolute p) pieces) = isAbsolute p := by
  by_cases abs : isAbsolute p = true
  · rw [abs, ofPiecesUp, if_pos rfl, isAbsolute_append (by decide)]
    rfl
  · have relative : isAbsolute p = false := by simpa using abs
    obtain ⟨s, others, cut⟩ := List.exists_cons_of_ne_nil (List.reverse_ne_nil_iff.mpr nonempty)
    have isPrefix := List.reverse_prefix.mpr h
    obtain ⟨first, rest, whole, ne⟩ : ∃ first rest,
        (piecesUp p).reverse = first :: rest ∧ first ≠ "" := by
      obtain ⟨c, cs, shape⟩ := List.exists_cons_of_ne_nil (l := p.toList) (by simpa using hp)
      have other : c ≠ '/' := by simpa [isAbsolute, shape] using relative
      unfold piecesUp
      rw [relative, if_neg (by decide), List.reverse_reverse, shape, Text.splitOn, if_neg other]
      split
      · exact ⟨_, _, rfl, by simp⟩
      · exact ⟨_, _, rfl, by simp⟩
    rw [cut, whole] at isPrefix
    obtain ⟨rfl, -⟩ := List.cons_prefix_cons.mp isPrefix
    have isName : IsName s :=
      ⟨ne, noSlash_of_mem_piecesUp (h.subset (List.mem_reverse.mp (cut ▸ List.mem_cons_self)))⟩
    rw [relative, ofPiecesUp, if_neg (by decide), cut]
    cases others with
    | nil => rw [String.intercalate_singleton, isAbsolute_of_isName isName]
    | cons s' others =>
      rw [String.intercalate_cons_cons, String.append_assoc, isAbsolute_append ne,
        isAbsolute_of_isName isName]

/-- What is left when fillers are dropped from the end of a path. -/
lemma dropFillers_suffix (absolute : Bool) (pieces : List String) :
    dropFillers absolute pieces <:+ pieces := by
  induction pieces with
  | nil => exact List.suffix_refl _
  | cons piece up ih =>
    unfold dropFillers
    split
    · exact ih.trans (List.suffix_cons piece up)
    · exact List.suffix_refl _

/-- The pieces above the last name of a path are from its start. -/
lemma above?_suffix (p : String) : (above? p).getD [] <:+ piecesUp p := by
  have whole := dropFillers_suffix (isAbsolute p) (piecesUp p)
  unfold above?
  split
  · exact List.nil_suffix
  · next piece up cut =>
    rw [cut] at whole
    exact (List.suffix_cons piece up).trans whole

end Path

namespace FileTree

/-! ### New directories -/

/-- The first names of the path lead to the location. -/
def OnWay (t : FileTree) (p : String) (loc : Location) : Prop :=
  ∃ names, names <+: Path.names p ∧ Leads t maxLinks (startOf workingDirectory p) names loc

/-- The second tree has directories on the way of the path where the first has nothing, and agrees
with the first everywhere else. -/
def AddsDirectories (p : String) (t u : FileTree) : Prop :=
  ∀ loc, u.get? loc = t.get? loc ∨
    t.get? loc = none ∧ u.get? loc = some .directory ∧ OnWay u p loc

lemma AddsDirectories.refl (p : String) (t : FileTree) : AddsDirectories p t t :=
  fun _ => .inl rfl

/-- New directories leave directories and links where they are. -/
lemma AddsDirectories.keeps (h : AddsDirectories p t u) : Keeps t u := by
  intro loc e entry _
  rcases h loc with same | ⟨none, -⟩
  · rw [same, entry]
  · rw [none] at entry
    cases entry

lemma AddsDirectories.trans (h : AddsDirectories p t u) (h' : AddsDirectories p u w) :
    AddsDirectories p t w := by
  intro loc
  rcases h' loc with same' | ⟨none', added', onWay'⟩
  · rcases h loc with same | ⟨none, added, names, isPrefix, leads⟩
    · exact .inl (same'.trans same)
    · exact .inr ⟨none, same'.trans added, names, isPrefix, leads.mono h'.keeps⟩
  · rcases h loc with same | ⟨-, added, -⟩
    · exact .inr ⟨same ▸ none', added', onWay'⟩
    · rw [added] at none'
      cases none'

/-- New directories are no links. -/
lemma AddsDirectories.noLinks (h : AddsDirectories p t u) {dir : Location}
    (noLinks : ∀ l target, dir <+: l → t.get? l ≠ some (.link target)) :
    ∀ l target, dir <+: l → u.get? l ≠ some (.link target) := by
  intro l target inside
  rcases h l with same | ⟨-, added, -⟩
  · rw [same]
    exact noLinks l target inside
  · rw [added]
    simp

/-- Nothing stands below a location that has no entry. -/
lemma WellFormed.get?_below (wf : t.WellFormed) (hloc : loc ≠ []) (missing : t.get? loc = none)
    {l : Location} (below : loc <+: l) : t.get? l = none := by
  by_contra found
  obtain ⟨e, entry⟩ := Option.ne_none_iff_exists'.mp found
  have nonempty : l ≠ [] := by
    rintro rfl
    exact hloc (List.prefix_nil.mp below)
  have mem : (l, e) ∈ t.under [] := mem_under_iff.mpr ⟨nonempty, entry⟩
  by_cases same : loc = l
  · rw [same, entry] at missing
    cases missing
  · have directory := (wf.tidy_under []).directory_of_isPrefix mem below hloc same
    rw [List.nil_append, missing] at directory
    cases directory

/-- On the way of a path that never goes up, no directory is made inside a directory that the path
does not lead into. -/
lemma AddsDirectories.under_eq (h : AddsDirectories p t u) (wf : t.WellFormed) {S D : Location}
    (leads : Leads u maxLinks (startOf workingDirectory p) (Path.names p) D)
    (down : ".." ∉ Path.names p) (notInside : ¬ S <+: D) : u.under S = t.under S := by
  refine under_congr fun rel nonempty => ?_
  rcases h (S ++ rel) with same | ⟨missing, -, names, ⟨rest, cut⟩, leads'⟩
  · exact same
  · exfalso
    have empty : ∀ l target, S ++ rel <+: l → t.get? l ≠ some (.link target) := by
      intro l target below
      rw [wf.get?_below (by simp [nonempty]) missing below]
      simp
    rw [← cut] at leads down
    obtain ⟨left, -, onward⟩ := leads'.of_append leads
    have inside := onward.prefix_of_noLinks (fun mem => down (List.mem_append_right names mem))
      (h.noLinks empty)
    exact notInside ((List.prefix_append S rel).trans inside)

/-- A directory can be created where a path names a missing entry. -/
lemma createDirectory_eq_ok_iff :
    t.createDirectory p = .ok u ↔
      ∃ loc, Names t p loc ∧ t.get? loc = none ∧ u = t.insert loc .directory := by
  unfold createDirectory
  rw [bind_eq_ok_iff]
  constructor
  · rintro ⟨loc, targeted, h⟩
    cases entry : t.get? loc with
    | some e =>
      rw [entry] at h
      cases h
    | none =>
      rw [entry] at h
      exact ⟨loc, target_eq_ok_iff.mp targeted, entry, (Except.ok.inj h).symm⟩
  · rintro ⟨loc, names, entry, rfl⟩
    refine ⟨loc, target_eq_ok_iff.mpr names, ?_⟩
    rw [entry]
    rfl

/-- The path of a new directory leads to it. -/
lemma leads_insert_directory (names : Names t p loc) (missing : t.get? loc = none) :
    Leads (t.insert loc .directory) maxLinks (startOf workingDirectory p) (Path.names p) loc := by
  obtain ⟨-, above, name, dir, cut, leads, isName, rfl⟩ := names
  have keeps : Keeps t (t.insert (dir ++ [name]) .directory) := keeps_insert missing
  rw [cut]
  exact (leads.mono keeps).concat isName (by rw [Table.get?_insert, if_pos rfl])

/-- Creating a directory on the way of a path adds a directory. -/
lemma addsDirectories_createDirectory (isPrefix : Path.names q <+: Path.names p)
    (start : Path.isAbsolute q = Path.isAbsolute p) (h : t.createDirectory q = .ok u) :
    AddsDirectories p t u := by
  obtain ⟨loc, names, missing, rfl⟩ := createDirectory_eq_ok_iff.mp h
  intro l
  by_cases same : l = loc
  · subst same
    have leads := leads_insert_directory names missing
    have starts : startOf workingDirectory q = startOf workingDirectory p := by
      rw [startOf, startOf, start]
    rw [starts] at leads
    exact .inr ⟨missing, by rw [Table.get?_insert, if_pos rfl], Path.names q, isPrefix, leads⟩
  · exact .inl (by rw [Table.get?_insert, if_neg same])

end FileTree

namespace Files

open FileTree

/-! ### One directory -/

/-- Creates a directory that may exist already. -/
def attempt (p : String) : Files FileError Unit := do
  try update (·.createDirectory p)
  catch e => unless (← get).isDirectory p do throw e

/-- A directory is created unless it exists. -/
lemma runOn_attempt (p : String) (t : FileTree) :
    runOn (attempt p) t =
      match t.createDirectory p with
      | .ok u => (.ok (), u)
      | .error e => if t.isDirectory p then (.ok (), t) else (.error e, t) := by
  unfold attempt
  rw [runOn_tryCatch, runOn_update]
  cases t.createDirectory p with
  | ok u => rfl
  | error e =>
    change runOn (get >>= fun s : FileTree => unless s.isDirectory p do throw e) t = _
    rw [runOn_get_bind]
    by_cases exists_ : t.isDirectory p = true
    · simp [exists_]
    · simp [exists_]

/-- The parents of a directory are made when one of them is lacking. -/
lemma runOn_makeDirectory (p : String) (parents : Files FileError Unit) (t : FileTree) :
    runOn (makeDirectory p parents) t =
      if t.createDirectory p = .error .notFound then runOn (do parents; attempt p) t
      else runOn (attempt p) t := by
  unfold makeDirectory
  rw [runOn_get_bind]
  split
  · next missing => rw [if_pos missing]; rfl
  · next other => rw [if_neg other]; rfl

/-- A directory that is made leads to itself; the tree is as before when it existed. -/
lemma isDirectory_of_runOn_attempt (h : runOn (attempt p) t = (.ok (), u)) :
    u.isDirectory p = true := by
  rw [runOn_attempt] at h
  cases created : t.createDirectory p with
  | ok w =>
    rw [created] at h
    cases h
    obtain ⟨loc, names, missing, rfl⟩ := createDirectory_eq_ok_iff.mp created
    exact isDirectory_iff.mpr ⟨names.1, loc, leads_insert_directory names missing⟩
  | error e =>
    rw [created] at h
    dsimp only at h
    split at h
    · next exists_ =>
      cases h
      exact exists_
    · cases h

/-! ### What making directories keeps -/

variable {P : FileTree → Prop}

/-- Creating a directory that may exist already keeps what creating it keeps. -/
lemma preserves_attempt (created : ∀ t u, t.createDirectory p = .ok u → P t → P u) :
    Preserves P (attempt p) := by
  intro t h
  rw [runOn_attempt]
  cases made : t.createDirectory p with
  | ok u => exact created t u made h
  | error e =>
    dsimp only
    split
    · exact h
    · exact h

/-- Making a directory keeps what making its parents and creating it keep. -/
lemma preserves_makeDirectory {parents : Files FileError Unit} (above : Preserves P parents)
    (created : ∀ t u, t.createDirectory p = .ok u → P t → P u) :
    Preserves P (makeDirectory p parents) := by
  intro t h
  rw [runOn_makeDirectory]
  split
  · exact above.bind (fun _ => preserves_attempt created) t h
  · exact preserves_attempt created t h

/-- Making a directory with the parents that it lacks keeps what creating a directory on its way
keeps. -/
theorem preserves_makeDirectories (created : ∀ q t u, Path.names q <+: Path.names p →
    Path.isAbsolute q = Path.isAbsolute p → t.createDirectory q = .ok u → P t → P u) :
    Preserves P (makeDirectories p) := by
  unfold makeDirectories
  split
  · exact .pure ()
  · next nonempty =>
    have hp : p ≠ "" := by simpa using nonempty
    have upwards : ∀ pieces, pieces <:+ Path.piecesUp p →
        Preserves P (makeUpwards (Path.isAbsolute p) pieces) := by
      intro pieces h
      induction pieces with
      | nil => exact .pure ()
      | cons piece up ih =>
        have above := ih ((List.suffix_cons piece up).trans h)
        unfold makeUpwards
        split
        · exact above
        · exact preserves_makeDirectory above fun t u =>
            created _ t u (Path.names_ofPiecesUp_prefix h _)
              (Path.isAbsolute_ofPiecesUp h (by simp) hp)
    exact preserves_makeDirectory (upwards _ (Path.above?_suffix p)) fun t u =>
      created p t u (List.prefix_refl _) rfl

/-! ### A directory and its parents -/

/-- Making a directory with the parents that it lacks adds directories on its way, also when it
fails, and nothing else. -/
theorem addsDirectories_makeDirectories (p : String) (t : FileTree) :
    AddsDirectories p t (runOn (makeDirectories p) t).2 := by
  have kept : Preserves (AddsDirectories p t) (makeDirectories p) :=
    preserves_makeDirectories fun q s u isPrefix start created added =>
      added.trans (addsDirectories_createDirectory isPrefix start created)
  exact kept t (.refl p t)

/-- A directory that could be made is there. -/
lemma isDirectory_of_runOn_makeDirectories (hp : p ≠ "")
    (h : runOn (makeDirectories p) t = (.ok (), u)) : u.isDirectory p = true := by
  unfold makeDirectories at h
  rw [if_neg (by simpa using hp), runOn_makeDirectory] at h
  split at h
  · rw [runOn_bind] at h
    split at h
    · exact isDirectory_of_runOn_attempt h
    · cases h
  · exact isDirectory_of_runOn_attempt h

/-- Where the directory of a path exists, creating a directory there does not lack a parent. -/
lemma createDirectory_ne_notFound {above : List String} {name : String} {dir : Location}
    (hp : p ≠ "") (cut : Path.names p = above ++ [name])
    (leads : Leads t maxLinks (startOf workingDirectory p) above dir) :
    t.createDirectory p ≠ .error .notFound := by
  intro missing
  have targeted : t.target .alreadyExists p = .error .notFound := by
    unfold createDirectory at missing
    cases targeted : t.target .alreadyExists p with
    | error e =>
      rw [targeted] at missing
      cases missing
      rfl
    | ok loc =>
      rw [targeted] at missing
      simp only [bind, Except.bind] at missing
      split at missing
      · cases missing
      · cases missing
  unfold target at targeted
  rw [cut, List.getLast?_concat, List.dropLast_concat, directoryAt_eq_ok_iff.mpr leads] at targeted
  unfold checkPath at targeted
  rw [if_neg (by simpa using hp)] at targeted
  split at targeted
  · cases targeted
  · split at targeted
    · cases targeted
    · simp only [bind, Except.bind] at targeted
      split at targeted
      · cases targeted
      · split at targeted
        · cases targeted
        · cases targeted

/-- Only one directory is made when its parent exists. -/
lemma runOn_makeDirectories_of_leads {above : List String} {name : String} {dir : Location}
    (hp : p ≠ "") (cut : Path.names p = above ++ [name])
    (leads : Leads t maxLinks (startOf workingDirectory p) above dir) :
    runOn (makeDirectories p) t = runOn (attempt p) t := by
  unfold makeDirectories
  rw [if_neg (by simpa using hp), runOn_makeDirectory,
    if_neg (createDirectory_ne_notFound hp cut leads)]

end Files

end Stencil
