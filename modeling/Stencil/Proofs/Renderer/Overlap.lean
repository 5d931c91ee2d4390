import Stencil.Proofs.Renderer.OwnOutput
import Mathlib.Data.List.Infix

/-!
# Rendering a directory into or around itself

When a directory is rendered into a place inside of it, or one that it lies in, the visit may come
to its own output.  It comes to exactly what stood there at the start if it finds no file or
directory of its own in a directory that it reaches later (`renderDirectory_visits`).  Where the
counterparts are known, this can be told from the tree at the start (`Clear`).
-/

namespace Stencil.Renderer

open FileTree

variable {names : Namespace} {source dest : String} {t u w left : FileTree} {S D : Location}
  {rel : Location} {cs : List (String × Entry)} {earlier log root : List Visited} {v : Visited}
  {loc : Location} {path : List String}

/-! ### Where a visit makes something -/

/-- The names lead to a directory from where the path `dest` starts. -/
abbrev LeadsFrom (t : FileTree) (dest : String) (path : List String) (dir : Location) : Prop :=
  Leads t maxLinks (startOf workingDirectory dest) path dir

/-- Dealing with the entry made its counterpart and nothing else: that of a directory with the
directories on its way, or that of a file in its directory. -/
structure Aimed (dest : String) (v : Visited) : Prop where
  sound : v.before.Sound ∧ v.after.Sound
  directory : v.entry = .directory →
    (∃ dir, LeadsFrom v.after dest (Path.names dest ++ v.rel) dir) ∧
    ∀ loc, v.Changes loc →
      ∃ path, path <+: Path.names dest ++ v.rel ∧ LeadsFrom v.after dest path loc
  file : ∀ content mode, v.entry = .file content mode → ∃ up name dir out mode',
    v.rel = up ++ [name] ∧ LeadsFrom v.before dest (Path.names dest ++ up) dir ∧
      v.after = v.before.insert (dir ++ [name]) (.file out mode')
  link : ∀ target, v.entry = .link target → v.after = v.before

/-- The counterpart of a directory is made with the directories on its way. -/
lemma aimed_of_prepare {p : String} (sound : t.Sound)
    (sameNames : Path.names p = Path.names dest ++ rel)
    (sameStart : startOf workingDirectory p = startOf workingDirectory dest)
    (prepared : (prepare p).runOn t = (.ok (), u))
    (reached : ∃ dir, Leads u maxLinks (startOf workingDirectory p) (Path.names p) dir) :
    Aimed dest ⟨rel, .directory, t, u⟩ := by
  refine ⟨⟨sound, (preserves_sound_prepare p).of_runOn sound prepared⟩, fun _ => ⟨?_, ?_⟩, nofun,
    nofun⟩
  · rwa [sameNames, sameStart] at reached
  · intro loc changes
    rcases addsDirectories_of_prepare prepared loc with same | ⟨-, -, path, isPrefix, leads⟩
    · exact absurd same changes
    · rw [sameNames] at isPrefix
      rw [sameStart] at leads
      exact ⟨path, isPrefix, leads⟩

/-- The counterpart of the visited directory is the destination. -/
lemma aimed_root (sound : t.Sound)
    (prepared : (prepare (Path.join dest "")).runOn t = (.ok (), u)) :
    Aimed dest ⟨[], .directory, t, u⟩ := by
  have sameNames : Path.names (Path.join dest "") = Path.names dest ++ [] :=
    Path.names_join rfl
  have sameStart : startOf workingDirectory (Path.join dest "") =
      startOf workingDirectory dest := by
    rw [startOf, startOf, Path.isAbsolute_join rfl]
  refine aimed_of_prepare sound sameNames sameStart prepared ?_
  rw [sameNames, sameStart, List.append_nil]
  exact exists_leads_of_prepare prepared

/-- The counterpart of a directory that is visited is below the destination. -/
lemma aimed_directory {name : String} (sound : t.Sound) (areNames : AreNames (rel ++ [name]))
    (prepared : (prepare (Path.below dest (rel ++ [name]))).runOn t = (.ok (), u)) :
    Aimed dest ⟨rel ++ [name], .directory, t, u⟩ :=
  aimed_of_prepare sound (Path.names_below dest fun n hn => (areNames n hn).1)
    (startOf_below areNames _ dest) prepared
    (leads_of_prepare (Path.below_ne_empty dest (by simp) fun n hn => (areNames n hn).1) prepared)

/-- The counterpart of a file that is visited is below the destination. -/
lemma aimed_file {name : String} (content : Content) (mode : Mode) (sound : t.Sound)
    (areNames : AreNames (rel ++ [name]))
    (copied : (copyFilled names (Path.below source (rel ++ [name]))
      (Path.below dest (rel ++ [name]))).runOn t = (.ok (), u)) :
    Aimed dest ⟨rel ++ [name], .file content mode, t, u⟩ := by
  refine ⟨⟨sound, (preserves_sound_copyFilled names _ _).of_runOn sound copied⟩, nofun, ?_,
    nofun⟩
  intro _ _ _
  obtain ⟨loc, out, mode', _, -, -, replaceable, rfl⟩ := runOn_copyFilled_eq_ok_iff.mp copied
  obtain ⟨⟨-, above, last, dir, cut, leads, -, rfl⟩, -⟩ := replaceable_iff.mp replaceable
  rw [names_below_append areNames] at cut
  obtain ⟨rfl, last'⟩ := List.append_inj' cut rfl
  cases last'
  rw [startOf_below areNames] at leads
  exact ⟨rel, name, dir, _, mode', rfl, leads, rfl⟩

/-- Everything that a visit deals with gets its counterpart. -/
lemma Visits.aimed (visits : Visits names source dest t rel cs log left) (sound : t.Sound)
    (areNames : ∀ c ∈ cs, AreNames (rel ++ [c.1])) : left.Sound ∧ ∀ v ∈ log, Aimed dest v := by
  induction visits with
  | nil => exact ⟨sound, by simp⟩
  | link _ ih =>
    obtain ⟨sound', later⟩ := ih sound fun c mem => areNames c (List.mem_cons_of_mem _ mem)
    exact ⟨sound', List.forall_mem_cons.mpr ⟨⟨⟨sound, sound⟩, nofun, nofun, fun _ _ => rfl⟩, later⟩⟩
  | @file _ _ _ _ content mode _ _ _ copied _ ih =>
    have first := aimed_file content mode sound (areNames _ List.mem_cons_self) copied
    obtain ⟨sound', later⟩ := ih first.sound.2 fun c mem => areNames c (List.mem_cons_of_mem _ mem)
    exact ⟨sound', List.forall_mem_cons.mpr ⟨first, later⟩⟩
  | directory listed prepared _ _ ihInner ih =>
    have here := areNames _ List.mem_cons_self
    have first := aimed_directory sound here prepared
    obtain ⟨dir, -, rfl⟩ := list_eq_ok_iff.mp listed
    obtain ⟨sound', inner⟩ := ihInner first.sound.2
      fun c mem => areNames_of_mem_children sound.wellFormed here mem
    obtain ⟨sound'', later⟩ := ih sound' fun c mem => areNames c (List.mem_cons_of_mem _ mem)
    refine ⟨sound'', List.forall_mem_cons.mpr ⟨first, fun v mem => ?_⟩⟩
    exact (List.mem_append.mp mem).elim (inner v) (later v)

/-! ### Where counterparts are -/

/-- The destination leads to the directory `D` in the end, and at the start no link stands where the
counterparts of directories are to be. -/
structure Target (t left : FileTree) (dest : String) (S D : Location) : Prop where
  leads : LeadsFrom left dest (Path.names dest) D
  noLink : ∀ rel, (rel, Entry.directory) ∈ t.under S →
    ∀ target, t.get? (D ++ rel) ≠ some (.link target)

lemma Leading.isStart_dropLast (leading : Leading t source S) {up : Location} {name : String}
    {e : Entry} (mem : (up ++ [name], e) ∈ t.under S) : IsStart t S up := by
  have above := leading.tidy.parent _ mem
  rwa [List.dropLast_concat] at above

/-- What stood there at the start stood in a directory. -/
lemma Leading.isStart_of_stood (leading : Leading t source S) (stood : Stood t S v) {up : Location}
    {name : String} (rel : v.rel = up ++ [name]) : IsStart t S up := by
  rcases stood with none | found
  · rw [rel] at none
    simp at none
  · obtain ⟨e, entry, -⟩ := Option.map_eq_some_iff.mp found
    exact leading.isStart_dropLast (mem_under_iff.mpr ⟨by simp, rel ▸ entry⟩)

/-- The path of the counterpart of a directory leads to `D` and on by the names of the directory, if
it leads anywhere. -/
lemma Target.eq_append (aim : Target t left dest S D) (leading : Leading t source S)
    (retains : Retains t u) (retains' : Retains u left) (start : IsStart t S rel) {dir : Location}
    (leads : LeadsFrom u dest (Path.names dest ++ rel) dir) : dir = D ++ rel := by
  induction rel using List.reverseRecOn generalizing dir with
  | nil =>
    rw [List.append_nil] at leads ⊢
    exact leads.agree retains' aim.leads
  | append_singleton up name ih =>
    have mem : (up ++ [name], Entry.directory) ∈ t.under S := by
      rcases start with none | mem
      · simp at none
      · exact mem
    have isName : IsEntryName name := (leading.tidy.isName _ mem name (by simp)).2
    rw [← List.append_assoc] at leads
    obtain ⟨dir', above⟩ := leads.of_isPrefix (List.prefix_append _ _)
    obtain rfl := ih (leading.isStart_dropLast mem) above
    obtain ⟨links, -, last⟩ := above.of_append leads
    cases last with
    | dot => exact absurd rfl isName.ne_dot
    | up => exact absurd rfl isName.ne_up
    | enter _ _ onward =>
      cases onward
      rw [List.append_assoc]
    | jump _ linked =>
      rw [List.append_assoc] at linked
      exact absurd (retains.link linked) (aim.noLink _ mem _)

/-! ### The tour of a directory -/

/-- What is known of a log when the source path leads to the directory `S`. -/
structure Tour (t : FileTree) (source dest : String) (S : Location) (root log : List Visited)
    (left : FileTree) : Prop where
  leading : Leading t source S
  chain : Chain t (root ++ log) left
  aimed : ∀ v ∈ root ++ log, Aimed dest v
  ascending : (root ++ log).Pairwise fun v w => v.rel < w.rel
  isRoot : ∀ v ∈ root, v.rel = [] ∧ v.entry = .directory
  isInside : ∀ v ∈ log, v.rel ≠ []
  complete : ∀ rel e, (rel, e) ∈ t.under S →
    ∃ v ∈ log, v.rel = rel ∧ (e.kind ≠ .link → v.entry.kind = e.kind)
  outcome : Spared t S root log (t.under S) ∨ Spoiled t S root log

/-- What a visit comes to is inside of the visited directory. -/
lemma Visits.rel_ne_nil (visits : Visits names source dest u [] cs log left) (mem : v ∈ log) :
    v.rel ≠ [] := by
  intro none
  obtain ⟨c, -, isPrefix⟩ := visits.isPrefix mem
  rw [none] at isPrefix
  simp at isPrefix

/-- A visit comes to everything that stood in the visited directory. -/
lemma Visits.complete (visits : Visits names source dest u [] (t.children S) log left)
    (leading : Leading t source S) (retains : Retains t u) {e : Entry}
    (mem : (rel, e) ∈ t.under S) :
    ∃ v ∈ log, v.rel = rel ∧ (e.kind ≠ .link → v.entry.kind = e.kind) := by
  obtain ⟨nonempty, entry⟩ := mem_under_iff.mp mem
  obtain ⟨name, below, rfl⟩ := List.exists_cons_of_ne_nil nonempty
  obtain ⟨e', held⟩ : ∃ e', t.get? (S ++ [name]) = some e' := by
    by_cases last : below = []
    · exact ⟨e, last ▸ entry⟩
    · exact ⟨_, leading.directory_above (by simp) last entry⟩
  have same : Matches t S [] (t.children S) := by
    have all := matches_children (.refl t) S []
    rwa [List.append_nil] at all
  exact visits.exists_of_start leading retains same (mem_children_iff.mpr held) entry

/-- The log of a visit is that of a tour. -/
lemma tour_of_visits (sound : t.Sound) (found : t.lookUp true source = .ok (S, .directory))
    (isRoot : ∀ v ∈ root, v.rel = [] ∧ v.entry = .directory) (aimed : ∀ v ∈ root, Aimed dest v)
    (few : root.Pairwise fun _ _ => False) (chain : Chain t root u) (sound' : u.Sound)
    (visits : Visits names source dest u [] (t.children S) log left) :
    Tour t source dest S root log left := by
  have leading : Leading t source S :=
    ⟨(leads_of_resolve (lookUp_eq_ok_iff.mp found)).2, sound.wellFormed.tidy_under S⟩
  have noNames : AreNames [] := by simp [AreNames]
  have first : ∀ l : Location, l ≠ [] → [] < l := fun l nonempty =>
    lt_of_isPrefix List.nil_prefix nonempty.symm
  have state : Underway t S [] root (t.children S) u := by
    refine ⟨chain, fun v mem => .inl (isRoot v mem).1, few.imp False.elim, fun v mem c _ => ?_,
      pairwise_children t S, fun c mem => kindAt_of_get? (mem_children_iff.mp mem)⟩
    rw [(isRoot v mem).1]
    exact first _ (by simp)
  refine ⟨leading, chain_append_iff.mpr ⟨u, chain, visits.chain⟩, fun v mem => ?_, ?_, isRoot,
    fun v mem => visits.rel_ne_nil mem,
    fun rel e mem => visits.complete leading chain.retains mem, ?_⟩
  · refine (List.mem_append.mp mem).elim (aimed v) ?_
    exact (visits.aimed sound' fun c mem =>
      areNames_of_mem_children sound.wellFormed noNames mem).2 v
  · refine List.pairwise_append.mpr
      ⟨few.imp False.elim, visits.pairwise (pairwise_children t S), ?_⟩
    intro v mem w mem'
    rw [(isRoot v mem).1]
    exact first _ (visits.rel_ne_nil mem')
  · have outcome := visits.spared_or_spoiled leading (.inl rfl) state
    have whole := listing_eq_flatMap leading.tidy []
    rw [listing_nil, List.append_nil] at whole
    rwa [← whole] at outcome

/-- Rendering a directory is a tour of it. -/
lemma Walks.tour (walks : Walks names source dest t root log left) (sound : t.Sound)
    (found : t.lookUp true source = .ok (S, .directory)) :
    Tour t source dest S root log left := by
  cases walks with
  | @directory S' u _ _ found' prepared visits =>
    rw [lookUp_true_of_directory found'] at found
    cases found
    have aimed := aimed_root sound prepared
    exact tour_of_visits sound (lookUp_true_of_directory found') (by simp) (by simpa using aimed)
      (List.pairwise_singleton _ _) ⟨rfl, retains_of_prepare prepared, rfl⟩ aimed.sound.2 visits
  | link _ found' visits =>
    rw [found'] at found
    cases found
    exact tour_of_visits sound found' (by simp) (by simp) .nil rfl sound visits
  | other _ found' notDirectory =>
    rw [found'] at found
    cases found
    exact absurd rfl notDirectory

/-! ### Telling it from the tree at the start -/

/-- The names of what gets a counterpart: the visited directory itself, unless it is visited through
a link, and the files and directories that it holds at the start. -/
def mirrored (t : FileTree) (S : Location) (root : List Visited) : List Location :=
  root.map Visited.rel ++ (t.contents S).map Prod.fst

/-- Whatever lies on the way to the destination or is the counterpart of something that comes before
a directory, and stands in that directory, was a file or a directory at the start. -/
def Clear (t left : FileTree) (dest : String) (S D : Location) (mirrored : List Location) : Prop :=
  ∀ d, (d, Entry.directory) ∈ t.under S → ∀ q ∈ mirrored, q < d → ∀ name,
    left.OnWay dest (S ++ (d ++ [name])) ∨ S ++ (d ++ [name]) = D ++ q →
    t.Stands (S ++ (d ++ [name]))

/-- A directory of a tour that stood there at the start. -/
lemma Stood.mem_under (stood : Stood t S v) (nonempty : v.rel ≠ [])
    (directory : v.entry = .directory) :
    (v.rel, Entry.directory) ∈ t.under S := by
  obtain ⟨e, entry, kind⟩ := Option.map_eq_some_iff.mp (stood.resolve_left nonempty)
  rw [directory] at kind
  rw [kind_eq_directory_iff.mp kind] at entry
  exact mem_under_iff.mpr ⟨nonempty, entry⟩

/-- What stood there at the start and is no link gets a counterpart. -/
lemma Tour.mem_mirrored (tour : Tour t source dest S root log left) (mem : v ∈ root ++ log)
    (stood : Stood t S v) (notLink : v.entry.kind ≠ .link) : v.rel ∈ mirrored t S root := by
  unfold mirrored
  rcases List.mem_append.mp mem with isRoot | inside
  · exact List.mem_append_left _ (List.mem_map_of_mem isRoot)
  · have nonempty := tour.isInside v inside
    obtain ⟨e, entry, kind⟩ := Option.map_eq_some_iff.mp (stood.resolve_left nonempty)
    have isContent : (v.rel, e) ∈ t.contents S :=
      mem_contents_iff.mpr
        ⟨mem_under_iff.mpr ⟨nonempty, entry⟩, kind_ne_link_iff.mp (kind ▸ notLink)⟩
    exact List.mem_append_right _ (List.mem_map.mpr ⟨_, isContent, rfl⟩)

/-- Of the names of a path and more names, the first ones are among the names or are all of them and
some more. -/
lemma isPrefix_append_cases {path path' : List String} (h : path <+: path' ++ rel) :
    path <+: path' ∨ ∃ q, q ≠ [] ∧ q <+: rel ∧ path = path' ++ q := by
  rcases List.prefix_or_prefix_of_prefix h (List.prefix_append path' rel) with shorter | ⟨q, rfl⟩
  · exact .inl shorter
  · by_cases none : q = []
    · subst none
      exact .inl (by simp)
    · exact .inr ⟨q, none, (List.prefix_append_right_inj path').mp h, rfl⟩

/-- The first names of the destination lead to the same place all the time. -/
lemma Target.onWay (aim : Target t left dest S D) (retains : Retains u left)
    (isPrefix : path <+: Path.names dest) (leads : LeadsFrom u dest path loc) :
    left.OnWay dest loc := by
  obtain ⟨loc', leads'⟩ := aim.leads.of_isPrefix isPrefix
  obtain rfl := leads.agree retains leads'
  exact ⟨path, isPrefix, leads'⟩

/-- What has changed lies on the way to the destination or is the counterpart of something that
stood at or above an entry. -/
lemma Tour.exists_mirrored (tour : Tour t source dest S root log left)
    (aim : Target t left dest S D) (mem : v ∈ root ++ log) (stood : Stood t S v)
    (changes : v.Changes loc) : ∃ q ∈ mirrored t S root, (q = v.rel ∨ q < v.rel) ∧
      (left.OnWay dest loc ∨ loc = D ++ q) := by
  obtain ⟨retains, retains', retains''⟩ := tour.chain.retains_of_mem mem
  have aimed := tour.aimed v mem
  cases entry : v.entry with
  | link target => exact absurd (congrArg (Table.get? · loc) (aimed.link target entry)) changes
  | file content mode =>
    have isMirrored := tour.mem_mirrored mem stood (by rw [entry]; simp [Entry.kind])
    obtain ⟨up, name, dir, out, mode', rel, leads, after⟩ := aimed.file content mode entry
    obtain rfl := aim.eq_append tour.leading retains (retains'.trans retains'')
      (tour.leading.isStart_of_stood stood rel) leads
    refine ⟨v.rel, isMirrored, .inl rfl, .inr ?_⟩
    by_contra other
    refine changes ?_
    rw [rel, ← List.append_assoc] at other
    rw [after, Table.get?_insert, if_neg other]
  | directory =>
    have isMirrored := tour.mem_mirrored mem stood (by rw [entry]; simp [Entry.kind])
    obtain ⟨-, made⟩ := aimed.directory entry
    obtain ⟨path, isPrefix, leads⟩ := made loc changes
    rcases isPrefix_append_cases isPrefix with shorter | ⟨q, nonempty, isPrefix', rfl⟩
    · exact ⟨v.rel, isMirrored, .inl rfl, .inl (aim.onWay retains'' shorter leads)⟩
    · have notRoot : v.rel ≠ [] := by
        intro none
        rw [none] at isPrefix'
        exact nonempty (List.prefix_nil.mp isPrefix')
      have start : (q, Entry.directory) ∈ t.under S :=
        tour.leading.mem_of_isPrefix (stood.mem_under notRoot entry) isPrefix' nonempty
      obtain rfl := aim.eq_append tour.leading (retains.trans retains') retains'' (.inr start) leads
      refine ⟨q, ?_, ?_, .inr rfl⟩
      · exact List.mem_append_right _
          (List.mem_map.mpr ⟨_, mem_contents_iff.mpr ⟨start, by simp⟩, rfl⟩)
      · by_cases same : q = v.rel
        · exact .inl same
        · exact .inr (lt_of_isPrefix isPrefix' same)

/-- A tour that does not spare all directories is not clear. -/
lemma Tour.not_clear (tour : Tour t source dest S root log left) (aim : Target t left dest S D)
    (spoiled : Spoiled t S root log) : ¬ Clear t left dest S D (mirrored t S root) := by
  intro clear
  obtain ⟨v, mem, stood, d, start, lower, name, changes, missing⟩ := spoiled.spoils
  obtain ⟨q, isMirrored, position, place⟩ := tour.exists_mirrored aim mem stood changes
  refine missing (clear d start q isMirrored ?_ name place)
  rcases position with rfl | above
  · exact lower
  · exact KeyOrder.lt_trans above lower

/-- What gets a counterpart is visited. -/
lemma Tour.exists_of_mem_mirrored (tour : Tour t source dest S root log left) {q : Location}
    (isMirrored : q ∈ mirrored t S root) :
    ∃ v ∈ root ++ log, v.rel = q ∧ Stood t S v ∧ v.entry.kind ≠ .link := by
  rcases List.mem_append.mp isMirrored with isRoot | inside
  · obtain ⟨v, mem, rfl⟩ := List.mem_map.mp isRoot
    obtain ⟨none, directory⟩ := tour.isRoot v mem
    exact ⟨v, List.mem_append_left _ mem, rfl, .inl none, by simp [directory, Entry.kind]⟩
  · obtain ⟨⟨q, e⟩, mem, rfl⟩ := List.mem_map.mp inside
    obtain ⟨mem, notLink⟩ := mem_contents_iff.mp mem
    have kind : e.kind ≠ .link := kind_ne_link_iff.mpr notLink
    obtain ⟨v, mem', rfl, same⟩ := tour.complete q e mem
    refine ⟨v, List.mem_append_right _ mem', rfl, .inr ?_, same kind ▸ kind⟩
    rw [kindAt_of_get? (mem_under_iff.mp mem).2, same kind]

/-- Where names lead, other than to the root, stands a directory. -/
lemma stands_of_leads (sound : t.Sound) (leads : LeadsFrom t dest path loc) (notRoot : loc ≠ []) :
    t.Stands loc := by
  have directory := leads.hasDirectory sound.wellFormed (sound.hasDirectory_startOf dest)
  exact ⟨.directory, directory.resolve_left notRoot, by simp [Entry.kind]⟩

/-- When an entry has been dealt with, its counterpart and the way to it are there. -/
lemma Tour.stands (tour : Tour t source dest S root log left) (aim : Target t left dest S D)
    (mem : v ∈ root ++ log) (stood : Stood t S v) (notLink : v.entry.kind ≠ .link)
    (notRoot : loc ≠ []) (place : left.OnWay dest loc ∨ loc = D ++ v.rel) : v.after.Stands loc := by
  obtain ⟨retains, retains', retains''⟩ := tour.chain.retains_of_mem mem
  have aimed := tour.aimed v mem
  cases entry : v.entry with
  | link target => exact absurd (by rw [entry]; rfl) notLink
  | file content mode =>
    obtain ⟨up, name, dir, out, mode', rel, leads, after⟩ := aimed.file content mode entry
    rcases place with ⟨path, isPrefix, leads'⟩ | rfl
    · obtain ⟨loc', onWay⟩ := leads.of_isPrefix (isPrefix.trans (List.prefix_append _ up))
      obtain rfl := onWay.agree (retains'.trans retains'') leads'
      exact retains'.stands (stands_of_leads aimed.sound.1 onWay notRoot)
    · obtain rfl := aim.eq_append tour.leading retains (retains'.trans retains'')
        (tour.leading.isStart_of_stood stood rel) leads
      rw [List.append_assoc, ← rel] at after
      refine ⟨.file out mode', ?_, by simp [Entry.kind]⟩
      rw [after, Table.get?_insert, if_pos rfl]
  | directory =>
    obtain ⟨⟨dir, leads⟩, -⟩ := aimed.directory entry
    rcases place with ⟨path, isPrefix, leads'⟩ | rfl
    · obtain ⟨loc', onWay⟩ := leads.of_isPrefix (isPrefix.trans (List.prefix_append _ v.rel))
      obtain rfl := onWay.agree retains'' leads'
      exact stands_of_leads aimed.sound.2 onWay notRoot
    · have start : IsStart t S v.rel := by
        by_cases none : v.rel = []
        · exact .inl none
        · exact .inr (stood.mem_under none entry)
      obtain rfl := aim.eq_append tour.leading (retains.trans retains') retains'' start leads
      exact stands_of_leads aimed.sound.2 leads notRoot

/-- What has lower names than another entry of a tour was dealt with before. -/
lemma exists_split_of_lt {w : Visited} (ascending : log.Pairwise fun v w => v.rel < w.rel)
    (mem : v ∈ log) (mem' : w ∈ log) (lower : v.rel < w.rel) :
    ∃ before between after, log = before ++ v :: between ++ w :: after := by
  obtain ⟨first, after, rfl⟩ := List.append_of_mem mem'
  obtain ⟨-, above, -⟩ := List.pairwise_append.mp ascending
  rcases List.mem_append.mp mem with earlier | later
  · obtain ⟨before, between, rfl⟩ := List.append_of_mem earlier
    exact ⟨before, between, after, rfl⟩
  · rcases List.mem_cons.mp later with rfl | later
    · exact absurd lower (KeyOrder.lt_irrefl _)
    · exact absurd (KeyOrder.lt_trans lower ((List.pairwise_cons.mp above).1 v later))
        (KeyOrder.lt_irrefl _)

/-- A tour that spares all directories is clear. -/
lemma Tour.clear (tour : Tour t source dest S root log left) (aim : Target t left dest S D)
    (spares : (root ++ log).Pairwise (Spares t S)) :
    Clear t left dest S D (mirrored t S root) := by
  intro d start q isMirrored lower name place
  obtain ⟨v, mem, rfl, stood, notLink⟩ := tour.exists_of_mem_mirrored isMirrored
  obtain ⟨w, mem', rfl, directory⟩ := tour.complete d .directory start
  have isDirectory : w.entry = .directory :=
    kind_eq_directory_iff.mp (directory (by simp [Entry.kind]))
  have stands := tour.stands aim mem stood notLink (by simp) place
  -- The entry `v` has lower names than the directory `w`, so it was dealt with when `w` was listed.
  obtain ⟨before, between, after, cut⟩ :=
    exists_split_of_lt tour.ascending mem (List.mem_append_right root mem') lower
  have chain := tour.chain
  rw [cut, List.append_assoc] at chain
  obtain ⟨u, first, rfl, retains, -⟩ := chain_append_iff.mp chain
  have upTo : Chain t (before ++ [v]) v.after :=
    chain_append_iff.mpr ⟨_, first, rfl, retains, rfl⟩
  by_contra missing
  have changed : v.after.get? (S ++ (w.rel ++ [name])) ≠ t.get? (S ++ (w.rel ++ [name])) := by
    intro same
    obtain ⟨e, entry, kind⟩ := stands
    exact missing ⟨e, same ▸ entry, kind⟩
  obtain ⟨v', mem'', changes⟩ := upTo.exists_changes changed
  have isBefore : v' ∈ before ++ v :: between := by
    rcases List.mem_append.mp mem'' with inside | same
    · exact List.mem_append_left _ inside
    · rw [List.mem_singleton.mp same]
      exact List.mem_append_right _ List.mem_cons_self
  rw [cut] at spares
  exact missing ((List.pairwise_append.mp spares).2.2 v' isBefore w List.mem_cons_self
    isDirectory name changes)

/-- The way to the destination leads into no directory that stood in the visited one, and the
destination is not above the visited directory. -/
structure Outside (t left : FileTree) (dest : String) (S D : Location) : Prop where
  notInside : ∀ d, (d, Entry.directory) ∈ t.under S → ∀ loc, left.OnWay dest loc → ¬ S ++ d <+: loc
  notAbove : D <+: S → D = S

/-- Nothing is made in a directory that comes later when the destination is outside. -/
lemma Outside.clear (outside : Outside t left dest S D) (leading : Leading t source S)
    (aim : Target t left dest S D) (root : List Visited) :
    Clear t left dest S D (mirrored t S root) := by
  intro d start q _ lower name place
  exfalso
  rcases place with onWay | same
  · exact outside.notInside d start _ onWay ⟨[name], by simp⟩
  · have notSame : D ≠ S := by
      rintro rfl
      rw [← List.append_cancel_left same] at lower
      exact KeyOrder.lt_irrefl _
        (KeyOrder.lt_trans lower (lt_of_isPrefix (List.prefix_append d [name]) (by simp)))
    have inside : D <+: S ++ (d ++ [name]) := same ▸ List.prefix_append D q
    rcases List.prefix_or_prefix_of_prefix inside (List.prefix_append S _) with above | ⟨below, rfl⟩
    · exact notSame (outside.notAbove above)
    · rw [List.append_assoc] at same
      obtain ⟨first, d, rfl⟩ := List.exists_cons_of_ne_nil (mem_under_iff.mp start).1
      cases below with
      | nil => exact notSame (List.append_nil S)
      | cons first' below =>
        obtain ⟨rfl, -⟩ := List.cons.inj (List.append_cancel_left same)
        have above : ([first], Entry.directory) ∈ t.under S :=
          leading.mem_of_isPrefix start ⟨d, rfl⟩ (by simp)
        exact outside.notInside _ above _ ⟨_, List.prefix_refl _, aim.leads⟩ ⟨below, by simp⟩

/-! ### What is visited -/

/-- The paths of the files among some entries depend only on the kinds of these. -/
lemma written_eq_of_outline {entries entries' : List (Location × Entry)}
    (same : outline entries = outline entries') : written dest entries = written dest entries' := by
  have byKind : ∀ entries, written dest entries = (outline entries).filterMap fun p =>
      if p.2 = .file then some (Path.below dest p.1) else none := by
    intro entries
    unfold written outline
    rw [List.filterMap_map]
    congr 1
    funext ⟨rel, e⟩
    cases e <;> rfl
  rw [byKind, byKind, same]

/-- How deep directories nest does not matter to the visit of one, since the paths get too long
before the bound is met.  When rendering a directory succeeds, it has come to finitely many entries
in ascending order, and gives the paths of the files among them.  Everything that stood in the
directory at the start is among them.  They are exactly that, with the same kinds, if and only if
whatever was changed in a directory before this was reached was a file or a directory at the start;
otherwise something of the visit's own is among them.  Where the counterparts are known, it can be
told from the tree at the start which of both is the case. -/
theorem renderDirectory_visits (r : Renderer) (caller : Namespace) {source dest : String}
    {t : FileTree} (sound : t.Sound) :
    (∀ S u, t.lookUp true source = .ok (S, .directory) → u.Sound → ∀ more,
      (visit (r.names caller) dest (maxPath + more) source "" (t.children S)).runOn u =
        (visit (r.names caller) dest maxPath source "" (t.children S)).runOn u) ∧
    ∀ ws left, (r.renderDirectory caller source dest).runOn t = (.ok ws, left) →
    ∃ root log, Walks (r.names caller) source dest t root log left ∧
      ws = written dest (log.map Visited.named) ∧
      log.Pairwise (fun v w => v.rel < w.rel) ∧
      ((∀ S, t.lookUp true source ≠ .ok (S, .directory)) → log = [] ∧ left = t) ∧
      ∀ S, t.lookUp true source = .ok (S, .directory) →
        (∀ rel e, (rel, e) ∈ t.under S →
          ∃ v ∈ log, v.rel = rel ∧ (e.kind ≠ .link → v.entry.kind = e.kind)) ∧
        (outline (log.map Visited.named) = outline (t.under S) ↔
          (root ++ log).Pairwise (Spares t S)) ∧
        ((root ++ log).Pairwise (Spares t S) → ws = written dest (t.contents S)) ∧
        (¬ (root ++ log).Pairwise (Spares t S) →
          ∃ v ∈ log, t.kindAt (S ++ v.rel) ≠ some v.entry.kind) ∧
        ∀ D, Target t left dest S D →
          ((root ++ log).Pairwise (Spares t S) ↔ Clear t left dest S D (mirrored t S root)) ∧
          (Outside t left dest S D → (root ++ log).Pairwise (Spares t S)) := by
  refine ⟨fun S u found sound' more => runOn_visit_maxPath sound sound' found more,
    fun ws left ran => ?_⟩
  obtain ⟨root, log, walks, rfl⟩ := (runOn_renderDirectory_eq_ok_iff r caller sound).mp ran
  refine ⟨root, log, walks, rfl, ?_, fun noDirectory => ?_, fun S found => ?_⟩
  · cases walks with
    | directory _ _ visits => exact visits.pairwise (pairwise_children t _)
    | link _ _ visits => exact visits.pairwise (pairwise_children t _)
    | other => exact .nil
  · cases walks with
    | directory found => exact absurd (lookUp_true_of_directory found) (noDirectory _)
    | link _ found => exact absurd found (noDirectory _)
    | other => exact ⟨rfl, rfl⟩
  · have tour := walks.tour sound found
    refine ⟨tour.complete, ?_⟩
    rcases tour.outcome with ⟨same, -, spares⟩ | spoiled
    · refine ⟨iff_of_true same spares, fun _ => ?_, fun notSpares => absurd spares notSpares,
        fun D aim => ⟨iff_of_true spares (tour.clear aim spares), fun _ => spares⟩⟩
      rw [written_contents]
      exact written_eq_of_outline same
    · obtain ⟨v, mem, own⟩ := spoiled.own
      have differs : t.kindAt (S ++ v.rel) ≠ some v.entry.kind := fun stood => own (.inr stood)
      refine ⟨iff_of_false (fun same => ?_) spoiled.notSpares,
        fun spares => absurd spares spoiled.notSpares, fun _ => ⟨v, mem, differs⟩,
        fun D aim => ⟨iff_of_false spoiled.notSpares (tour.not_clear aim spoiled), fun outside =>
          absurd (outside.clear tour.leading aim root) (tour.not_clear aim spoiled)⟩⟩
      have listed : (v.rel, v.entry.kind) ∈ outline (log.map Visited.named) :=
        List.mem_map.mpr ⟨v.named, List.mem_map_of_mem mem, rfl⟩
      rw [same] at listed
      obtain ⟨⟨rel, e⟩, mem', isSame⟩ := List.mem_map.mp listed
      obtain ⟨rfl, kind⟩ := Prod.mk.inj isSame
      rw [kindAt_of_get? (mem_under_iff.mp mem').2] at differs
      exact differs (congrArg some kind)

/-- A directory `s` with a template and an empty directory in it. -/
def crowded : FileTree :=
  .ofList [(["home"], .directory), (["home", "templates"], .directory),
    (["home", "templates", "s"], .directory),
    (["home", "templates", "s", "a"], .file (.text "x") (.ofNat 0o644)),
    (["home", "templates", "s", "z"], .directory)]

/-- The tree that is left when the directory `s` is rendered into a new directory inside of it. -/
def crowdedWithOut : FileTree :=
  ((renderDirectory ⟨.empty, ""⟩ .empty "s" "s/out").runOn crowded).2

/-- A new directory right inside the rendered one is not visited. -/
theorem renderDirectory_visits_crowded :
    crowded.Sound ∧
    (renderDirectory ⟨.empty, ""⟩ .empty "s" "s/out").runOn crowded =
      (.ok ["s/out/a"], crowdedWithOut) ∧
    ∃ root log, Walks (Renderer.names ⟨.empty, ""⟩ .empty) "s" "s/out" crowded root log
        crowdedWithOut ∧
      outline (log.map Visited.named) = outline (crowded.under ["home", "templates", "s"]) := by
  have sound : crowded.Sound := ⟨by decide +kernel, by decide +kernel⟩
  have ran : (renderDirectory ⟨.empty, ""⟩ .empty "s" "s/out").runOn crowded =
      (.ok ["s/out/a"], crowdedWithOut) := Prod.ext (by decide +kernel) rfl
  have found : crowded.lookUp true "s" = .ok (["home", "templates", "s"], .directory) := by
    decide +kernel
  have directories : ∀ p ∈ crowded.under ["home", "templates", "s"],
      p.2 = .directory → p.1 = ["z"] := by decide +kernel
  have leads : LeadsFrom crowdedWithOut "s/out" (Path.names "s/out")
      ["home", "templates", "s", "out"] := directoryAt_eq_ok_iff.mp (by decide +kernel)
  have aim : Target crowded crowdedWithOut "s/out" ["home", "templates", "s"]
      ["home", "templates", "s", "out"] := by
    refine ⟨leads, fun rel mem target linked => ?_⟩
    obtain rfl : rel = ["z"] := directories _ mem rfl
    have missing : crowded.get? ["home", "templates", "s", "out", "z"] = none := by decide +kernel
    rw [List.cons_append, List.cons_append, List.cons_append, List.cons_append, List.nil_append,
      missing] at linked
    cases linked
  have apart : ∀ path ∈ (Path.names "s/out").inits,
      ∀ loc ∈ (crowdedWithOut.directoryAt "s/out" path).toOption,
        ¬ ["home", "templates", "s", "z"] <+: loc := by decide +kernel
  have outside : Outside crowded crowdedWithOut "s/out" ["home", "templates", "s"]
      ["home", "templates", "s", "out"] := by
    refine ⟨?_, by decide⟩
    rintro d mem loc ⟨path, isPrefix, leads'⟩
    obtain rfl : d = ["z"] := directories _ mem rfl
    refine apart path ((List.mem_inits _ _).mpr isPrefix) loc ?_
    rw [directoryAt_eq_ok_iff.mpr leads']
    rfl
  obtain ⟨-, visits⟩ := renderDirectory_visits ⟨.empty, ""⟩ .empty sound
  obtain ⟨root, log, walks, -, -, -, visits⟩ := visits _ _ ran
  obtain ⟨-, same, -, -, clear⟩ := visits _ found
  exact ⟨sound, ran, root, log, walks, same.mpr ((clear _ aim).2 outside)⟩

/-- Two directories `s` and `d`, and a link in `d` that leads into `s`. -/
def crossed : FileTree :=
  .ofList [(["home"], .directory), (["home", "templates"], .directory),
    (["home", "templates", "d"], .directory),
    (["home", "templates", "d", "x"], .link "../s/z"),
    (["home", "templates", "s"], .directory),
    (["home", "templates", "s", "x"], .directory),
    (["home", "templates", "s", "x", "f"], .file (.text "x") (.ofNat 0o644)),
    (["home", "templates", "s", "z"], .directory)]

/-- A visit comes to its own output when that is put into a directory that comes later, be it that
the destination is this directory or that a link at the destination leads there: it gives one path
for each file of the directory and another one for the file that it made. -/
theorem renderDirectory_visits_own_output :
    (crowded.Sound ∧
      crowded.lookUp true "s" = .ok (["home", "templates", "s"], .directory) ∧
      written "s/z" (crowded.contents ["home", "templates", "s"]) = ["s/z/a"] ∧
      ((renderDirectory ⟨.empty, ""⟩ .empty "s" "s/z").runOn crowded).1 =
        .ok ["s/z/a", "s/z/z/a"]) ∧
    crossed.Sound ∧
      crossed.lookUp true "s" = .ok (["home", "templates", "s"], .directory) ∧
      written "d" (crossed.contents ["home", "templates", "s"]) = ["d/x/f"] ∧
      ((renderDirectory ⟨.empty, ""⟩ .empty "s" "d").runOn crossed).1 = .ok ["d/x/f", "d/z/f"] := by
  refine ⟨⟨⟨?_, ?_⟩, ?_, ?_, ?_⟩, ⟨?_, ?_⟩, ?_, ?_, ?_⟩ <;> decide +kernel

end Stencil.Renderer
