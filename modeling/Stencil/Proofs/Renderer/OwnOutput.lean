import Stencil.Proofs.Renderer.Log

/-!
# Whether a visit comes to its own output

A visit reads the names in a directory when it reaches it, so it also comes to what it has made
there until then.  It spares a directory if whatever it changed there was a file or a directory at
the start (`Spares`).  As long as it spares the directories that it comes to, it comes to what stood
there at the start and to nothing else; in the first one that it does not spare it comes to
something of its own (`Visits.spared_or_spoiled`).
-/

namespace Stencil

/-- Entries with their kinds only. -/
def outline {κ : Type} (entries : List (κ × Entry)) : List (κ × EntryKind) :=
  entries.map fun p => (p.1, p.2.kind)

namespace FileTree

variable {t u : FileTree} {loc dir : Location}

/-- A file or a directory stands at the location. -/
def Stands (t : FileTree) (loc : Location) : Prop :=
  ∃ e, t.get? loc = some e ∧ e.kind ≠ .link

/-- The kind of what stands at a location. -/
def kindAt (t : FileTree) (loc : Location) : Option EntryKind :=
  (t.get? loc).map Entry.kind

/-- What a directory holds is found there. -/
lemma kindAt_of_get? {e : Entry} (entry : t.get? loc = some e) : t.kindAt loc = some e.kind := by
  rw [kindAt, entry]
  rfl

lemma stands_iff_kindAt :
    t.Stands loc ↔ ∃ kind, t.kindAt loc = some kind ∧ kind ≠ .link := by
  unfold Stands kindAt
  constructor
  · rintro ⟨e, entry, notLink⟩
    exact ⟨e.kind, by rw [entry]; rfl, notLink⟩
  · rintro ⟨kind, found, notLink⟩
    obtain ⟨e, entry, rfl⟩ := Option.map_eq_some_iff.mp found
    exact ⟨e, entry, notLink⟩

lemma kind_eq_directory_iff {e : Entry} : e.kind = .directory ↔ e = .directory := by
  cases e <;> simp [Entry.kind]

lemma kind_ne_link_iff {e : Entry} : e.kind ≠ .link ↔ ∀ target, e ≠ .link target := by
  cases e <;> simp [Entry.kind]

/-- A file or a directory stays what it is. -/
lemma Retains.kindAt_eq (retains : Retains t u) (stands : t.Stands loc) :
    u.kindAt loc = t.kindAt loc := by
  obtain ⟨e, entry, notLink⟩ := stands
  rw [kindAt_of_get? entry]
  cases e with
  | directory => exact kindAt_of_get? (retains.directory entry)
  | file content mode =>
    obtain ⟨content', mode', kept⟩ := retains.file entry
    rw [kindAt_of_get? kept]
    rfl
  | link target => exact absurd rfl notLink

lemma Retains.stands (retains : Retains t u) (stands : t.Stands loc) : u.Stands loc := by
  have same := retains.kindAt_eq stands
  rw [stands_iff_kindAt] at stands ⊢
  rwa [same]

/-- What has changed is a file or a directory now. -/
lemma Retains.stands_of_ne (retains : Retains t u) (changed : u.get? loc ≠ t.get? loc) :
    u.Stands loc := by
  rcases retains loc with same | ⟨-, added⟩ | ⟨-, content, mode, replaced⟩
  · exact absurd same changed
  · exact ⟨.directory, added, by simp [Entry.kind]⟩
  · exact ⟨.file content mode, replaced, by simp [Entry.kind]⟩

lemma mem_outline_children_iff {name : String} {kind : EntryKind} :
    (name, kind) ∈ outline (t.children dir) ↔ t.kindAt (dir ++ [name]) = some kind := by
  unfold outline kindAt
  rw [List.mem_map]
  constructor
  · rintro ⟨⟨name', e⟩, mem, same⟩
    cases same
    rw [mem_children_iff.mp mem]
    rfl
  · intro found
    obtain ⟨e, entry, rfl⟩ := Option.map_eq_some_iff.mp found
    exact ⟨(name, e), mem_children_iff.mpr entry, rfl⟩

/-- A directory has the same outline in trees that have the same kinds there. -/
lemma outline_children_eq (same : ∀ name, u.kindAt (dir ++ [name]) = t.kindAt (dir ++ [name])) :
    outline (u.children dir) = outline (t.children dir) := by
  have ordered : ∀ t : FileTree, (outline (t.children dir)).Pairwise fun a b => a.1 < b.1 :=
    fun t => List.pairwise_map.mpr (pairwise_children t dir)
  refine eq_of_pairwise_of_mem (ordered u) (ordered t) fun name kind => ?_
  rw [mem_outline_children_iff, mem_outline_children_iff, same]

end FileTree

namespace Renderer

open FileTree

variable {names : Namespace} {source dest : String} {t u w left : FileTree} {S : Location}
  {rel : Location} {cs : List (String × Entry)} {earlier log more : List Visited} {v d : Visited}
  {loc : Location}

/-! ### One entry after another -/

/-- Whether dealing with the entry changed what stands at a location. -/
def Visited.Changes (v : Visited) (loc : Location) : Prop :=
  v.after.get? loc ≠ v.before.get? loc

/-- The entries were dealt with one after another, and nothing was taken away. -/
def Chain : FileTree → List Visited → FileTree → Prop
  | t, [], u => u = t
  | t, v :: log, u => v.before = t ∧ Retains v.before v.after ∧ Chain v.after log u

lemma chain_append_iff :
    Chain t (log ++ more) w ↔ ∃ u, Chain t log u ∧ Chain u more w := by
  induction log generalizing t with
  | nil => simp [Chain]
  | cons v log ih => simp [Chain, ih, and_assoc]

/-- One entry more was dealt with. -/
lemma Chain.concat (chain : Chain t log u) {e : Entry} (retains : Retains u w) :
    Chain t (log ++ [⟨rel, e, u, w⟩]) w :=
  chain_append_iff.mpr ⟨u, chain, rfl, retains, rfl⟩

lemma Chain.retains (chain : Chain t log u) : Retains t u := by
  induction log generalizing t with
  | nil =>
    obtain rfl : u = t := chain
    exact .refl u
  | cons v log ih =>
    obtain ⟨rfl, retains, onward⟩ := chain
    exact retains.trans (ih onward)

/-- Every entry was dealt with in between. -/
lemma Chain.retains_of_mem (chain : Chain t log u) (mem : v ∈ log) :
    Retains t v.before ∧ Retains v.before v.after ∧ Retains v.after u := by
  obtain ⟨before, after, rfl⟩ := List.append_of_mem mem
  obtain ⟨w, first, rfl, retains, onward⟩ := chain_append_iff.mp chain
  exact ⟨first.retains, retains, onward.retains⟩

/-- Where something has changed, dealing with an entry changed it. -/
lemma Chain.exists_changes (chain : Chain t log u) (changed : u.get? loc ≠ t.get? loc) :
    ∃ v ∈ log, v.Changes loc := by
  induction log generalizing t with
  | nil =>
    obtain rfl : u = t := chain
    exact absurd rfl changed
  | cons v log ih =>
    obtain ⟨rfl, -, onward⟩ := chain
    by_cases first : v.Changes loc
    · exact ⟨v, List.mem_cons_self, first⟩
    · have same : v.after.get? loc = v.before.get? loc := not_not.mp first
      obtain ⟨v', mem, changes⟩ := ih onward (same ▸ changed)
      exact ⟨v', List.mem_cons_of_mem _ mem, changes⟩

/-- Where dealing with an entry changed something, a file or a directory stands afterwards. -/
lemma Chain.stands (chain : Chain t log u) (mem : v ∈ log) (changes : v.Changes loc) :
    u.Stands loc := by
  obtain ⟨-, retains, onward⟩ := chain.retains_of_mem mem
  exact onward.stands (retains.stands_of_ne changes)

/-! ### What a visit changes -/

/-- The log of a visit lists entries that were dealt with one after another. -/
lemma Visits.chain (visits : Visits names source dest t rel cs log left) : Chain t log left := by
  induction visits with
  | nil => rfl
  | @link t _ _ _ _ _ _ _ ih => exact ⟨rfl, .refl t, ih⟩
  | file copied _ ih => exact ⟨rfl, retains_of_copyFilled copied, ih⟩
  | directory _ prepared _ _ ihInner ih =>
    exact ⟨rfl, retains_of_prepare prepared, chain_append_iff.mpr ⟨_, ihInner, ih⟩⟩

/-- A visit comes to each of the entries that it is for. -/
lemma Visits.exists_of_mem (visits : Visits names source dest t rel cs log left)
    {c : String × Entry} (mem : c ∈ cs) : ∃ v ∈ log, v.rel = rel ++ [c.1] ∧ v.entry = c.2 := by
  induction visits with
  | nil => cases mem
  | link _ ih | file _ _ ih =>
    rcases List.mem_cons.mp mem with rfl | later
    · exact ⟨_, List.mem_cons_self, rfl, rfl⟩
    · obtain ⟨v, inside, same⟩ := ih later
      exact ⟨v, List.mem_cons_of_mem _ inside, same⟩
  | directory _ _ _ _ _ ih =>
    rcases List.mem_cons.mp mem with rfl | later
    · exact ⟨_, List.mem_cons_self, rfl, rfl⟩
    · obtain ⟨v, inside, same⟩ := ih later
      exact ⟨v, List.mem_cons_of_mem _ (List.mem_append_right _ inside), same⟩

/-- A visit comes only to the entries that it is for and to what they hold. -/
lemma Visits.isPrefix (visits : Visits names source dest t rel cs log left) (mem : v ∈ log) :
    ∃ c ∈ cs, rel ++ [c.1] <+: v.rel := by
  induction visits with
  | nil => cases mem
  | link _ ih | file _ _ ih =>
    rcases List.mem_cons.mp mem with rfl | later
    · exact ⟨_, List.mem_cons_self, List.prefix_refl _⟩
    · obtain ⟨c, inside, isPrefix⟩ := ih later
      exact ⟨c, List.mem_cons_of_mem _ inside, isPrefix⟩
  | directory _ _ _ _ ihInner ih =>
    rcases List.mem_cons.mp mem with rfl | later
    · exact ⟨_, List.mem_cons_self, List.prefix_refl _⟩
    · rcases List.mem_append.mp later with held | later
      · obtain ⟨c, -, isPrefix⟩ := ihInner held
        exact ⟨_, List.mem_cons_self, (List.prefix_append _ _).trans isPrefix⟩
      · obtain ⟨c, inside, isPrefix⟩ := ih later
        exact ⟨c, List.mem_cons_of_mem _ inside, isPrefix⟩

/-- What stands at or below one name comes before what stands at or below a later name. -/
lemma lt_of_isPrefix_of_lt {name name' : String} {l l' : Location} (isPrefix : rel ++ [name] <+: l)
    (isPrefix' : rel ++ [name'] <+: l') (lower : name < name') : l < l' := by
  obtain ⟨below, rfl⟩ := isPrefix
  obtain ⟨below', rfl⟩ := isPrefix'
  rw [List.append_assoc, List.append_assoc, append_lt_append_iff]
  exact List.cons_lt_cons_iff.mpr (.inl lower)

/-- A visit of entries by ascending names comes to everything in ascending order. -/
lemma Visits.pairwise (visits : Visits names source dest t rel cs log left)
    (sorted : cs.Pairwise fun a b => a.1 < b.1) : log.Pairwise fun v w => v.rel < w.rel := by
  induction visits with
  | nil => exact .nil
  | link visits ih | file _ visits ih =>
    obtain ⟨first, sorted⟩ := List.pairwise_cons.mp sorted
    refine List.pairwise_cons.mpr ⟨fun v mem => ?_, ih sorted⟩
    obtain ⟨c, inside, isPrefix⟩ := visits.isPrefix mem
    exact lt_of_isPrefix_of_lt (List.prefix_refl _) isPrefix (first c inside)
  | directory listed _ inner visits ihInner ih =>
    obtain ⟨first, sorted⟩ := List.pairwise_cons.mp sorted
    obtain ⟨dir, -, rfl⟩ := list_eq_ok_iff.mp listed
    have deeper := fun v mem => (inner.isPrefix (v := v) mem).imp fun c h => h.2
    refine List.pairwise_cons.mpr ⟨fun v mem => ?_,
      List.pairwise_append.mpr
        ⟨ihInner (pairwise_children _ dir), ih sorted, fun v mem w mem' => ?_⟩⟩
    · rcases List.mem_append.mp mem with held | later
      · obtain ⟨c, isPrefix⟩ := deeper v held
        refine lt_of_isPrefix ((List.prefix_append _ _).trans isPrefix) fun same => ?_
        have longer := isPrefix.length_le
        rw [← same] at longer
        simp at longer
      · obtain ⟨c, inside, isPrefix⟩ := visits.isPrefix later
        exact lt_of_isPrefix_of_lt (List.prefix_refl _) isPrefix (first c inside)
    · obtain ⟨c, isPrefix⟩ := deeper v mem
      obtain ⟨c', inside, isPrefix'⟩ := visits.isPrefix mem'
      exact lt_of_isPrefix_of_lt ((List.prefix_append _ _).trans isPrefix) isPrefix'
        (first c' inside)

/-! ### What stood in the visited directory -/

/-- The source path leads to the directory `S`, and what this holds is tidy. -/
structure Leading (t : FileTree) (source : String) (S : Location) : Prop where
  leads : Leads t maxLinks (startOf workingDirectory source) (Path.names source) S
  tidy : Tidy (t.under S)

/-- The names lead to `S` itself or to a directory that stood there at the start. -/
def IsStart (t : FileTree) (S rel : Location) : Prop :=
  rel = [] ∨ (rel, Entry.directory) ∈ t.under S

/-- A directory that stood there at the start is the one that is listed later. -/
lemma Leading.list_eq (leading : Leading t source S) (retains : Retains t u)
    (start : IsStart t S rel) {held : List (String × Entry)}
    (listed : u.list (Path.below source rel) = .ok held) : held = u.children (S ++ rel) := by
  obtain ⟨dir, found, rfl⟩ := list_eq_ok_iff.mp listed
  obtain ⟨-, leads⟩ := leads_of_resolve (lookUp_eq_ok_iff.mp found)
  have areNames : AreNames rel := by
    rcases start with rfl | mem
    · simp [AreNames]
    · exact leading.tidy.isName _ mem
  rw [startOf_below areNames, Path.names_below source fun n hn => (areNames n hn).1] at leads
  rw [(leading.leads.into leading.tidy start).agree retains leads]

/-- On the way to what stood in a directory at the start stands a directory. -/
lemma Leading.directory_above (leading : Leading t source S) {below : Location} {e : Entry}
    (nonempty : rel ≠ []) (deeper : below ≠ []) (entry : t.get? (S ++ (rel ++ below)) = some e) :
    t.get? (S ++ rel) = some .directory := by
  have mem : (rel ++ below, e) ∈ t.under S := mem_under_iff.mpr ⟨by simp [nonempty], entry⟩
  exact leading.tidy.directory_of_isPrefix mem (List.prefix_append rel below) nonempty
    (by simpa using deeper)

/-- The directories above one that stood there at the start stood there, too. -/
lemma Leading.mem_of_isPrefix (leading : Leading t source S) {above : Location}
    (start : (rel, Entry.directory) ∈ t.under S) (isPrefix : above <+: rel)
    (nonempty : above ≠ []) :
    (above, Entry.directory) ∈ t.under S := by
  by_cases same : above = rel
  · rwa [same]
  · exact mem_under_iff.mpr ⟨nonempty,
      leading.tidy.directory_of_isPrefix start isPrefix nonempty same⟩

/-- Entries are those of the start where a file or a directory stood. -/
def Matches (t : FileTree) (S rel : Location) (cs : List (String × Entry)) : Prop :=
  ∀ c ∈ cs, t.Stands (S ++ (rel ++ [c.1])) → t.kindAt (S ++ (rel ++ [c.1])) = some c.2.kind

lemma matches_children (retains : Retains t u) (S rel : Location) :
    Matches t S rel (u.children (S ++ rel)) := by
  intro c mem stands
  have found := kindAt_of_get? (mem_children_iff.mp mem)
  rw [List.append_assoc] at found
  rw [← retains.kindAt_eq stands, found]

/-- An entry is what stood there at the start, unless that was in a directory of this name. -/
lemma Matches.head {name : String} {e e' : Entry} {below : Location}
    (same : Matches t S rel ((name, e') :: cs)) (leading : Leading t source S)
    (entry : t.get? (S ++ (rel ++ [name] ++ below)) = some e) :
    (below = [] ∧ (e.kind ≠ .link → e'.kind = e.kind)) ∨
      below ≠ [] ∧ e' = .directory ∧ t.get? (S ++ (rel ++ [name])) = some .directory := by
  by_cases deeper : below = []
  · subst deeper
    rw [List.append_nil] at entry
    refine .inl ⟨rfl, fun notLink => ?_⟩
    have matched := same (name, e') List.mem_cons_self ⟨e, entry, notLink⟩
    rw [kindAt_of_get? entry] at matched
    exact (Option.some.inj matched).symm
  · have above := leading.directory_above (by simp) deeper entry
    have matched := same (name, e') List.mem_cons_self ⟨.directory, above, by simp [Entry.kind]⟩
    rw [kindAt_of_get? above] at matched
    exact .inr ⟨deeper, kind_eq_directory_iff.mp (Option.some.inj matched).symm, above⟩

/-- A visit comes to everything that stood there at the start, and files and directories are still
what they were. -/
lemma Visits.exists_of_start (visits : Visits names source dest u rel cs log left)
    (leading : Leading t source S) (retains : Retains t u) (same : Matches t S rel cs)
    {c : String × Entry} (mem : c ∈ cs) {below : Location} {e : Entry}
    (entry : t.get? (S ++ (rel ++ [c.1] ++ below)) = some e) :
    ∃ v ∈ log, v.rel = rel ++ [c.1] ++ below ∧ (e.kind ≠ .link → v.entry.kind = e.kind) := by
  induction visits generalizing c below e with
  | nil => cases mem
  | link _ ih =>
    rcases List.mem_cons.mp mem with rfl | later
    · rcases same.head leading entry with ⟨rfl, kind⟩ | ⟨-, directory, -⟩
      · exact ⟨_, List.mem_cons_self, by simp, kind⟩
      · cases directory
    · obtain ⟨v, inside, found⟩ :=
        ih retains (fun c mem => same c (List.mem_cons_of_mem _ mem)) later entry
      exact ⟨v, List.mem_cons_of_mem _ inside, found⟩
  | file copied _ ih =>
    rcases List.mem_cons.mp mem with rfl | later
    · rcases same.head leading entry with ⟨rfl, kind⟩ | ⟨-, directory, -⟩
      · exact ⟨_, List.mem_cons_self, by simp, kind⟩
      · cases directory
    · obtain ⟨v, inside, found⟩ := ih (retains.trans (retains_of_copyFilled copied))
        (fun c mem => same c (List.mem_cons_of_mem _ mem)) later entry
      exact ⟨v, List.mem_cons_of_mem _ inside, found⟩
  | @directory u w z rel name held cs inner log left listed prepared visits _ ihInner ih =>
    have retains' := retains.trans (retains_of_prepare prepared)
    rcases List.mem_cons.mp mem with rfl | later
    · rcases same.head leading entry with ⟨rfl, kind⟩ | ⟨deeper, -, above⟩
      · exact ⟨_, List.mem_cons_self, by simp, kind⟩
      · obtain ⟨first, below, rfl⟩ := List.exists_cons_of_ne_nil deeper
        have start : IsStart t S (rel ++ [name]) := .inr (mem_under_iff.mpr ⟨by simp, above⟩)
        obtain rfl := leading.list_eq retains start listed
        rw [List.append_cons] at entry
        obtain ⟨e', held⟩ : ∃ e', u.get? (S ++ (rel ++ [name] ++ [first])) = some e' := by
          by_cases last : below = []
          · subst last
            rw [List.append_nil] at entry
            exact retains.exists_get? entry
          · exact ⟨_, retains.directory (leading.directory_above (by simp) last entry)⟩
        rw [← List.append_assoc] at held
        obtain ⟨v, inside, found⟩ := ihInner retains' (matches_children retains S _)
          (mem_children_iff.mpr held) entry
        refine ⟨v, List.mem_cons_of_mem _ (List.mem_append_left _ inside), ?_⟩
        rwa [List.append_cons]
    · obtain ⟨v, inside, found⟩ := ih (retains'.trans visits.chain.retains)
        (fun c mem => same c (List.mem_cons_of_mem _ mem)) later entry
      exact ⟨v, List.mem_cons_of_mem _ (List.mem_append_right _ inside), found⟩

/-! ### Whether directories are spared -/

/-- Where dealing with the first entry changed something in the second one, if this is a directory,
a file or a directory stood at the start. -/
def Spares (t : FileTree) (S : Location) (v d : Visited) : Prop :=
  d.entry = .directory →
    ∀ name, v.Changes (S ++ (d.rel ++ [name])) → t.Stands (S ++ (d.rel ++ [name]))

/-- An entry changes something in a later directory that stood there at the start, where no file or
directory stood. -/
def Spoils (t : FileTree) (S : Location) (v : Visited) (d : Location) : Prop :=
  (d, Entry.directory) ∈ t.under S ∧ v.rel < d ∧
    ∃ name, v.Changes (S ++ (d ++ [name])) ∧ ¬ t.Stands (S ++ (d ++ [name]))

/-- The entry stood in the visited directory at the start, or is that directory itself. -/
def Stood (t : FileTree) (S : Location) (v : Visited) : Prop :=
  v.rel = [] ∨ t.kindAt (S ++ v.rel) = some v.entry.kind

/-- A part of a visit that spares all directories comes to what stood there at the start. -/
structure Spared (t : FileTree) (S : Location) (earlier log : List Visited)
    (expected : List (Location × Entry)) : Prop where
  outline : outline (log.map Visited.named) = outline expected
  stood : ∀ v ∈ log, Stood t S v
  spares : (earlier ++ log).Pairwise (Spares t S)

/-- A part of a visit that does not spare all directories comes to something that did not stand
there at the start. -/
structure Spoiled (t : FileTree) (S : Location) (earlier log : List Visited) : Prop where
  spoils : ∃ v ∈ earlier ++ log, Stood t S v ∧ ∃ d, Spoils t S v d
  notSpares : ¬ (earlier ++ log).Pairwise (Spares t S)
  own : ∃ v ∈ log, ¬ Stood t S v

lemma Spoiled.append_right (h : Spoiled t S earlier log) (more : List Visited) :
    Spoiled t S earlier (log ++ more) := by
  obtain ⟨⟨v, mem, spoils⟩, notSpares, ⟨v', mem', own⟩⟩ := h
  refine ⟨⟨v, ?_, spoils⟩, fun spares => notSpares ?_, ⟨v', List.mem_append_left _ mem', own⟩⟩
  · rw [← List.append_assoc]
    exact List.mem_append_left _ mem
  · rw [← List.append_assoc] at spares
    exact (List.pairwise_append.mp spares).1

lemma Spoiled.of_append (h : Spoiled t S (earlier ++ more) log) :
    Spoiled t S earlier (more ++ log) := by
  obtain ⟨spoils, notSpares, ⟨v, mem, own⟩⟩ := h
  rw [List.append_assoc] at spoils notSpares
  exact ⟨spoils, notSpares, ⟨v, List.mem_append_right _ mem, own⟩⟩

/-! ### The state of a visit that has spared all directories -/

/-- A visit has come to these entries of the directory `rel`; so far it came only to what stood
there at the start, and spared all directories. -/
structure Underway (t : FileTree) (S rel : Location) (earlier : List Visited)
    (cs : List (String × Entry)) (u : FileTree) : Prop where
  chain : Chain t earlier u
  stood : ∀ v ∈ earlier, Stood t S v
  spares : earlier.Pairwise (Spares t S)
  lower : ∀ v ∈ earlier, ∀ c ∈ cs, v.rel < rel ++ [c.1]
  sorted : cs.Pairwise fun a b => a.1 < b.1
  same : ∀ c ∈ cs, t.kindAt (S ++ (rel ++ [c.1])) = some c.2.kind

/-- The visit goes on to the next entry of the directory. -/
lemma Underway.next {name : String} {e : Entry}
    (state : Underway t S rel earlier ((name, e) :: cs) u) (chain : Chain t (earlier ++ log) w)
    (stood : ∀ v ∈ log, Stood t S v) (spares : (earlier ++ log).Pairwise (Spares t S))
    (inside : ∀ v ∈ log, rel ++ [name] <+: v.rel) :
    Underway t S rel (earlier ++ log) cs w := by
  obtain ⟨first, sorted⟩ := List.pairwise_cons.mp state.sorted
  refine ⟨chain, fun v mem => ?_, spares, fun v mem c hc => ?_, sorted,
    fun c hc => state.same c (List.mem_cons_of_mem _ hc)⟩
  · rcases List.mem_append.mp mem with before | here
    · exact state.stood v before
    · exact stood v here
  · rcases List.mem_append.mp mem with before | here
    · exact state.lower v before c (List.mem_cons_of_mem _ hc)
    · exact lt_of_isPrefix_of_lt (inside v here) (List.prefix_refl _) (first c hc)

/-- The next entry stood there at the start. -/
lemma Underway.stood_next {name : String} {e : Entry}
    (state : Underway t S rel earlier ((name, e) :: cs) u) (w : FileTree) :
    Stood t S ⟨rel ++ [name], e, u, w⟩ :=
  .inr (state.same (name, e) List.mem_cons_self)

/-- The visit goes on after an entry that is no directory. -/
lemma Underway.next_of_ne {name : String} {e : Entry}
    (state : Underway t S rel earlier ((name, e) :: cs) u) (notDirectory : e ≠ .directory)
    (retains : Retains u w) :
    Underway t S rel (earlier ++ [⟨rel ++ [name], e, u, w⟩]) cs w := by
  refine state.next (state.chain.concat retains) (fun v mem => ?_) ?_ fun v mem => ?_
  · rw [List.mem_singleton.mp mem]
    exact state.stood_next w
  · refine List.pairwise_append.mpr ⟨state.spares, List.pairwise_singleton _ _, fun v _ d mem => ?_⟩
    rw [List.mem_singleton.mp mem]
    exact fun directory => absurd directory notDirectory
  · obtain rfl := List.mem_singleton.mp mem
    exact List.prefix_refl _

/-- A directory that is spared holds what it held at the start. -/
lemma Underway.kindAt_eq {name : String} {e : Entry}
    (state : Underway t S rel earlier ((name, e) :: cs) u)
    (spared : ∀ v ∈ earlier, Spares t S v ⟨rel ++ [name], .directory, u, w⟩) (inner : String) :
    u.kindAt (S ++ (rel ++ [name]) ++ [inner]) = t.kindAt (S ++ (rel ++ [name]) ++ [inner]) := by
  rw [List.append_assoc]
  by_cases changed : u.get? (S ++ (rel ++ [name] ++ [inner])) =
      t.get? (S ++ (rel ++ [name] ++ [inner]))
  · rw [kindAt, changed, kindAt]
  · obtain ⟨v, mem, changes⟩ := state.chain.exists_changes changed
    exact state.chain.retains.kindAt_eq (spared v mem rfl inner changes)

/-- The visit goes on to what a directory holds that is spared. -/
lemma Underway.enter {name : String}
    (state : Underway t S rel earlier ((name, .directory) :: cs) u) (retains : Retains u w)
    (spared : ∀ v ∈ earlier, Spares t S v ⟨rel ++ [name], .directory, u, w⟩) :
    Underway t S (rel ++ [name]) (earlier ++ [⟨rel ++ [name], .directory, u, w⟩])
      (u.children (S ++ (rel ++ [name]))) w := by
  refine ⟨state.chain.concat retains, fun v mem => ?_, ?_, fun v mem c hc => ?_,
    pairwise_children u _, fun c hc => ?_⟩
  · rcases List.mem_append.mp mem with before | here
    · exact state.stood v before
    · rw [List.mem_singleton.mp here]
      exact state.stood_next w
  · refine List.pairwise_append.mpr
      ⟨state.spares, List.pairwise_singleton _ _, fun v hv d mem => ?_⟩
    rw [List.mem_singleton.mp mem]
    exact spared v hv
  · have deeper : rel ++ [name] < rel ++ [name] ++ [c.1] :=
      lt_of_isPrefix (List.prefix_append _ _) (by simp)
    rcases List.mem_append.mp mem with before | here
    · exact KeyOrder.lt_trans (state.lower v before _ List.mem_cons_self) deeper
    · rw [List.mem_singleton.mp here]
      exact deeper
  · have found := kindAt_of_get? (mem_children_iff.mp hc)
    rw [state.kindAt_eq spared] at found
    rwa [← List.append_assoc]

/-- A visit comes to something of its own in a directory that is not spared. -/
lemma Underway.spoiled {name : String} {inner : List Visited}
    (state : Underway t S rel earlier ((name, .directory) :: cs) u)
    (start : IsStart t S (rel ++ [name]))
    (visits : Visits names source dest w (rel ++ [name]) (u.children (S ++ (rel ++ [name]))) inner
      left)
    (spoiling : ¬ ∀ v ∈ earlier, Spares t S v ⟨rel ++ [name], .directory, u, w⟩) :
    Spoiled t S earlier (⟨rel ++ [name], .directory, u, w⟩ :: inner) := by
  obtain ⟨v, spoiling⟩ := not_forall.mp spoiling
  obtain ⟨mem, spoiling⟩ := Classical.not_imp.mp spoiling
  obtain ⟨-, spoiling'⟩ := Classical.not_imp.mp spoiling
  obtain ⟨own, spoiling'⟩ := not_forall.mp spoiling'
  obtain ⟨changes, missing⟩ := Classical.not_imp.mp spoiling'
  have directory : (rel ++ [name], Entry.directory) ∈ t.under S := by
    rcases start with none | mem
    · simp at none
    · exact mem
  refine ⟨⟨v, List.mem_append_left _ mem, state.stood v mem, rel ++ [name], directory,
    state.lower v mem _ List.mem_cons_self, own, changes, missing⟩, fun spares => spoiling ?_, ?_⟩
  · exact (List.pairwise_append.mp spares).2.2 v mem _ List.mem_cons_self
  · obtain ⟨e, entry, notLink⟩ := state.chain.stands mem changes
    rw [← List.append_assoc] at entry
    obtain ⟨v', inside, isOwn, sameEntry⟩ := visits.exists_of_mem (mem_children_iff.mpr entry)
    refine ⟨v', List.mem_cons_of_mem _ inside, fun stood => missing ?_⟩
    rcases stood with none | found
    · rw [isOwn] at none
      simp at none
    · rw [isOwn, sameEntry] at found
      exact stands_iff_kindAt.mpr ⟨e.kind, found, notLink⟩

/-! ### The whole visit -/

/-- Only directories held something at the start. -/
lemma Underway.listing_eq_nil {name : String} {e : Entry} (leading : Leading t source S)
    (state : Underway t S rel earlier ((name, e) :: cs) u) (notDirectory : e ≠ .directory) :
    listing t S (rel ++ [name]) = [] := by
  obtain ⟨e', entry, kind⟩ := Option.map_eq_some_iff.mp (state.same (name, e) List.mem_cons_self)
  refine Renderer.listing_eq_nil leading.tidy entry (by simp) fun directory => notDirectory ?_
  rw [directory] at kind
  exact kind_eq_directory_iff.mp kind.symm

/-- What stood in a directory has the outline of what it holds when that has the same kinds. -/
lemma outline_listing (leading : Leading t source S) {held : List (String × Entry)}
    (same : outline held = outline (t.children (S ++ rel))) :
    outline (listing t S rel) =
      outline (held.flatMap fun c => (rel ++ [c.1], c.2) :: listing t S (rel ++ [c.1])) := by
  have apart : ∀ cs : List (String × Entry),
      outline (cs.flatMap fun c => (rel ++ [c.1], c.2) :: listing t S (rel ++ [c.1])) =
        (outline cs).flatMap fun c =>
          (rel ++ [c.1], c.2) :: outline (listing t S (rel ++ [c.1])) := by
    intro cs
    unfold outline
    rw [List.map_flatMap, List.flatMap_map]
    rfl
  rw [listing_eq_flatMap leading.tidy, apart, apart, same]

/-- An entry that is no directory comes before the rest. -/
lemma Spared.cons {expected : List (Location × Entry)} (stood : Stood t S v)
    (h : Spared t S (earlier ++ [v]) log expected) :
    Spared t S earlier (v :: log) (v.named :: expected) := by
  obtain ⟨same, stood', spares⟩ := h
  rw [List.append_assoc] at spares
  exact ⟨congrArg ((v.rel, v.entry.kind) :: ·) same,
    List.forall_mem_cons.mpr ⟨stood, stood'⟩, spares⟩

/-- A visit that spares all directories comes to what stood there at the start and to nothing else;
otherwise it comes to something that did not stand there. -/
theorem Visits.spared_or_spoiled (visits : Visits names source dest u rel cs log left)
    (leading : Leading t source S) (start : IsStart t S rel)
    (state : Underway t S rel earlier cs u) :
    Spared t S earlier log
        (cs.flatMap fun c => (rel ++ [c.1], c.2) :: listing t S (rel ++ [c.1])) ∨
      Spoiled t S earlier log := by
  induction visits generalizing earlier with
  | nil => exact .inl ⟨rfl, by simp, by simpa using state.spares⟩
  | @link u rel name target cs log left _ ih =>
    rw [List.flatMap_cons, state.listing_eq_nil leading (by simp)]
    rcases ih start (state.next_of_ne (by simp) (.refl u)) with spared | spoiled
    · exact .inl (spared.cons (state.stood_next u))
    · exact .inr spoiled.of_append
  | @file u w rel name content mode cs log left copied _ ih =>
    rw [List.flatMap_cons, state.listing_eq_nil leading (by simp)]
    rcases ih start (state.next_of_ne (by simp) (retains_of_copyFilled copied)) with
      spared | spoiled
    · exact .inl (spared.cons (state.stood_next w))
    · exact .inr spoiled.of_append
  | @directory u w z rel name held cs inner log left listed prepared visits _ ihInner ih =>
    have retains := retains_of_prepare prepared
    have start' : IsStart t S (rel ++ [name]) := by
      obtain ⟨e, entry, kind⟩ :=
        Option.map_eq_some_iff.mp (state.same (name, .directory) List.mem_cons_self)
      rw [kind_eq_directory_iff.mp kind] at entry
      exact .inr (mem_under_iff.mpr ⟨by simp, entry⟩)
    obtain rfl := leading.list_eq state.chain.retains start' listed
    by_cases spared : ∀ v ∈ earlier, Spares t S v ⟨rel ++ [name], .directory, u, w⟩
    · rw [List.flatMap_cons, ← List.cons_append]
      rcases ihInner start' (state.enter retains spared) with ⟨same, stood, spares⟩ | spoiled
      · rw [List.append_assoc] at spares
        have chain : Chain t (earlier ++ (⟨rel ++ [name], .directory, u, w⟩ :: inner)) z :=
          chain_append_iff.mpr ⟨u, state.chain, rfl, retains, visits.chain⟩
        have stood' := List.forall_mem_cons.mpr ⟨state.stood_next w, stood⟩
        have inside : ∀ v ∈ (⟨rel ++ [name], .directory, u, w⟩ : Visited) :: inner,
            rel ++ [name] <+: v.rel := by
          refine List.forall_mem_cons.mpr ⟨List.prefix_refl _, fun v mem => ?_⟩
          obtain ⟨c, -, isPrefix⟩ := visits.isPrefix mem
          exact (List.prefix_append _ _).trans isPrefix
        rcases ih start (state.next chain stood' spares inside) with
          ⟨same', stood'', spares'⟩ | spoiled
        · rw [List.append_assoc] at spares'
          refine .inl ⟨?_, ?_, spares'⟩
          · rw [← outline_listing leading (outline_children_eq (state.kindAt_eq spared))] at same
            unfold outline at same same' ⊢
            rw [List.map_append, List.map_append, same', List.map_append]
            congr 1
            exact congrArg (_ :: ·) same
          · exact fun v mem => (List.mem_append.mp mem).elim (stood' v) (stood'' v)
        · exact .inr spoiled.of_append
      · exact .inr (spoiled.of_append.append_right log)
    · rw [← List.cons_append]
      exact .inr ((state.spoiled start' visits spared).append_right log)

end Renderer

end Stencil
