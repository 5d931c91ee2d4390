import Stencil.Proofs.Bundle.Parts
import Stencil.Proofs.Renderer.Directory
import Stencil.Proofs.Renderer.Log

/-!
# The bundle as a directory of templates

Rendering the directory that holds the bundle renders its parts one after another, as long as each
part is found as it is in the bundle when its turn comes (`renderDirectory_eq_renderAll`).  They are
when the destination is apart from that directory (`inPlace_of_apart`), since then rendering parts
does not touch it (`untouched_of_renderAll`).
-/

namespace Stencil.Bundle

open FileTree Renderer

variable {names : Namespace} {source dest path template : String} {modes : String → Mode}
  {t₀ t u v : FileTree} {S D : Location} {p : Part} {ps qs : List Part} {ws : List String}

/-- A template of the bundle as a file. -/
def templateFile (modes : String → Mode) (path template : String) : Entry :=
  .file (.text template) (modes path)

/-- What the bundle has in its first directory. -/
def rootEntries (modes : String → Mode) : List (String × Entry) :=
  [("LICENSE", templateFile modes "LICENSE" licence),
    ("README.md", templateFile modes "README.md" readme), ("docs", .directory),
    ("setup.cfg", templateFile modes "setup.cfg" setup)]

/-- What the bundle has in the directory of the documentation. -/
def docsEntries (modes : String → Mode) : List (String × Entry) :=
  [("index.md", templateFile modes "docs/index.md" documentation)]

/-- The directory holds the bundle and nothing else. -/
structure HoldsBundle (t : FileTree) (S : Location) (modes : String → Mode) : Prop where
  root : t.children S = rootEntries modes
  docs : t.children (S ++ ["docs"]) = docsEntries modes

/-- Below the path the part is found as it is in the bundle; a directory other than that of the
documentation need not be. -/
def Part.Found (modes : String → Mode) (t : FileTree) (source : String) : Part → Prop
  | .directory path => path = "docs" → t.list (Path.join source path) = .ok (docsEntries modes)
  | .file path template =>
    ∃ loc, t.lookUp true (Path.join source path) = .ok (loc, templateFile modes path template)

/-- Every part is found when its turn comes: none of those before it changes it, or the way to
it. -/
def InPlace (modes : String → Mode) (names : Namespace) (source dest : String) (t : FileTree) :
    Prop :=
  ∀ before p after u, parts = before ++ p :: after → Reaches names modes dest t before u →
    p.Found modes u source

/-! ### Rendering parts -/

/-- Rendering a directory and other parts makes the directory first. -/
lemma renderAll_directory (names : Namespace) (modes : String → Mode) (dest path : String)
    (ps : List Part) :
    renderAll names modes dest (.directory path :: ps) = (do
      prepare (Path.join dest path)
      renderAll names modes dest ps) := by
  simp [renderAll, Part.render, prepare]

/-- A template that stands in the tree is rendered into its file. -/
lemma runOn_copyFilled (found : (Part.file path template).Found modes t source)
    (among : template ∈ templates) :
    (do
      copyFilled names (Path.join source path) (Path.join dest path)
      return [Path.join dest path] : Files Failure (List String)).runOn t =
    (Part.render names modes dest (.file path template)).runOn t := by
  obtain ⟨loc, found⟩ := found
  have read : t.readText (Path.join source path) = .ok template := by
    rw [readText, found]
    rfl
  have mode : ((Files.read fun t => t.modeOf (Path.join source path)).adapt .file :
      Files Failure Mode).runOn t = (.ok (modes path), t) := by
    rw [Files.runOn_adapt, Files.runOn_read, modeOf, found]
    rfl
  have unix := (ready_of_mem template among).unix
  unfold copyFilled Part.render
  simp only [bind_assoc]
  refine Files.runOn_bind_congr ?_ fun out left ran => ?_
  · rw [Files.runOn_read, Files.runOn_read, fillFile, read]
    dsimp only
    rw [unix, String.ofList_toList]
  · rw [Files.runOn_read] at ran
    obtain ⟨-, rfl⟩ := Prod.mk.inj ran
    rw [Files.runOn_bind_of_ok mode]

/-- The files of the directory are parts of the bundle. -/
lemma runOn_visitEntry_file {name : String} {depth : Nat}
    (found : (Part.file name template).Found modes t source) (among : template ∈ templates) :
    (visitEntry names dest depth source "" (name, templateFile modes name template)).runOn t =
      (renderAll names modes dest [.file name template]).runOn t := by
  rw [renderAll_singleton, ← runOn_copyFilled found among]
  rfl

/-- The path of the first page of the documentation. -/
lemma join_docs (base : String) :
    Path.join (Path.join base "docs") "index.md" = Path.join base "docs/index.md" := by
  have isName : ∀ name ∈ ["docs"], Path.IsName name := by
    simp only [List.mem_singleton, forall_eq]
    exact ⟨by decide, by decide⟩
  exact Path.join_below base isName ⟨by decide, by decide⟩

/-- The directory of the documentation in the tree is that of the bundle. -/
lemma runOn_visitEntry_docs {depth : Nat} (found : (Part.directory "docs").Found modes t source)
    (foundIndex : ∀ u, Reaches names modes dest t [.directory "docs"] u →
      (Part.file "docs/index.md" documentation).Found modes u source) :
    (visitEntry names dest (depth + 1) source "" ("docs", .directory)).runOn t =
      (renderAll names modes dest
        [.directory "docs", .file "docs/index.md" documentation]).runOn t := by
  have entered : visitEntry names dest (depth + 1) source "" ("docs", .directory) =
      entering (Path.join source "docs") (prepare (Path.join dest "docs"))
        (visit names dest (depth + 1) (Path.join source "docs") "docs") := rfl
  have index : visitEntry names dest depth (Path.join source "docs") "docs"
      ("index.md", templateFile modes "docs/index.md" documentation) = (do
        copyFilled names (Path.join source "docs/index.md") (Path.join dest "docs/index.md")
        return [Path.join dest "docs/index.md"]) := by
    have relative : Path.join "docs" "index.md" = "docs/index.md" := by decide
    unfold visitEntry templateFile
    dsimp only
    rw [if_neg (by decide), relative, join_docs]
  have inner : visit names dest (depth + 1) (Path.join source "docs") "docs"
      (docsEntries modes) = (do
        copyFilled names (Path.join source "docs/index.md") (Path.join dest "docs/index.md")
        return [Path.join dest "docs/index.md"]) := by
    rw [docsEntries, visit_succ, List.mapM_cons, List.mapM_nil, index]
    simp
  rw [entered, runOn_entering, found rfl, renderAll_directory, Files.runOn_bind]
  rcases prepared : (prepare (Path.join dest "docs")).runOn t with ⟨_ | ⟨⟩, u⟩
  · rfl
  · have reached : Reaches names modes dest t [.directory "docs"] u :=
      ⟨[], by rw [renderAll_directory, Files.runOn_bind_of_ok prepared]; rfl⟩
    dsimp only
    rw [inner, renderAll_singleton, runOn_copyFilled (foundIndex u reached) (by simp [templates])]

/-- A visit of an entry does what rendering some parts does, and the visit goes on. -/
lemma runOn_visit_step {before : List Part} {depth : Nat} {c : String × Entry}
    {cs : List (String × Entry)} (reached : Reaches names modes dest t before u)
    (first : (visitEntry names dest depth source "" c).runOn u =
      (renderAll names modes dest ps).runOn u)
    (onward : ∀ v, Reaches names modes dest t (before ++ ps) v →
      (visit names dest (depth + 1) source "" cs).runOn v =
        (renderAll names modes dest qs).runOn v) :
    (visit names dest (depth + 1) source "" (c :: cs)).runOn u =
      (renderAll names modes dest (ps ++ qs)).runOn u := by
  rw [visit_cons, renderAll_append]
  refine Files.runOn_bind_congr first fun ws v ran => ?_
  exact Files.runOn_bind_congr (onward v (reached.append ⟨ws, ran⟩)) fun _ _ _ => rfl

/-- Rendering the directory renders the parts of the bundle, as long as each of them is found in it
when its turn comes. -/
theorem renderDirectory_eq_renderAll (r : Renderer) (caller : Namespace)
    (root : t.lookUp false source = .ok (S, .directory)) (holds : HoldsBundle t S modes)
    (inPlace : InPlace modes (r.names caller) source dest t) :
    (r.renderDirectory caller source dest).runOn t =
      (renderAll (r.names caller) modes dest parts).runOn t := by
  rw [runOn_renderDirectory r caller dest root, holds.root, parts, renderAll_directory,
    Files.runOn_bind]
  rcases prepared : (prepare (Path.join dest "")).runOn t with ⟨_ | ⟨⟩, u⟩
  · rfl
  have reached : Reaches (r.names caller) modes dest t [.directory ""] u :=
    ⟨[], by rw [renderAll_directory, Files.runOn_bind_of_ok prepared]; rfl⟩
  dsimp only
  change _ = (renderAll (r.names caller) modes dest ([.file "LICENSE" licence] ++
    ([.file "README.md" readme] ++ ([.directory "docs", .file "docs/index.md" documentation] ++
      ([.file "setup.cfg" setup] ++ []))))).runOn u
  -- one step for each entry of the directory, in the order of their names
  refine runOn_visit_step reached (runOn_visitEntry_file (inPlace _ _ _ _ rfl reached)
    (by simp [templates])) fun _ reached => ?_
  refine runOn_visit_step reached (runOn_visitEntry_file (inPlace _ _ _ _ rfl reached)
    (by simp [templates])) fun _ reached => ?_
  refine runOn_visit_step reached (runOn_visitEntry_docs (inPlace _ _ _ _ rfl reached)
    fun _ reached' => inPlace _ _ _ _ rfl (reached.append reached')) fun _ reached => ?_
  refine runOn_visit_step reached (runOn_visitEntry_file (inPlace _ _ _ _ rfl reached)
    (by simp [templates])) fun _ _ => ?_
  rfl

/-! ### A destination that is apart -/

/-- The part stays inside of the directory below which it is created. -/
def Part.Inside : Part → Prop
  | .directory path => AreNames [path]
  | .file path template => (Part.file path template).Named ∧ ".." ∉ Path.names path

/-- A relative path that never goes up names an entry inside of the directory, when that has no
links. -/
lemma exists_of_names {loc : Location}
    (leads : Leads t maxLinks (startOf workingDirectory dest) (Path.names dest) D)
    (noLinks : ∀ loc target, D <+: loc → t.get? loc ≠ some (.link target))
    (inside : (Part.file path template).Inside) (names : Names t (Path.join dest path) loc) :
    ∃ rel, rel ≠ [] ∧ loc = D ++ rel := by
  obtain ⟨⟨relative, nonempty⟩, down⟩ := inside
  obtain ⟨-, above, name, dir, cut, leads', -, rfl⟩ := names
  have start : startOf workingDirectory (Path.join dest path) = startOf workingDirectory dest := by
    rw [startOf, startOf, Path.isAbsolute_join relative]
  obtain ⟨front, last, split⟩ : ∃ front last, Path.names path = front ++ [last] :=
    ⟨_, _, (List.dropLast_append_getLast nonempty).symm⟩
  rw [Path.names_join relative, split, ← List.append_assoc] at cut
  obtain ⟨rfl, -⟩ := List.append_inj' cut rfl
  rw [start] at leads'
  obtain ⟨left, -, onward⟩ := leads.of_append leads'
  obtain ⟨rest, rfl⟩ := onward.prefix_of_noLinks
    (fun up => down (split ▸ List.mem_append_left _ up)) noLinks
  exact ⟨rest ++ [name], by simp, List.append_assoc D rest [name]⟩

/-- Rendering a part changes nothing but what the destination holds. -/
lemma untouched_of_render (set : Setting t₀ source dest S D) (state : Untouched D t₀ t)
    (inside : p.Inside) (ran : (p.render names modes dest).runOn t = (.ok ws, u)) :
    Untouched D t₀ u := by
  have leads : Leads t maxLinks (startOf workingDirectory dest) (Path.names dest) D :=
    set.dest.mono state.keeps
  cases p with
  | directory path =>
    obtain ⟨⟨⟩, left, made, done⟩ := Files.runOn_bind_eq_ok_iff.mp ran
    obtain ⟨-, rfl⟩ := Prod.mk.inj done
    have areNames : AreNames ([] ++ [path]) := inside
    have leads' : Leads t maxLinks (startOf workingDirectory dest) (Path.names dest ++ [])
        (D ++ []) := by
      simpa using leads
    have made' : (prepare (Path.below dest ([] ++ [path]))).runOn t = (.ok (), left) := made
    rcases runOn_prepare_below areNames leads'
        (fun target => state.noLinks _ target (List.prefix_append D _)) with ⟨e, failed⟩ | added
    · rw [failed] at made'
      cases made'
    · rw [added] at made'
      obtain ⟨-, rfl⟩ := Prod.mk.inj made'
      exact (state.insert (by simp) (by simp) fun _ => rfl).1
  | file path template =>
    obtain ⟨out, mid, read, ran⟩ := Files.runOn_bind_eq_ok_iff.mp ran
    rw [Files.runOn_read] at read
    obtain ⟨-, rfl⟩ := Prod.mk.inj read
    obtain ⟨⟨⟩, left, replaced, done⟩ := Files.runOn_bind_eq_ok_iff.mp ran
    obtain ⟨-, rfl⟩ := Prod.mk.inj done
    obtain ⟨loc, replaceable, rfl⟩ :=
      Files.exists_replaceable_of_runOn (Files.runOn_adapt_eq_ok_iff.mp replaced)
    obtain ⟨names, -, notDirectory⟩ := replaceable_iff.mp replaceable
    obtain ⟨rel, nonempty, rfl⟩ := exists_of_names leads state.noLinks inside names
    exact (state.insert nonempty (by simp) fun entry => absurd entry notDirectory).1

/-- Rendering parts changes nothing but what the destination holds. -/
lemma untouched_of_renderAll (set : Setting t₀ source dest S D) (state : Untouched D t₀ t)
    (inside : ∀ p ∈ ps, p.Inside) (reached : Reaches names modes dest t ps u) :
    Untouched D t₀ u := by
  induction ps generalizing t with
  | nil =>
    obtain ⟨ws, ran⟩ := reached
    obtain ⟨-, rfl⟩ := Prod.mk.inj ran
    exact state
  | cons p ps ih =>
    obtain ⟨inside', inside⟩ := List.forall_mem_cons.mp inside
    obtain ⟨ws, ran⟩ := reached
    obtain ⟨here, mid, first, ran⟩ := Files.runOn_bind_eq_ok_iff.mp ran
    obtain ⟨others, left, later, done⟩ := Files.runOn_bind_eq_ok_iff.mp ran
    obtain ⟨-, rfl⟩ := Prod.mk.inj done
    exact ih (untouched_of_render set state inside' first) inside ⟨others, later⟩

/-- The parts of the bundle but for the first stay inside of the destination. -/
lemma inside_parts : ∀ p ∈ parts.tail, p.Inside := by
  simp only [parts, List.tail_cons, List.mem_cons, List.not_mem_nil, or_false, forall_eq_or_imp,
    forall_eq, Part.Inside, Part.Named, AreNames]
  decide

/-- The directory of the documentation is below that of the bundle. -/
lemma HoldsBundle.mem_under (holds : HoldsBundle t S modes) :
    (["docs"], .directory) ∈ t.under S := by
  refine mem_under_iff.mpr ⟨by simp, mem_children_iff.mp ?_⟩
  simp [holds.root, rootEntries]

/-- The names in the bundle are names of entries. -/
lemma areNames_of_mem {rel : List String} (among : ∀ name ∈ rel,
      name ∈ ["LICENSE", "README.md", "docs", "index.md", "setup.cfg"]) : AreNames rel := by
  have every : ∀ name ∈ ["LICENSE", "README.md", "docs", "index.md", "setup.cfg"],
      Path.IsName name ∧ IsEntryName name := by decide
  exact fun name inside => every name (among name inside)

/-- A template that stands in the directory is found below its path. -/
lemma exists_lookUp_of_untouched {up : List String} {name : String}
    (set : Setting t₀ source dest S D) (state : Untouched D t₀ t)
    (areNames : AreNames (up ++ [name]))
    (visited : up = [] ∨ (up, .directory) ∈ t₀.under S)
    (entry : t₀.get? (S ++ (up ++ [name])) = some (templateFile modes path template))
    (checked : checkPath (Path.below source (up ++ [name])) = .ok ()) :
    ∃ loc, t.lookUp true (Path.below source (up ++ [name])) =
      .ok (loc, templateFile modes path template) := by
  have leads := state.leads_source set visited
  have names := (names_below_iff areNames leads).mpr ⟨checked, rfl⟩
  have noSlash : Path.endsInSlash (Path.below source (up ++ [name])) = false :=
    Path.endsInSlash_below source (by simp) fun n among => (areNames n among).1
  rw [← state.get?_source set] at entry
  exact ⟨_, lookUp_of_names names noSlash entry⟩

/-- The paths below the directory of the bundle are short enough to be looked up. -/
def Short (source : String) : Prop :=
  ∀ path ∈ ["LICENSE", "README.md", "docs", "docs/index.md", "setup.cfg"],
    checkPath (Path.join source path) = .ok ()

/-- In a directory that is untouched and holds the bundle each part is found. -/
lemma found_of_untouched (set : Setting t₀ source dest S D) (state : Untouched D t₀ t)
    (holds : HoldsBundle t₀ S modes) (short : Short source) :
    ∀ p ∈ parts, p.Found modes t source := by
  have below (path : String) : Path.below source [path] = Path.join source path := rfl
  have below' : Path.below source (["docs"] ++ ["index.md"]) =
      Path.join source "docs/index.md" := rfl
  have top {name template : String} (isName : AreNames ([] ++ [name]))
      (held : (name, templateFile modes name template) ∈ rootEntries modes)
      (checked : checkPath (Path.join source name) = .ok ()) :
      (Part.file name template).Found modes t source := by
    rw [← holds.root, mem_children_iff] at held
    have found := exists_lookUp_of_untouched set state isName (.inl rfl) held checked
    rwa [List.nil_append, below] at found
  have docs : (Part.directory "docs").Found modes t source := by
    intro _
    have leads := state.leads_source set (.inr holds.mem_under)
    rw [← below, list_below (areNames_of_mem (by simp)) leads, below, short "docs" (by simp),
      state.children_source set, holds.docs]
    rfl
  have index : (Part.file "docs/index.md" documentation).Found modes t source := by
    have inner : t₀.get? (S ++ (["docs"] ++ ["index.md"])) =
        some (templateFile modes "docs/index.md" documentation) := by
      rw [← List.append_assoc]
      exact mem_children_iff.mp (by simp [holds.docs, docsEntries])
    have checked := short "docs/index.md" (by simp)
    rw [← below'] at checked
    have found := exists_lookUp_of_untouched set state (areNames_of_mem (by simp))
      (.inr holds.mem_under) inner checked
    rwa [below'] at found
  have named {name : String} (among : name ∈ ["LICENSE", "README.md", "setup.cfg"]) :
      AreNames ([] ++ [name]) := areNames_of_mem (by simp at among ⊢; tauto)
  intro p among
  simp only [parts, List.mem_cons, List.not_mem_nil, or_false] at among
  rcases among with rfl | rfl | rfl | rfl | rfl | rfl
  · exact fun same => absurd same (by decide)
  · exact top (named (by simp)) (by simp [rootEntries]) (short _ (by simp))
  · exact top (named (by simp)) (by simp [rootEntries]) (short _ (by simp))
  · exact docs
  · exact index
  · exact top (named (by simp)) (by simp [rootEntries]) (short _ (by simp))

/-- Whether a directory holds the bundle depends on what it holds. -/
lemma HoldsBundle.congr (same : u.under S = t.under S) (holds : HoldsBundle t S modes) :
    HoldsBundle u S modes := by
  refine ⟨(children_congr same).trans holds.root, ?_⟩
  have same' : u.under (S ++ ["docs"]) = t.under (S ++ ["docs"]) := by
    refine under_congr fun rel _ => ?_
    rw [List.append_assoc]
    refine Option.ext fun e => ?_
    have entry (t : FileTree) : t.get? (S ++ (["docs"] ++ rel)) = some e ↔
        (["docs"] ++ rel, e) ∈ t.under S := by
      simp [mem_under_iff]
    rw [entry, entry, same]
  exact (children_congr same').trans holds.docs

/-- The destination is apart from the directory of the bundle: neither is inside of the other, the
destination has no links, and where names on the way to it go up again, no directory is made inside
of the bundle for them. -/
structure Apart (t : FileTree) (source dest : String) (S : Location) : Prop where
  wellFormed : t.WellFormed
  short : Short source
  apart : ∀ t₁ D, (prepare (Path.join dest "")).runOn t = (.ok (), t₁) →
    t₁.directoryAt dest (Path.names dest) = .ok D →
      ¬ S <+: D ∧ ¬ D <+: S ∧ (∀ loc target, D <+: loc → t.get? loc ≠ some (.link target)) ∧
        (".." ∈ Path.names dest → t₁.under S = t.under S)

/-- A bundle from which the destination is apart stays in place. -/
theorem inPlace_of_apart (root : t.lookUp false source = .ok (S, .directory))
    (holds : HoldsBundle t S modes) (apart : Apart t source dest S) (names : Namespace) :
    InPlace modes names source dest t := by
  rintro (_ | ⟨first, before⟩) p after u cut ⟨ws, ran⟩
  · obtain ⟨rfl, -⟩ : Part.directory "" = p ∧ _ = after := List.cons.inj cut
    exact fun same => absurd same (by decide)
  obtain ⟨rfl, later⟩ : Part.directory "" = first ∧ parts.tail = before ++ p :: after :=
    List.cons.inj cut
  rw [renderAll_directory] at ran
  obtain ⟨⟨⟩, t₁, prepared, ran⟩ := Files.runOn_bind_eq_ok_iff.mp ran
  obtain ⟨D, leadsD⟩ := exists_leads_of_prepare prepared
  obtain ⟨notInside, notAround, noLinks, goesUp⟩ :=
    apart.apart t₁ D prepared (directoryAt_eq_ok_iff.mpr leadsD)
  have added : AddsDirectories dest t t₁ :=
    addsDirectories_join_empty (addsDirectories_of_prepare prepared)
  have same : t₁.under S = t.under S := by
    by_cases up : ".." ∈ Path.names dest
    · exact goesUp up
    · exact added.under_eq apart.wellFormed leadsD up notInside
  have leadsS := (leads_of_resolve (lookUp_eq_ok_iff.mp root)).2.mono added.keeps
  have set : Setting t₁ source dest S D :=
    ⟨leadsS, leadsD, same ▸ apart.wellFormed.tidy_under S, notInside, notAround⟩
  have start : Untouched D t₁ t₁ := ⟨fun _ _ h _ => h, fun _ _ => rfl, added.noLinks noLinks⟩
  have inside : ∀ q ∈ before, q.Inside := fun q among =>
    inside_parts q (later ▸ List.mem_append_left _ among)
  have among : p ∈ parts := cut ▸ List.mem_append_right _ List.mem_cons_self
  exact found_of_untouched set (untouched_of_renderAll set start inside ⟨ws, ran⟩)
    (holds.congr same) apart.short p among

end Stencil.Bundle
