import Stencil.Proofs.Bundle.Pages
import Stencil.Proofs.Files.Replace
import Stencil.Proofs.Files.Retain

/-!
# The parts of the bundle

The parts of the bundle are rendered below a destination one after another (`renderAll`).  As far as
the templates render, that is the same as creating their pages (`renderAll_eq_createAll`).  Later
parts leave the files of earlier ones alone, since their names differ, so each file stands in the
end where its path led at its turn (`placed_of_createAll`).
-/

namespace Stencil.Bundle

open FileTree

/-! ### Parts -/

/-- An entry of the bundle: a directory, or a file with its template. -/
inductive Part where
  | directory (path : String)
  | file (path template : String)

/-- The bundle, each directory before its content and names ascending. -/
def parts : List Part :=
  [ .directory "",
    .file "LICENSE" licence,
    .file "README.md" readme,
    .directory "docs",
    .file "docs/index.md" documentation,
    .file "setup.cfg" setup ]

namespace Part

/-- Creates a part of the bundle below a destination. -/
def create (texts : String → String) (modes : String → Mode) (dest : String) :
    Part → Files FileError Unit
  | .directory path => Files.makeDirectories (Path.join dest path)
  | .file path template =>
    Files.replaceFile (Path.join dest path) (page texts template) (modes path)

/-- The path of a file. -/
def written (dest : String) : Part → List String
  | .directory _ => []
  | .file path _ => [Path.join dest path]

/-- Renders a part of the bundle below a destination and gives the path of a file. -/
def render (names : Namespace) (modes : String → Mode) (dest : String) :
    Part → Files Failure (List String)
  | .directory path => do
    (Files.makeDirectories (Path.join dest path)).adapt .file
    return []
  | .file path template => do
    let out ← Files.read fun _ => Renderer.fill names template
    (Files.replaceFile (Path.join dest path) out (modes path)).adapt .file
    return [Path.join dest path]

end Part

variable {names : Namespace} {dest path template : String} {texts : String → String}
  {modes : String → Mode} {p : Part} {ps qs : List Part} {t u v : FileTree}

/-- Creates parts of the bundle below a destination, one after another. -/
def createAll (texts : String → String) (modes : String → Mode) (dest : String) :
    List Part → Files FileError Unit
  | [] => return ()
  | p :: ps => do
    p.create texts modes dest
    createAll texts modes dest ps

/-- Renders parts of the bundle below a destination, one after another, and gives the paths of the
files. -/
def renderAll (names : Namespace) (modes : String → Mode) (dest : String) :
    List Part → Files Failure (List String)
  | [] => return []
  | p :: ps => do
    let here ← p.render names modes dest
    let others ← renderAll names modes dest ps
    return here ++ others

/-- Rendering parts is rendering each of them and putting the paths together. -/
lemma renderAll_eq_mapM (names : Namespace) (modes : String → Mode) (dest : String)
    (ps : List Part) :
    renderAll names modes dest ps = do
      return (← ps.mapM (Part.render names modes dest)).flatten := by
  induction ps with
  | nil => rfl
  | cons p ps ih => simp [renderAll, ih, List.mapM_cons]

/-- Rendering parts is rendering the first of them and then the others. -/
lemma renderAll_append (names : Namespace) (modes : String → Mode) (dest : String)
    (ps qs : List Part) :
    renderAll names modes dest (ps ++ qs) = do
      let here ← renderAll names modes dest ps
      let others ← renderAll names modes dest qs
      return here ++ others := by
  simp [renderAll_eq_mapM, List.mapM_append]

lemma renderAll_singleton (names : Namespace) (modes : String → Mode) (dest : String) (p : Part) :
    renderAll names modes dest [p] = p.render names modes dest := by
  simp [renderAll]

/-- The second tree is what is left when some parts have been rendered in the first. -/
def Reaches (names : Namespace) (modes : String → Mode) (dest : String) (t : FileTree)
    (ps : List Part) (u : FileTree) : Prop :=
  ∃ ws, (renderAll names modes dest ps).runOn t = (.ok ws, u)

lemma Reaches.append (h : Reaches names modes dest t ps u) (h' : Reaches names modes dest u qs v) :
    Reaches names modes dest t (ps ++ qs) v := by
  obtain ⟨ws, ran⟩ := h
  obtain ⟨ws', ran'⟩ := h'
  rw [Reaches, renderAll_append]
  refine ⟨ws ++ ws', ?_⟩
  rw [Files.runOn_bind_of_ok ran, Files.runOn_bind_of_ok ran', Files.runOn_pure]

/-! ### What the steps do -/

/-- Rendering a part creates it, as far as its template renders to its page. -/
lemma Part.render_eq_create (filled : ∀ path template, p = .file path template →
      Renderer.fill names template = .ok (page texts template)) :
    p.render names modes dest = (do
      (p.create texts modes dest).adapt .file
      return p.written dest) := by
  cases p with
  | directory path => rfl
  | file path template =>
    have read : (Files.read fun _ => Renderer.fill names template) =
        (pure (page texts template) : Files Failure String) := by
      apply Files.ext_runOn
      intro t
      rw [Files.runOn_read, filled path template rfl, Files.runOn_pure]
    rw [Part.render, read, pure_bind]
    rfl

/-- Rendering parts creates them, as far as their templates render to their pages. -/
lemma renderAll_eq_createAll (filled : ∀ path template, .file path template ∈ ps →
      Renderer.fill names template = .ok (page texts template)) :
    renderAll names modes dest ps = (do
      (createAll texts modes dest ps).adapt .file
      return ps.flatMap (Part.written dest)) := by
  induction ps with
  | nil => rfl
  | cons p ps ih =>
    have here : p.render names modes dest = (do
        (p.create texts modes dest).adapt .file
        return p.written dest) :=
      Part.render_eq_create fun path template same =>
        filled path template (same ▸ List.mem_cons_self)
    have others := ih fun path template among => filled path template (List.mem_cons_of_mem _ among)
    rw [renderAll, here, others, createAll, Files.adapt_bind]
    simp only [bind_assoc, pure_bind, List.flatMap_cons]

/-- Parts are only rendered when all their templates render. -/
lemma exists_of_runOn_renderAll {ws : List String}
    (ran : (renderAll names modes dest ps).runOn t = (.ok ws, u)) :
    ∀ path template, .file path template ∈ ps → ∃ out, Renderer.fill names template = .ok out := by
  induction ps generalizing t u ws with
  | nil => exact fun _ _ among => absurd among List.not_mem_nil
  | cons p ps ih =>
    obtain ⟨w, mid, here, ran⟩ := Files.runOn_bind_eq_ok_iff.mp ran
    obtain ⟨ws', left, others, -⟩ := Files.runOn_bind_eq_ok_iff.mp ran
    intro path template among
    rcases List.mem_cons.mp among with rfl | later
    · obtain ⟨out, read, filled, -⟩ := Files.runOn_bind_eq_ok_iff.mp here
      rw [Files.runOn_read] at filled
      exact ⟨out, congrArg Prod.fst filled⟩
    · exact ih others path template later

/-! ### Where files stand -/

/-- Creating a part takes nothing away. -/
lemma retains_of_create (ran : (p.create texts modes dest).runOn t = (.ok (), u)) :
    Retains t u := by
  cases p with
  | directory path =>
    have added := Files.addsDirectories_makeDirectories (Path.join dest path) t
    rw [Part.create] at ran
    rw [ran] at added
    exact added.retains
  | file path template =>
    obtain ⟨loc, replaceable, rfl⟩ := Files.exists_replaceable_of_runOn ran
    exact retains_insert_file (replaceable_iff.mp replaceable).2.2

/-- Creating parts takes nothing away. -/
lemma retains_of_createAll (ran : (createAll texts modes dest ps).runOn t = (.ok (), u)) :
    Retains t u := by
  induction ps generalizing t with
  | nil =>
    cases ran
    exact .refl _
  | cons p ps ih =>
    obtain ⟨⟨⟩, mid, here, others⟩ := Files.runOn_bind_eq_ok_iff.mp ran
    exact (retains_of_create here).trans (ih others)

/-- Creating parts is creating the first of them and then the others. -/
lemma runOn_createAll_append {before after : List Part}
    (ran : (createAll texts modes dest (before ++ after)).runOn t = (.ok (), u)) :
    ∃ mid, (createAll texts modes dest before).runOn t = (.ok (), mid) ∧
      (createAll texts modes dest after).runOn mid = (.ok (), u) := by
  induction before generalizing t with
  | nil => exact ⟨t, rfl, ran⟩
  | cons p before ih =>
    obtain ⟨⟨⟩, left, here, others⟩ := Files.runOn_bind_eq_ok_iff.mp ran
    obtain ⟨mid, first, rest⟩ := ih others
    exact ⟨mid, Files.runOn_bind_eq_ok_iff.mpr ⟨(), left, here, first⟩, rest⟩

/-- The name of a file. -/
def Part.fileName? : Part → Option String
  | .directory _ => none
  | .file path _ => (Path.names path).getLast?

/-- A file has a name below the destination. -/
def Part.Named : Part → Prop
  | .directory _ => True
  | .file path _ => Path.isAbsolute path = false ∧ Path.names path ≠ []

/-- The last name of a location that a path below the destination names. -/
lemma getLast?_of_names {loc : Location} (named : (Part.file path template).Named)
    (h : Names t (Path.join dest path) loc) : loc.getLast? = (Path.names path).getLast? := by
  obtain ⟨relative, nonempty⟩ := named
  obtain ⟨-, names, name, dir, cut, -, -, rfl⟩ := h
  rw [Path.names_join relative] at cut
  have last := congrArg List.getLast? cut
  rw [List.getLast?_append_of_ne_nil _ nonempty, List.getLast?_concat] at last
  rw [List.getLast?_concat, last]

/-- A file stays as it is when a part is created that is no file under the same name. -/
lemma get?_of_create {loc : Location} {content : Content} {mode : Mode} (named : p.Named)
    (other : p.fileName? ≠ loc.getLast?) (ran : (p.create texts modes dest).runOn t = (.ok (), u))
    (entry : t.get? loc = some (.file content mode)) : u.get? loc = some (.file content mode) := by
  cases p with
  | directory path =>
    have added := Files.addsDirectories_makeDirectories (Path.join dest path) t
    rw [Part.create] at ran
    rw [ran] at added
    rcases added loc with same | ⟨missing, -⟩
    · rw [same, entry]
    · rw [missing] at entry
      cases entry
  | file path template =>
    obtain ⟨loc', replaceable, rfl⟩ := Files.exists_replaceable_of_runOn ran
    have ends := getLast?_of_names named (replaceable_iff.mp replaceable).1
    have apart : loc ≠ loc' := by
      rintro rfl
      exact other ends.symm
    rw [Table.get?_insert, if_neg apart, entry]

/-- A file stays as it is when parts are created among which is no file under the same name. -/
lemma get?_of_createAll {loc : Location} {content : Content} {mode : Mode}
    (named : ∀ p ∈ ps, p.Named) (others : ∀ p ∈ ps, p.fileName? ≠ loc.getLast?)
    (ran : (createAll texts modes dest ps).runOn t = (.ok (), u))
    (entry : t.get? loc = some (.file content mode)) : u.get? loc = some (.file content mode) := by
  induction ps generalizing t with
  | nil =>
    cases ran
    exact entry
  | cons p ps ih =>
    obtain ⟨named', named⟩ := List.forall_mem_cons.mp named
    obtain ⟨other, others⟩ := List.forall_mem_cons.mp others
    obtain ⟨⟨⟩, mid, here, ran⟩ := Files.runOn_bind_eq_ok_iff.mp ran
    exact ih named others ran (get?_of_create named' other here entry)

/-- A file with this text and these permission bits stands in the second tree where the path led in
the first one.  As far as the path still leads to an entry, it leads there, and the text can be
read. -/
def Placed (t u : FileTree) (path text : String) (mode : Mode) : Prop :=
  ∃ loc, t.Names path loc ∧ u.get? loc = some (.file (.text text) mode) ∧
    ∀ loc', u.Names path loc' → loc' = loc ∧ u.readText path = .ok text

/-- When parts with different names have been created, each file stands where its path led at its
turn. -/
theorem placed_of_createAll {before after : List Part} (named : ∀ p ∈ ps, p.Named)
    (distinct : (ps.filterMap Part.fileName?).Nodup)
    (cut : ps = before ++ .file path template :: after)
    (ran : (createAll texts modes dest ps).runOn t = (.ok (), u)) :
    ∃ mid, (createAll texts modes dest before).runOn t = (.ok (), mid) ∧
      Placed mid u (Path.join dest path) (page texts template) (modes path) := by
  subst cut
  obtain ⟨mid, first, ran⟩ := runOn_createAll_append ran
  refine ⟨mid, first, ?_⟩
  obtain ⟨⟨⟩, left, here, others⟩ := Files.runOn_bind_eq_ok_iff.mp ran
  have retains := (retains_of_create here).trans (retains_of_createAll others)
  obtain ⟨loc, replaceable, rfl⟩ := Files.exists_replaceable_of_runOn here
  obtain ⟨names, noSlash, -⟩ := replaceable_iff.mp replaceable
  have here' : (Part.file path template).Named := named _ (by simp)
  have ends : loc.getLast? = (Part.file path template).fileName? := getLast?_of_names here' names
  obtain ⟨name, last⟩ : ∃ name, (Part.file path template).fileName? = some name :=
    ⟨_, List.getLast?_eq_some_getLast here'.2⟩
  have apart : ∀ p ∈ after, p.fileName? ≠ loc.getLast? := by
    intro p among same
    rw [List.filterMap_append, List.filterMap_cons_some last] at distinct
    have once := (List.nodup_cons.mp (List.nodup_append.mp distinct).2.1).1
    exact once (List.mem_filterMap.mpr ⟨p, among, same.trans (ends.trans last)⟩)
  have entry := get?_of_createAll (fun p among => named p (by simp [among])) apart others
    (by rw [Table.get?_insert, if_pos rfl])
  refine ⟨loc, names, entry, fun loc' names' => ?_⟩
  obtain rfl := Names.agree retains names names'
  refine ⟨rfl, ?_⟩
  rw [readText, lookUp_of_names names' noSlash entry]
  rfl

/-- The parts of the bundle are directories and files under different names. -/
lemma named_parts : ∀ p ∈ parts, p.Named := by
  simp only [parts, List.mem_cons, List.not_mem_nil, or_false, forall_eq_or_imp, forall_eq,
    Part.Named, true_and]
  decide

lemma nodup_fileNames : (parts.filterMap Part.fileName?).Nodup := by decide

end Stencil.Bundle
