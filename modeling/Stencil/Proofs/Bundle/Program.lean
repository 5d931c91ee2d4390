import Stencil.Bundle
import Stencil.Proofs.Bundle.Directory
import Stencil.Proofs.Session.Shared

/-!
# The program

The program loads the configuration and renders the directory of the templates.  As long as this
holds the bundle whenever the program looks, that is the same as creating the pages of the bundle
one after another (`renderDirectory_eq_createAll`), and `report_program` says what is printed and
where the pages stand then.  It is not when the destination is the directory of the documentation
among the templates: the program comes across its own files there (`report_program_inside`).
-/

namespace Stencil.Bundle

open FileTree

/-- The settings of a session: those of the file at the default path, or none when there is no such
file. -/
def Configures (s : Session) (config : UserConfig) : Prop :=
  (∀ path ∈ s.defaultPath, s.tree.readText path = .error .notFound) ∧ config = .empty ∨
    ∃ path ∈ s.defaultPath, ∃ src, s.tree.readText path = .ok src ∧
      UserConfig.parse src path = .ok config

/-- The settings that are loaded are those of the session. -/
lemma loadDefault_eq_ok_iff {s : Session} {config : UserConfig} :
    s.loadDefault = .ok config ↔ Configures s config := by
  unfold Session.loadDefault Configures
  cases s.defaultPath with
  | none => simp [eq_comm]
  | some path =>
    dsimp only
    unfold UserConfig.load
    cases read : s.tree.readText path with
    | ok src => cases parsed : UserConfig.parse src path <;> simp [read, parsed]
    | error e => cases e <;> simp [read, eq_comm]

/-- What is inserted for a project with this configuration. -/
def configuredTexts (config : UserConfig) (year name : String) : String → String :=
  inserted name ((config.get? "author").getD "Unknown author") ((config.get? "year").getD year)

/-- What the templates see for a project with this configuration. -/
def configuredNames (config : UserConfig) (year name : String) : Namespace :=
  Renderer.names ⟨config, year⟩ (Bundle.names name)

/-- The configuration can be had and does not set the plan, and all steps on the files succeed and
leave the tree `u`. -/
structure Succeeds (s : Session) (modes : String → Mode) (name dest : String) (config : UserConfig)
    (u : FileTree) : Prop where
  configures : Configures s config
  noPlan : config.get? "plan" = none
  creates : (createAll (configuredTexts config s.year name) modes dest parts).runOn s.tree =
    (.ok (), u)

variable {s : Session} {args ws : List String} {name dest year templates : String}
  {config : UserConfig} {modes : String → Mode} {t u : FileTree} {S : Location}

/-- Whether the steps succeed shows in their outcome alone. -/
lemma exists_succeeds (configures : Configures s config) (noPlan : config.get? "plan" = none)
    (created : ((createAll (configuredTexts config s.year name) modes dest parts).runOn s.tree).1 =
      .ok ()) : ∃ u, Succeeds s modes name dest config u :=
  ⟨_, configures, noPlan, Prod.ext created rfl⟩

/-- The files of the bundle have its templates. -/
lemma template_mem {path template : String} (among : .file path template ∈ parts) :
    template ∈ Bundle.templates := by
  simp only [parts, List.mem_cons, List.not_mem_nil, or_false, reduceCtorEq, Part.file.injEq,
    false_or] at among
  simp only [Bundle.templates, List.mem_cons, List.not_mem_nil, or_false]
  tauto

/-- The templates of the bundle render to the pages of the project, unless the configuration sets
the plan. -/
lemma fill_eq_page {template : String} (noPlan : config.get? "plan" = none) (year name : String)
    (among : template ∈ Bundle.templates) :
    Renderer.fill (configuredNames config year name) template =
      .ok (page (configuredTexts config year name) template) := by
  rw [Renderer.fill, configuredNames, render_eq_page (describes_names noPlan name year) among,
    configuredTexts]

/-- Rendering the directory of the templates creates the parts of the bundle, as long as they are in
place and the configuration does not set the plan. -/
lemma renderDirectory_eq_createAll (noPlan : config.get? "plan" = none)
    (root : t.lookUp false templates = .ok (S, .directory)) (holds : HoldsBundle t S modes)
    (inPlace : InPlace modes (configuredNames config year name) templates dest t) :
    (Renderer.renderDirectory ⟨config, year⟩ (Bundle.names name) templates dest).runOn t =
      (do
        (createAll (configuredTexts config year name) modes dest parts).adapt .file
        return parts.flatMap (Part.written dest) : Files Failure (List String)).runOn t := by
  rw [renderDirectory_eq_renderAll ⟨config, year⟩ (Bundle.names name) root holds inPlace]
  change (renderAll (configuredNames config year name) modes dest parts).runOn t = _
  rw [renderAll_eq_createAll fun _ _ among => fill_eq_page noPlan year name (template_mem among)]

/-- What a file is filled with is what its template renders to. -/
lemma render_of_fill {names : Namespace} {src out : String}
    (h : Renderer.fill names src = .ok out) :
    Template.render src names.scope = .ok out := by
  unfold Renderer.fill at h
  split at h
  · next rendered => rw [rendered, Except.ok.inj h]
  · cases h

/-- The readme is not rendered when the configuration sets the plan. -/
lemma get?_plan_of_runOn_renderAll
    (ran : (renderAll (configuredNames config year name) modes dest parts).runOn t = (.ok ws, u)) :
    config.get? "plan" = none := by
  obtain ⟨out, filled⟩ := exists_of_runOn_renderAll ran "README.md" readme (by simp [parts])
  by_contra set
  obtain ⟨text, value⟩ := Option.ne_none_iff_exists'.mp set
  have plan : (configuredNames config year name).scope "plan" = some (.text text) := by
    refine (Namespace.get?_build year config (Bundle.names name) "plan").trans ?_
    rw [value]
    rfl
  exact render_readme_ne_ok plan out (render_of_fill filled)

/-! ### The program -/

/-- The program renders the directory of the templates with the configuration that it loads. -/
lemma programAt_of_ok (templates : String) (args : List String) (fresh : s.held = none)
    (loaded : s.loadDefault = .ok config) :
    let request := Request.ofArgs args
    let ran := (Renderer.renderDirectory ⟨config, s.year⟩ (Bundle.names request.name) templates
      request.dest).runOn s.tree
    (programAt templates s args).1 = ran.1 ∧ (programAt templates s args).2.tree = ran.2 := by
  simp only [programAt, Session.act, Session.renderer, Session.cached_of_ok fresh loaded]
  exact ⟨rfl, rfl⟩

/-- The program fails when the configuration cannot be had. -/
lemma programAt_of_error {e : Failure} (templates : String) (args : List String)
    (fresh : s.held = none) (failed : s.loadDefault = .error e) :
    (programAt templates s args).1 = .error e := by
  simp only [programAt, Session.act, Session.renderer, Session.cached_of_error fresh failed]
  rfl

/-- The arguments of the command line are the name and the destination, the first of which is `demo`
and the second the name when it is missing. -/
lemma ofArgs_eq (args : List String) :
    Request.ofArgs args = ⟨args[0]?.getD "demo", args[1]?.getD (args[0]?.getD "demo")⟩ := by
  rw [Request.ofArgs, List.head?_eq_getElem?, List.head?_eq_getElem?, List.getElem?_tail]

/-- The program only gives paths when it succeeds in everything. -/
lemma exists_succeeds_of_programAt (root : s.tree.lookUp false templates = .ok (S, .directory))
    (holds : HoldsBundle s.tree S modes) (fresh : s.held = none)
    (request : Request.ofArgs args = ⟨name, dest⟩)
    (inPlace : ∀ config, Configures s config →
      InPlace modes (configuredNames config s.year name) templates dest s.tree)
    (h : (programAt templates s args).1 = .ok ws) :
    ∃ config u, Succeeds s modes name dest config u := by
  cases loaded : s.loadDefault with
  | error e =>
    rw [programAt_of_error templates args fresh loaded] at h
    cases h
  | ok config =>
    have configures := loadDefault_eq_ok_iff.mp loaded
    have inPlace' := inPlace config configures
    obtain ⟨result, -⟩ := programAt_of_ok templates args fresh loaded
    rw [h, request] at result
    have ran : (Renderer.renderDirectory ⟨config, s.year⟩ (Bundle.names name) templates
        dest).runOn s.tree = (.ok ws, _) := Prod.ext result.symm rfl
    have rendered := ran
    rw [renderDirectory_eq_renderAll ⟨config, s.year⟩ (Bundle.names name) root holds inPlace']
      at rendered
    have noPlan := get?_plan_of_runOn_renderAll rendered
    rw [renderDirectory_eq_createAll noPlan root holds inPlace'] at ran
    obtain ⟨⟨⟩, u, created, -⟩ := Files.runOn_bind_eq_ok_iff.mp ran
    exact ⟨config, u, configures, noPlan, Files.runOn_adapt_eq_ok_iff.mp created⟩

/-- Let the directory of the templates hold the bundle, and let each part of it still be in place
when the program comes to it, as it is when the destination is apart from that directory.  The
program prints the paths of the four files, one on each line, when the configuration can be had and
does not set the plan and all steps on the files succeed.  Each file then is the page of its
template, whatever characters the name and the texts of the configuration have.  In all other cases
the program fails and prints nothing. -/
theorem report_program (args : List String) (fresh : s.cache = .empty)
    (root : s.tree.lookUp false templates = .ok (S, .directory))
    (holds : HoldsBundle s.tree S modes) :
    let name := args[0]?.getD "demo"
    let dest := args[1]?.getD name
    (Apart s.tree templates dest S → ∀ config,
      InPlace modes (configuredNames config s.year name) templates dest s.tree) ∧
    ((∀ config, Configures s config →
      InPlace modes (configuredNames config s.year name) templates dest s.tree) →
    (∀ config u, Succeeds s modes name dest config u →
      report (programAt templates s args).1 = (0, ofLines [Path.join dest "LICENSE",
        Path.join dest "README.md", Path.join dest "docs/index.md", Path.join dest "setup.cfg"]) ∧
      (programAt templates s args).2.tree = u ∧
      ∀ before file template after, parts = before ++ .file file template :: after →
        ∃ mid, (createAll (configuredTexts config s.year name) modes dest before).runOn s.tree =
            (.ok (), mid) ∧
          Placed mid u (Path.join dest file)
            (page (configuredTexts config s.year name) template) (modes file)) ∧
    ((∀ config u, ¬ Succeeds s modes name dest config u) →
      report (programAt templates s args).1 = (1, ""))) := by
  intro name dest
  have request : Request.ofArgs args = ⟨name, dest⟩ := ofArgs_eq args
  have held : s.held = none := by
    rw [Session.held, fresh]
    rfl
  refine ⟨fun apart config => inPlace_of_apart root holds apart _, fun inPlace => ⟨?_, ?_⟩⟩
  · intro config u succeeds
    have loaded := loadDefault_eq_ok_iff.mpr succeeds.configures
    have ran : (Renderer.renderDirectory ⟨config, s.year⟩ (Bundle.names name) templates
        dest).runOn s.tree = (.ok (parts.flatMap (Part.written dest)), u) := by
      rw [renderDirectory_eq_createAll succeeds.noPlan root holds
          (inPlace config succeeds.configures),
        Files.runOn_bind_of_ok (Files.runOn_adapt_eq_ok_iff.mpr succeeds.creates), Files.runOn_pure]
    obtain ⟨result, left⟩ := programAt_of_ok templates args held loaded
    rw [request, ran] at result left
    refine ⟨?_, left, fun before file template after cut =>
      placed_of_createAll named_parts nodup_fileNames cut succeeds.creates⟩
    rw [result]
    rfl
  · intro never
    cases ended : (programAt templates s args).1 with
    | error e => rfl
    | ok ws =>
      obtain ⟨config, u, succeeds⟩ :=
        exists_succeeds_of_programAt root holds held request inPlace ended
      exact absurd succeeds (never config u)

/-! ### A name with markers -/

/-- A name that looks like a marker and the start of a block. -/
def hostileName : String := "\x7b\x7b x \x7d\x7d\x7b? 0 ?\x7d"

/-- The author looks like the end of a marker and of a block. -/
def hostileConfig : UserConfig := .ofList [("author", "\x7d\x7d\x7b? end ?\x7d")]

/-- A session with the bundle and a file for this configuration. -/
def hostileSession : Session where
  tree := install (.ofList [
    (["home"], .directory),
    (["home", "templates"], .directory),
    (["home", "templates", "boilerplate.conf"],
      .file (.text "author = \x7d\x7d\x7b? end ?\x7d\n") (.ofNat 0o644))])
  home := none
  override := some "boilerplate.conf"
  cache := .empty
  year := "2024"

/-- The permission bits of the installed templates. -/
def installedModes : String → Mode := fun _ => .ofNat 0o644

/-- The directory of the templates holds the bundle. -/
lemma holdsBundle_hostile : HoldsBundle hostileSession.tree installedAt installedModes :=
  ⟨rfl, rfl⟩

/-- The directory `out` is apart from that of the templates. -/
lemma apart_hostile : Apart hostileSession.tree templatesDirectory "out" installedAt := by
  have made : (Renderer.prepare (Path.join "out" "")).runOn hostileSession.tree =
      (.ok (), Table.insert hostileSession.tree ["home", "templates", "out"] .directory) := rfl
  have leads : FileTree.directoryAt
      (Table.insert hostileSession.tree ["home", "templates", "out"] .directory)
      "out" (Path.names "out") = .ok ["home", "templates", "out"] := by decide +kernel
  have short : Short templatesDirectory := by
    unfold Short
    decide
  refine ⟨by decide +kernel, short, fun t₁ D prepared leadsD => ?_⟩
  obtain rfl : _ = t₁ := congrArg Prod.snd (made.symm.trans prepared)
  obtain rfl : _ = D := Except.ok.inj (leads.symm.trans leadsD)
  refine ⟨by decide, by decide, fun loc target inside entry => ?_, fun up => absurd up (by decide)⟩
  have outside : ∀ p ∈ hostileSession.tree.entries, ¬ ["home", "templates", "out"] <+: p.1 := by
    decide +kernel
  exact outside _ (Table.mem_entries_iff.mpr entry) inside

/-- All steps on the files of this session succeed. -/
lemma exists_succeeds_hostile :
    ∃ u, Succeeds hostileSession installedModes hostileName "out" hostileConfig u := by
  have read : hostileSession.tree.readText "boilerplate.conf" =
      .ok "author = \x7d\x7d\x7b? end ?\x7d\n" := by decide +kernel
  have parsed : UserConfig.parse "author = \x7d\x7d\x7b? end ?\x7d\n" "boilerplate.conf" =
      .ok hostileConfig := by decide +kernel
  have noPlan : hostileConfig.get? "plan" = none := by decide +kernel
  have created : ((createAll (configuredTexts hostileConfig "2024" hostileName) installedModes "out"
      parts).runOn hostileSession.tree).1 = .ok () := by decide +kernel
  exact exists_succeeds (.inr ⟨_, rfl, _, read, parsed⟩) noPlan created

/-- A name that looks like a marker and the start of a block stands in the readme as it is. -/
theorem report_program_hostile :
    hostileSession.cache = .empty ∧
    hostileSession.tree.lookUp false templatesDirectory = .ok (installedAt, .directory) ∧
    HoldsBundle hostileSession.tree installedAt installedModes ∧
    Apart hostileSession.tree templatesDirectory "out" installedAt ∧
    (∃ u, Succeeds hostileSession installedModes hostileName "out" hostileConfig u) ∧
    report (program hostileSession [hostileName, "out"]).1 =
      (0, "out/LICENSE\nout/README.md\nout/docs/index.md\nout/setup.cfg\n") ∧
    ∃ loc, (program hostileSession [hostileName, "out"]).2.tree.get? loc =
      some (.file (.text (ofLines
        [ "# " ++ hostileName, "", "### " ++ hostileName ++ ", generated from templates", "",
          "Run the test suite from `tests/`.", "", "## Dependencies", "", "requests" ]))
        (.ofNat 0o644)) := by
  have fresh : hostileSession.cache = .empty := rfl
  have root : hostileSession.tree.lookUp false templatesDirectory =
      .ok (installedAt, .directory) := by decide +kernel
  obtain ⟨u, succeeds⟩ := exists_succeeds_hostile
  obtain ⟨inPlace, reports⟩ :=
    report_program [hostileName, "out"] fresh root holdsBundle_hostile
  obtain ⟨printed, left, stands⟩ :=
    (reports fun config _ => inPlace apart_hostile config).1 hostileConfig u succeeds
  obtain ⟨mid, -, loc, -, entry, -⟩ :=
    stands [.directory "", .file "LICENSE" licence] "README.md" readme _ rfl
  rw [configuredTexts, page_readme] at entry
  rw [program]
  refine ⟨fresh, root, holdsBundle_hostile, apart_hostile, ⟨u, succeeds⟩, printed, loc, ?_⟩
  rw [left]
  exact entry

/-! ### A destination among the templates -/

/-- A visit of a file renders it where nothing is yet. -/
lemma runOn_visitEntry_new {names : Namespace} {path within name target text out : String}
    {depth : Nat} {origin loc : Location} {mode : Mode} (dir : Location)
    (aimed : Path.join dest (if within.isEmpty then name else Path.join within name) = target)
    (found : t.lookUp true (Path.join path name) = .ok (origin, .file (.text text) mode))
    (filled : Renderer.fill names (String.ofList (Text.unixLines text.toList)) = .ok out)
    (staging : Files.stagingDirectory t target = .ok dir)
    (vacant : t.resolve false target = .ok (.vacant loc)) :
    (Renderer.visitEntry names dest depth path within (name, .file (.text text) mode)).runOn t =
      (.ok [target], Table.insert t loc (.file (.text out) mode)) := by
  have copied := Renderer.runOn_copyFilled_of_replaceable ⟨origin, text, found, filled⟩ staging
    (.inl vacant)
  unfold Renderer.visitEntry
  dsimp only
  rw [aimed, Files.runOn_bind_of_ok copied, Files.runOn_pure]

/-- A visit goes on after its first entry. -/
lemma runOn_visit_cons {names : Namespace} {path within : String} {depth : Nat}
    {c : String × Entry} {cs : List (String × Entry)} {here others : List String} {v : FileTree}
    (first : (Renderer.visitEntry names dest depth path within c).runOn t = (.ok here, u))
    (onward : (Renderer.visit names dest (depth + 1) path within cs).runOn u = (.ok others, v)) :
    (Renderer.visit names dest (depth + 1) path within (c :: cs)).runOn t =
      (.ok (here ++ others), v) := by
  rw [Renderer.visit_cons, Files.runOn_bind_of_ok first, Files.runOn_bind_of_ok onward,
    Files.runOn_pure]

/-- A session with nothing but the bundle. -/
def bareSession : Session := .start none "2024"

/-- The page of a template for the project `x`. -/
def barePage (template : String) : String :=
  page (configuredTexts .empty "2024" "x") template

/-- What the templates see for this project. -/
def bareNames : Namespace := configuredNames .empty "2024" "x"

/-- The templates render to their pages. -/
lemma fill_bare {template : String} (among : template ∈ Bundle.templates) :
    Renderer.fill bareNames (String.ofList (Text.unixLines template.toList)) =
      .ok (barePage template) := by
  rw [(ready_of_mem template among).unix, String.ofList_toList]
  exact fill_eq_page rfl "2024" "x" among

/-- The pages render to themselves. -/
lemma fill_barePage {template : String} (among : template ∈ Bundle.templates) :
    Renderer.fill bareNames (String.ofList (Text.unixLines (barePage template).toList)) =
      .ok (barePage template) := by
  refine fill_page among (fun c foreign e => ?_) bareNames
  have plain : c ∉ "x".toList ∧ c ∉ "Unknown author".toList ∧ c ∉ "2024".toList := by
    rcases foreign with rfl | rfl <;> decide
  exact notMem_inserted foreign plain.1 plain.2.1 plain.2.2 e

/-- The tree with the page of a template among the templates. -/
def withPage (t : FileTree) (rel : List String) (template : String) : FileTree :=
  Table.insert t (installedAt ++ rel) (.file (.text (barePage template)) (.ofNat 0o644))

/-- The tree of the session with the pages of the licence and the readme beside that of the
documentation. -/
def crowded : FileTree :=
  withPage (withPage bareSession.tree ["docs", "LICENSE"] licence) ["docs", "README.md"] readme

/-- The tree with the counterparts of what is beside the page of the documentation then. -/
def crowdedTwice : FileTree :=
  let made := Table.insert crowded (installedAt ++ ["docs", "docs"]) .directory
  withPage (withPage (withPage made ["docs", "docs", "LICENSE"] licence)
    ["docs", "docs", "README.md"] readme) ["docs", "docs", "index.md"] documentation

section

open Renderer

/-- A visit of the directory of the documentation comes across the pages that landed in it. -/
lemma runOn_visitEntry_crowded :
    (visitEntry bareNames "/usr/share/stencil/docs" (maxPath - 2 + 1) templatesDirectory ""
        ("docs", .directory)).runOn crowded =
      (.ok ["/usr/share/stencil/docs/docs/LICENSE", "/usr/share/stencil/docs/docs/README.md",
        "/usr/share/stencil/docs/docs/index.md"], crowdedTwice) := by
  let docs := installedAt ++ ["docs", "docs"]
  have listed : crowded.list (Path.join templatesDirectory "docs") =
      .ok [("LICENSE", .file (.text (barePage licence)) (.ofNat 0o644)),
        ("README.md", .file (.text (barePage readme)) (.ofNat 0o644)),
        ("index.md", templateFile installedModes "docs/index.md" documentation)] := rfl
  have prepared : (prepare (Path.join "/usr/share/stencil/docs" "docs")).runOn crowded =
      (.ok (), Table.insert crowded docs .directory) := rfl
  change (entering (Path.join templatesDirectory "docs")
    (prepare (Path.join "/usr/share/stencil/docs" "docs")) _).runOn crowded = _
  rw [runOn_entering, prepared, listed]
  exact runOn_visit_cons
    (runOn_visitEntry_new docs rfl rfl (fill_barePage (by simp [Bundle.templates]))
      (by decide +kernel) (by decide +kernel)) (runOn_visit_cons
    (runOn_visitEntry_new docs rfl rfl (fill_barePage (by simp [Bundle.templates]))
      (by decide +kernel) (by decide +kernel)) (runOn_visit_cons
    (runOn_visitEntry_new docs rfl rfl (fill_bare (by simp [Bundle.templates]))
      (by decide +kernel) (by decide +kernel)) rfl))

/-- The program visits its own pages when they land in the directory of the documentation. -/
lemma runOn_renderDirectory_inside :
    ((⟨.empty, "2024"⟩ : Renderer).renderDirectory (Bundle.names "x") templatesDirectory
        "/usr/share/stencil/docs").runOn bareSession.tree =
      (.ok ["/usr/share/stencil/docs/LICENSE", "/usr/share/stencil/docs/README.md",
        "/usr/share/stencil/docs/docs/LICENSE", "/usr/share/stencil/docs/docs/README.md",
        "/usr/share/stencil/docs/docs/index.md", "/usr/share/stencil/docs/setup.cfg"],
        withPage crowdedTwice ["docs", "setup.cfg"] setup) := by
  let docs := installedAt ++ ["docs"]
  have root : bareSession.tree.lookUp false templatesDirectory =
      .ok (installedAt, .directory) := by decide +kernel
  have held : bareSession.tree.children installedAt = rootEntries installedModes := rfl
  have prepared : (prepare (Path.join "/usr/share/stencil/docs" "")).runOn bareSession.tree =
      (.ok (), bareSession.tree) := rfl
  rw [runOn_renderDirectory _ _ _ root, prepared, held]
  change (visit bareNames _ (maxPath - 2 + 1 + 1) _ _ _).runOn _ = _
  exact runOn_visit_cons
    (runOn_visitEntry_new docs rfl rfl (fill_bare (by simp [Bundle.templates]))
      (by decide +kernel) (by decide +kernel)) (runOn_visit_cons
    (runOn_visitEntry_new docs rfl rfl (fill_bare (by simp [Bundle.templates]))
      (by decide +kernel) (by decide +kernel)) (runOn_visit_cons
    runOn_visitEntry_crowded (runOn_visit_cons
    (runOn_visitEntry_new docs rfl rfl (fill_bare (by simp [Bundle.templates]))
      (by decide +kernel) (by decide +kernel)) rfl)))

end

/-- The bundle is installed, the configuration can be had, and all steps on the files succeed, but
with the directory of the documentation as destination the program prints six paths and not the four
of the bundle. -/
theorem report_program_inside :
    let dest := "/usr/share/stencil/docs"
    bareSession.cache = .empty ∧
      bareSession.tree.lookUp false templatesDirectory = .ok (installedAt, .directory) ∧
      HoldsBundle bareSession.tree installedAt installedModes ∧
      (∃ u, Succeeds bareSession installedModes "x" dest .empty u) ∧
      report (program bareSession ["x", dest]).1 =
        (0, ofLines [Path.join dest "LICENSE", Path.join dest "README.md",
          Path.join dest "docs/LICENSE", Path.join dest "docs/README.md",
          Path.join dest "docs/index.md", Path.join dest "setup.cfg"]) ∧
      report (program bareSession ["x", dest]).1 ≠
        (0, ofLines [Path.join dest "LICENSE", Path.join dest "README.md",
          Path.join dest "docs/index.md", Path.join dest "setup.cfg"]) := by
  intro dest
  have root : bareSession.tree.lookUp false templatesDirectory =
      .ok (installedAt, .directory) := by decide +kernel
  have created : ((createAll (configuredTexts .empty "2024" "x") installedModes dest parts).runOn
      bareSession.tree).1 = .ok () := by decide +kernel
  have noPath : bareSession.defaultPath = none := rfl
  have succeeds : ∃ u, Succeeds bareSession installedModes "x" dest .empty u :=
    exists_succeeds (.inl ⟨by simp [noPath], rfl⟩) rfl created
  have loaded : bareSession.loadDefault = .ok .empty := rfl
  have printed := (programAt_of_ok templatesDirectory ["x", dest] rfl loaded).1
  have result : (program bareSession ["x", dest]).1 = .ok _ :=
    printed.trans (congrArg Prod.fst runOn_renderDirectory_inside)
  rw [result]
  exact ⟨rfl, root, ⟨rfl, rfl⟩, succeeds, by decide +kernel, by decide +kernel⟩

end Stencil.Bundle
