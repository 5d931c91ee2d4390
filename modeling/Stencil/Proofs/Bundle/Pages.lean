import Stencil.Bundle
import Stencil.Proofs.Namespace.Layers
import Stencil.Proofs.Template.Residue
import Stencil.Proofs.Text.LineEndings

/-!
# The pages of the bundle

The page of a template is its text without the lines of condition markers and with the texts of a
project in place of the other markers.  A template of the bundle renders to its page in every scope
that describes the project (`render_eq_page`), whatever characters the texts have: where they go is
settled by the template alone.
-/

namespace Stencil

/-! ### Texts in a layout -/

namespace Template

namespace Layout

/-- The expressions in the markers, in order. -/
def expressions : Layout → List String
  | .last _ => []
  | .slot _ content more => String.ofList (Text.trim content) :: more.expressions

/-- The text of the layout, with the text for its expression in each place. -/
def write (texts : String → String) : Layout → List Char
  | .last literal => literal
  | .slot literal content more =>
    literal ++ (texts (String.ofList (Text.trim content))).toList ++ more.write texts

/-- A layout whose expressions have values with these texts is filled with them. -/
lemma fill_eq_write {scope : Scope} {texts : String → String} {layout : Layout}
    (values : ∀ e ∈ layout.expressions, ∃ v, Expr.evaluateText e scope = .ok v ∧
      v.toText = texts e) :
    layout.fill scope = .ok (layout.write texts) := by
  induction layout with
  | last literal => rfl
  | slot literal content more ih =>
    obtain ⟨here, others⟩ := List.forall_mem_cons.mp values
    obtain ⟨v, evaluated, same⟩ := here
    rw [fill, evaluated, ih others, write, ← same]
    rfl

/-- What is written has the characters of the literals and of the texts. -/
lemma notMem_write {texts : String → String} {c : Char} {layout : Layout}
    (literal : ∀ l ∈ layout.literals, c ∉ l) (absent : ∀ e, c ∉ (texts e).toList) :
    c ∉ layout.write texts := by
  induction layout with
  | last l => exact literal l List.mem_cons_self
  | slot l content more ih =>
    obtain ⟨here, others⟩ := List.forall_mem_cons.mp literal
    rw [write, List.mem_append, List.mem_append]
    rintro ((inside | inside) | inside)
    · exact here inside
    · exact absent _ inside
    · exact ih others inside

end Layout

/-- The conditions of the blocks, in order. -/
def asked : List Segment → List String
  | [] => []
  | .text _ :: more => asked more
  | .block condition _ :: more => condition.expression :: asked more

/-- Conditions that are all true. -/
lemma conditions_of_true {scope : Scope} {pieces : List Segment}
    (values : ∀ e ∈ asked pieces, ∃ v, Expr.evaluateText e scope = .ok v ∧ v.isTruthy = true) :
    conditions scope pieces = .ok ((asked pieces).map fun _ => true) := by
  induction pieces with
  | nil => rfl
  | cons piece more ih =>
    cases piece with
    | text t => exact ih values
    | block condition body =>
      obtain ⟨⟨v, evaluated, truthy⟩, others⟩ := List.forall_mem_cons.mp values
      rw [conditions, evaluated, ih others, asked, List.map_cons, ← truthy]
      rfl

/-- Blocks are only kept or dropped when all conditions have values. -/
lemma exists_of_kept {scope : Scope} {pieces : List Segment} {texts : List (List Char)}
    (h : kept scope pieces = .ok texts) :
    ∀ e ∈ asked pieces, ∃ v, Expr.evaluateText e scope = .ok v := by
  induction pieces generalizing texts with
  | nil => exact fun e among => absurd among List.not_mem_nil
  | cons piece more ih =>
    cases piece with
    | text t =>
      obtain ⟨others, left, -⟩ := bind_eq_ok_iff.mp h
      exact ih left
    | block condition body =>
      obtain ⟨v, evaluated, h⟩ := bind_eq_ok_iff.mp h
      obtain ⟨others, left, -⟩ := bind_eq_ok_iff.mp h
      exact List.forall_mem_cons.mpr ⟨⟨v, evaluated⟩, ih left⟩

/-- A template only renders when all its conditions have values. -/
lemma exists_of_render {src out : String} {scope : Scope} {pieces : List Segment}
    (split : segments src.toList = .ok pieces) (h : render src scope = .ok out) :
    ∀ e ∈ asked pieces, ∃ v, Expr.evaluateText e scope = .ok v := by
  obtain ⟨chars, h, -⟩ := bind_eq_ok_iff.mp h
  obtain ⟨resolved, h, -⟩ := bind_eq_ok_iff.mp h
  obtain ⟨pieces', split', h⟩ := bind_eq_ok_iff.mp h
  obtain ⟨texts, left, -⟩ := bind_eq_ok_iff.mp h
  obtain rfl : pieces = pieces' := Except.ok.inj (split.symm.trans split')
  exact exists_of_kept left

end Template

/-- The expression that a text spells is read off its tokens. -/
lemma Expr.parse_of_tokens {src : String} {tokens : List (Token × List Char)}
    (read : Tokens.ofText src.toList = ⟨tokens, none⟩) :
    parse src = ofTokens (tokens.map Prod.fst) none := by
  rw [parse, read]

namespace Bundle

open Template

/-! ### Pages -/

/-- Whether a line is a condition marker. -/
def isConditionLine (line : List Char) : Bool :=
  Form.condition.opening.isPrefixOf line && Form.condition.closing.isSuffixOf line

/-- The text of a template without the lines of its condition markers. -/
def withoutConditions (src : List Char) : List Char :=
  ['\n'].intercalate ((Text.splitOn '\n' src).filter fun line => !isConditionLine line)

/-- The template without the lines of its condition markers, with the text for its expression in
place of each other marker. -/
def page (texts : String → String) (template : String) : String :=
  String.ofList ((Layout.ofText (withoutConditions template.toList)).write texts)

/-- What is inserted for a project. -/
def inserted (name author year : String) : String → String
  | "plan.name" => name
  | "plan.desc" => name ++ ", generated from templates"
  | "plan.license" => "MIT"
  | "plan.deps" => "requests"
  | "author" => author
  | "year" => year
  | _ => ""

/-! ### Scopes -/

/-- A scope that says this about a project. -/
structure Describes (scope : Scope) (name author year : String) : Prop where
  plan : scope "plan" = some (.ofTable (plan name))
  author : scope "author" = some (.text author)
  year : scope "year" = some (.text year)

/-- The templates see the project, with the author and the year of the configuration if it has
them, unless the configuration has a plan of its own. -/
lemma describes_names {config : UserConfig} (noPlan : config.get? "plan" = none)
    (name year : String) :
    Describes (Renderer.names ⟨config, year⟩ (names name)).scope name
      ((config.get? "author").getD "Unknown author") ((config.get? "year").getD year) := by
  have layered := Namespace.get?_build year config (names name)
  refine ⟨?_, ?_, ?_⟩
  · refine (layered "plan").trans ?_
    simp [noPlan, names, Table.ofList, Table.insertAll, Namespace.yearName]
  · refine (layered "author").trans ?_
    cases config.get? "author" <;>
      simp [names, Table.ofList, Table.insertAll, Namespace.yearName]
  · refine (layered "year").trans ?_
    cases config.get? "year" <;> simp [Namespace.yearName]

/-- A field of the plan, as its tokens spell it. -/
lemma parse_field (key : String) (read : Tokens.ofText ("plan." ++ key).toList =
      ⟨[(.word "plan", '.' :: key.toList), (.symbol .dot, key.toList), (.word key, [])], none⟩) :
    Expr.parse ("plan." ++ key) = .ok (.field (.reference "plan") key) := by
  rw [Expr.parse_of_tokens read]
  rfl

namespace Describes

variable {scope : Scope} {name author year src : String} {v : Value}

/-- A name evaluates to what the scope has for it. -/
lemma evaluateText_name (read : Tokens.ofText src.toList = ⟨[(.word src, [])], none⟩)
    (spelled : Expr.ofTokens [.word src] none = .ok (.reference src))
    (value : scope src = some v) : Expr.evaluateText src scope = .ok v := by
  refine Expr.evaluateText_of_parse ((Expr.parse_of_tokens read).trans spelled) ?_
  rw [Expr.eval, value]

/-- A field of the plan evaluates to what the plan has for it. -/
lemma evaluateText_field (h : Describes scope name author year) (key : String)
    (spelled : Expr.parse ("plan." ++ key) = .ok (.field (.reference "plan") key))
    (entry : (Bundle.plan name).get? key = some v) :
    Expr.evaluateText ("plan." ++ key) scope = .ok v := by
  have found : (Value.ofTable (Bundle.plan name)).field key = .ok v := by
    rw [Table.get?] at entry
    rw [Value.ofTable, Value.field, entry]
  refine Expr.evaluateText_of_parse spelled ?_
  rw [Expr.eval, Expr.eval, h.plan]
  change Expr.refuse ((Value.ofTable (Bundle.plan name)).field key) = _
  rw [found, Expr.refuse]

/-- What the expressions of the templates evaluate to. -/
lemma evaluates (h : Describes scope name author year) :
    Expr.evaluateText "plan.name" scope = .ok (.text name) ∧
    Expr.evaluateText "plan.desc" scope = .ok (.text (name ++ ", generated from templates")) ∧
    Expr.evaluateText "plan.license" scope = .ok (.text "MIT") ∧
    Expr.evaluateText "plan.tests" scope = .ok (.boolean true) ∧
    Expr.evaluateText "plan.deps" scope = .ok (.sequence [.text "requests"]) ∧
    Expr.evaluateText "author" scope = .ok (.text author) ∧
    Expr.evaluateText "year" scope = .ok (.text year) := by
  refine ⟨h.evaluateText_field "name" (parse_field _ (by decide +kernel)) ?_,
    h.evaluateText_field "desc" (parse_field _ (by decide +kernel)) ?_,
    h.evaluateText_field "license" (parse_field _ (by decide +kernel)) ?_,
    h.evaluateText_field "tests" (parse_field _ (by decide +kernel)) ?_,
    h.evaluateText_field "deps" (parse_field _ (by decide +kernel)) ?_,
    evaluateText_name (by decide +kernel) rfl h.author,
    evaluateText_name (by decide +kernel) rfl h.year⟩
  all_goals simp [Bundle.plan, Table.ofList, Table.insertAll]

/-- The conditions of the templates are true. -/
lemma isTruthy_of_asked (h : Describes scope name author year) :
    ∀ e ∈ ["plan.tests", "plan.deps"], ∃ v, Expr.evaluateText e scope = .ok v ∧
      v.isTruthy = true := by
  obtain ⟨-, -, -, tests, deps, -, -⟩ := h.evaluates
  intro e among
  obtain rfl | rfl := by simpa using among
  · exact ⟨_, tests, rfl⟩
  · exact ⟨_, deps, rfl⟩

/-- What the templates insert has the texts of the project. -/
lemma toText_of_inserted (h : Describes scope name author year) :
    ∀ e ∈ ["plan.name", "plan.desc", "plan.license", "plan.deps", "author", "year"],
      ∃ v, Expr.evaluateText e scope = .ok v ∧ v.toText = inserted name author year e := by
  obtain ⟨named, described, licensed, -, deps, signed, dated⟩ := h.evaluates
  intro e among
  obtain rfl | rfl | rfl | rfl | rfl | rfl := by simpa using among
  · exact ⟨_, named, rfl⟩
  · exact ⟨_, described, rfl⟩
  · exact ⟨_, licensed, rfl⟩
  · exact ⟨_, deps, rfl⟩
  · exact ⟨_, signed, rfl⟩
  · exact ⟨_, dated, rfl⟩

end Describes

/-! ### Templates -/

/-- The pieces of a text whose markers pair up. -/
def piecesOf (src : List Char) : List Segment :=
  match segments src with
  | .ok pieces => pieces
  | .error _ => []

/-- A template with newlines between its lines whose blocks ask for what every project has, and that
inserts nothing else than the texts of a project; its literals have no opening braces and no
carriage returns. -/
structure Ready (src : List Char) : Prop where
  unix : Text.unixLines src = src
  split : segments src = .ok (piecesOf src)
  asks : ∀ e ∈ asked (piecesOf src), e ∈ ["plan.tests", "plan.deps"]
  left : collapse (selected ((asked (piecesOf src)).map fun _ => true) (piecesOf src)) =
    withoutConditions src
  inserts : ∀ e ∈ (Layout.ofText (withoutConditions src)).expressions,
    e ∈ ["plan.name", "plan.desc", "plan.license", "plan.deps", "author", "year"]
  plain : ∀ l ∈ (Layout.ofText (withoutConditions src)).literals, '{' ∉ l ∧ '\r' ∉ l

instance (src : List Char) : Decidable (Ready src) :=
  decidable_of_iff (_ ∧ _ ∧ _ ∧ _ ∧ _ ∧ _)
    ⟨fun ⟨unix, split, asks, left, inserts, plain⟩ => ⟨unix, split, asks, left, inserts, plain⟩,
      fun ⟨unix, split, asks, left, inserts, plain⟩ => ⟨unix, split, asks, left, inserts, plain⟩⟩

/-- The templates of the bundle. -/
def templates : List String := [licence, readme, documentation, setup]

/-- The characters of a text are those of its lines. -/
lemma toList_ofLines (lines : List String) :
    (ofLines lines).toList = lines.flatMap fun line => line.toList ++ ['\n'] := by
  rw [ofLines, String.toList_join, List.flatMap_map]
  simp [String.toList_append]

/-- The templates of the bundle are ready. -/
lemma ready_of_mem : ∀ template ∈ templates, Ready template.toList := by
  simp only [templates, List.mem_cons, List.not_mem_nil, or_false, forall_eq_or_imp, forall_eq]
  refine ⟨?_, ?_, ?_, ?_⟩
  all_goals
    simp only [licence, readme, documentation, setup, toList_ofLines, List.flatMap_cons,
      List.flatMap_nil, value, condition, String.toList_append]
    -- the characters of the literals, which the kernel is slow to find by decoding them
    repeat rw [String.toList_ofList]
    decide +kernel

/-- A template of the bundle renders to its page for every project. -/
theorem render_eq_page {scope : Scope} {name author year template : String}
    (h : Describes scope name author year) (among : template ∈ templates) :
    render template scope = .ok (page (inserted name author year) template) := by
  have ready := ready_of_mem template among
  have truths := conditions_of_true fun e he => h.isTruthy_of_asked e (ready.asks e he)
  have filled := Layout.fill_eq_write fun e he => h.toText_of_inserted e (ready.inserts e he)
  rw [(render_of_conditions ready.split truths).2, ready.left, filled, page]
  rfl

/-- A character that neither the literals of the templates nor the words around a name have. -/
def Foreign (c : Char) : Prop := c = '{' ∨ c = '\r'

/-- What is inserted for a project has no such character when the texts of the project have none. -/
lemma notMem_inserted {c : Char} {name author year : String} (foreign : Foreign c)
    (hname : c ∉ name.toList) (hauthor : c ∉ author.toList) (hyear : c ∉ year.toList) (e : String) :
    c ∉ (inserted name author year e).toList := by
  have words : c ∉ ", generated from templates".toList ∧ c ∉ "MIT".toList ∧
      c ∉ "requests".toList := by
    rcases foreign with rfl | rfl <;> decide
  unfold inserted
  split
  · exact hname
  · rw [String.toList_append, List.mem_append]
    exact not_or.mpr ⟨hname, words.1⟩
  · exact words.2.1
  · exact words.2.2
  · exact hauthor
  · exact hyear
  · exact List.not_mem_nil

/-- A page has no such character when the inserted texts have none. -/
lemma notMem_page {c : Char} {texts : String → String} {template : String} (foreign : Foreign c)
    (among : template ∈ templates) (absent : ∀ e, c ∉ (texts e).toList) :
    c ∉ (page texts template).toList := by
  rw [page, String.toList_ofList]
  refine Layout.notMem_write (fun l literal => ?_) absent
  have plain := (ready_of_mem template among).plain l literal
  rcases foreign with rfl | rfl
  · exact plain.1
  · exact plain.2

/-- A page without such characters renders to itself when it is read from a file. -/
lemma fill_page {texts : String → String} {template : String} (among : template ∈ templates)
    (absent : ∀ c, Foreign c → ∀ e, c ∉ (texts e).toList) (names : Namespace) :
    Renderer.fill names (String.ofList (Text.unixLines (page texts template).toList)) =
      .ok (page texts template) := by
  have plain := notMem_page (.inl rfl) among (absent _ (.inl rfl))
  have noReturn := notMem_page (.inr rfl) among (absent _ (.inr rfl))
  have unix : Text.unixLines (page texts template).toList = (page texts template).toList :=
    Text.unixLines_of_endsLines (.refl _) fun pair => noReturn (pair.mem List.mem_cons_self)
  rw [unix, String.ofList_toList, Renderer.fill, render_of_notMem plain]

/-- The readme of a project, whatever its name is. -/
lemma page_readme (name author year : String) :
    page (inserted name author year) readme = ofLines
      [ "# " ++ name, "", "### " ++ name ++ ", generated from templates", "",
        "Run the test suite from `tests/`.", "", "## Dependencies", "", "requests" ] := by
  have layout : Layout.ofText (withoutConditions readme.toList) =
      .slot "# ".toList " plan.name ".toList (.slot "\n\n### ".toList " plan.desc ".toList
        (.slot "\n\nRun the test suite from `tests/`.\n\n## Dependencies\n\n".toList
          " plan.deps ".toList (.last "\n".toList))) := by
    simp only [readme, toList_ofLines, List.flatMap_cons, List.flatMap_nil, value, condition,
      String.toList_append]
    repeat rw [String.toList_ofList]
    decide +kernel
  have named : String.ofList (Text.trim " plan.name ".toList) = "plan.name" := by decide +kernel
  have described : String.ofList (Text.trim " plan.desc ".toList) = "plan.desc" := by
    decide +kernel
  have needed : String.ofList (Text.trim " plan.deps ".toList) = "plan.deps" := by decide +kernel
  apply String.toList_inj.mp
  rw [page, layout, String.toList_ofList, toList_ofLines]
  simp only [Layout.write, named, described, needed, inserted, String.toList_append,
    List.flatMap_cons, List.flatMap_nil]
  simp

/-- The readme asks for the tests of the plan. -/
lemma tests_mem_asked : "plan.tests" ∈ asked (piecesOf readme.toList) := by
  simp only [readme, toList_ofLines, List.flatMap_cons, List.flatMap_nil, value, condition,
    String.toList_append]
  repeat rw [String.toList_ofList]
  decide +kernel

/-- The readme does not render when the plan is a text. -/
lemma render_readme_ne_ok {scope : Scope} {s : String} (h : scope "plan" = some (.text s))
    (out : String) : render readme scope ≠ .ok out := by
  intro rendered
  have split := (ready_of_mem readme (by simp [templates])).split
  obtain ⟨v, evaluated⟩ := exists_of_render split rendered "plan.tests" tests_mem_asked
  have spelled : Expr.parse "plan.tests" = .ok (.field (.reference "plan") "tests") :=
    parse_field "tests" (by decide +kernel)
  rw [Expr.evaluateText, Expr.ofText, spelled] at evaluated
  change Expr.evaluate _ _ _ = _ at evaluated
  rw [Expr.evaluate, Expr.eval, Expr.eval, h] at evaluated
  cases evaluated

end Bundle

end Stencil
