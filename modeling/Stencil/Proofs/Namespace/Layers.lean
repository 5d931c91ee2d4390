import Stencil.Renderer.Directory
import Mathlib.Tactic.Common

/-!
# Layers of names

A name has the value that the configuration gives it, or else the built-in one, or else the
caller's (`Namespace.get?_build`).  So of a caller's namespace only the names count that neither the
configuration nor the built-in names have (`Renderer.names_eq_iff`), and whatever is rendered
depends on these alone (`Renderer.render_layered`).
-/

namespace Stencil

namespace Namespace

/-- A setting is looked up as a text. -/
lemma lookup_map_text (pairs : List (String × String)) (k : String) :
    (pairs.map fun p => (p.1, Value.text p.2)).lookup k = (pairs.lookup k).map Value.text := by
  induction pairs with
  | nil => rfl
  | cons p rest ih =>
    rw [List.map_cons, Table.lookup_cons_eq_ite, Table.lookup_cons_eq_ite, ih]
    split <;> rfl

/-- The names of a configuration are put over a namespace. -/
lemma get?_insertAll_configured (ns : Namespace) (config : UserConfig) (k : String) :
    (Table.insertAll ns (configured config)).get? k =
      ((config.get? k).map Value.text).or (ns.get? k) := by
  have setting : config.pairs.reverse.lookup k = config.get? k :=
    Table.lookup_of_perm (List.reverse_perm config.pairs) k
  rw [Table.get?_insertAll, configured, ← List.map_reverse, lookup_map_text, setting]

/-- A name has the value that the configuration gives it, or else the built-in one, or else the
caller's. -/
theorem get?_build (year : String) (config : UserConfig) (caller : Namespace) (k : String) :
    (build year config caller).get? k =
      ((config.get? k).map Value.text).or
        (if k = yearName then some (.text year) else caller.get? k) := by
  rw [build, get?_insertAll_configured, Table.get?_merge, builtins, Table.get?_insert,
    Table.get?_empty]
  congr 1
  split <;> rfl

end Namespace

namespace Renderer

/-- Callers give templates the same names exactly when they agree on every name that is neither the
built-in one nor in the configuration. -/
lemma names_eq_iff (r : Renderer) (caller caller' : Namespace) :
    r.names caller = r.names caller' ↔
      ∀ k, k ≠ Namespace.yearName → r.config.get? k = none → caller.get? k = caller'.get? k := by
  constructor
  · intro same k notYear notSet
    have here := congrArg (Table.get? · k) same
    simpa only [names, Namespace.get?_build, notSet, if_neg notYear, Option.map_none,
      Option.none_or] using here
  · intro agree
    apply Table.ext_get?
    intro k
    rw [names, names, Namespace.get?_build, Namespace.get?_build]
    cases held : r.config.get? k with
    | some text => rfl
    | none =>
      by_cases isYear : k = Namespace.yearName
      · rw [if_pos isYear, if_pos isYear]
      · rw [if_neg isYear, if_neg isYear, agree k isYear held]

/-- A name has the value that the configuration gives it, or else the built-in year, or else the
caller's.  So callers that agree on the names which are neither the year's nor in the configuration
render alike: texts and files give the same results, and copies and directories have the same
effects on any files. -/
theorem render_layered (r : Renderer) (caller : Namespace) :
    (∀ k, (Namespace.build r.year r.config caller).get? k =
      ((r.config.get? k).map Value.text).or
        (if k = Namespace.yearName then some (.text r.year) else caller.get? k)) ∧
    ∀ caller' : Namespace,
      (∀ k, k ≠ Namespace.yearName → r.config.get? k = none → caller.get? k = caller'.get? k) →
      (∀ src, r.render caller src = r.render caller' src) ∧
      (∀ t path, r.renderFile caller t path = r.renderFile caller' t path) ∧
      (∀ t source dest, (r.copy caller source dest).runOn t =
        (r.copy caller' source dest).runOn t) ∧
      ∀ t source dest, (r.renderDirectory caller source dest).runOn t =
        (r.renderDirectory caller' source dest).runOn t := by
  refine ⟨Namespace.get?_build r.year r.config caller, fun caller' agree => ?_⟩
  have same := (r.names_eq_iff caller caller').mpr agree
  refine ⟨fun src => ?_, fun t path => ?_, fun t source dest => ?_, fun t source dest => ?_⟩
  · rw [render, render, same]
  · rw [renderFile, renderFile, same]
  · rw [copy, copy, same]
  · rw [renderDirectory, renderDirectory, same]

/-- A caller's author and year do not count beside those of the configuration and the built-in
year. -/
theorem render_layered_hidden :
    let r : Renderer := ⟨.ofList [("author", "Jane Doe")], "2024"⟩
    let caller : Namespace := .ofList [("author", .integer 1), ("name", .text "demo")]
    let caller' : Namespace := .ofList [("name", .text "demo"), ("year", .text "1999")]
    (∀ k, k ≠ Namespace.yearName → r.config.get? k = none → caller.get? k = caller'.get? k) ∧
      (Namespace.build r.year r.config caller').get? "year" = some (.text "2024") ∧
      ∀ t source dest, (r.copy caller source dest).runOn t =
        (r.copy caller' source dest).runOn t := by
  intro r caller caller'
  have agree : ∀ k, k ≠ Namespace.yearName → r.config.get? k = none →
      caller.get? k = caller'.get? k := by
    intro k notYear notSet
    have notAuthor : k ≠ "author" := by
      rintro rfl
      cases notSet
    simp [caller, caller', Table.ofList, Table.insertAll, notAuthor, show k ≠ "year" from notYear]
  refine ⟨agree, ?_, ((render_layered r caller).2 caller' agree).2.2.1⟩
  exact (render_layered r caller').1 "year"

end Renderer

end Stencil
