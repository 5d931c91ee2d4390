import Stencil.Session
import Mathlib.Tactic.Common
import Mathlib.Data.List.Induction

/-!
# The shared configuration of a whole session

Which configuration is in force after some steps of a session is read off these steps alone
(`inForce`): the latest one installed since the last reset, or else the one that was found at the
default path by the first step since then that needed a configuration and found one.  The cache
holds this configuration (`slot_of_run`).  So a call that brings no configuration does what the same
call does with the configuration in force, and when there is none it loads one or fails and changes
nothing (`shared_call_of_run`).
-/

namespace Stencil.Session

variable {s s₀ : Session} {past more : List Step} {c : UserConfig}

/-! ### Calls -/

/-- The calls of a renderer, with their arguments. -/
inductive Call where
  | config
  | names (caller : Namespace)
  | render (caller : Namespace) (template : String)
  | renderFile (caller : Namespace) (path : String)
  | copy (caller : Namespace) (file dest : String)
  | renderDirectory (caller : Namespace) (directory dest : String)

/-- The call as a step of a session, with the configuration of its own or the shared one. -/
def Call.step (source : Source) : Call → Step
  | .config => .config source
  | .names caller => .names source caller
  | .render caller template => .render source caller template
  | .renderFile caller path => .renderFile source caller path
  | .copy caller file dest => .copy source caller file dest
  | .renderDirectory caller directory dest => .renderDirectory source caller directory dest

namespace Step

/-- Whether the step empties the cache. -/
def isReset : Step → Bool
  | .reset => true
  | _ => false

/-- The configuration that the step installs, if it installs one. -/
def installed? : Step → Option UserConfig
  | .install c => some c
  | _ => none

/-- Whether the step needs the shared configuration. -/
def isShared : Step → Bool
  | .cached => true
  | .config source | .names source _ | .render source _ _ | .renderFile source _ _
  | .copy source _ _ _ | .renderDirectory source _ _ _ => source == .shared
  | _ => false

/-- What a step that needs the shared configuration finds at the default path, if the session it
begins in lets a configuration be loaded from there. -/
def found? (s : Session) (step : Step) : Option UserConfig :=
  if step.isShared then s.loadDefault.toOption else none

end Step

lemma Call.isReset_step (call : Call) (source : Source) : (call.step source).isReset = false := by
  cases call <;> rfl

lemma Call.installed?_step (call : Call) (source : Source) :
    (call.step source).installed? = none := by
  cases call <;> rfl

lemma Call.isShared_step (call : Call) : (call.step .shared).isShared = true := by
  cases call <;> rfl

/-! ### The configuration in force -/

/-- The steps, each with the session that it begins in. -/
def trace (s : Session) : List Step → List (Session × Step)
  | [] => []
  | first :: rest => (s, first) :: (s.step first).2.trace rest

/-- The steps since the last reset, the latest one first. -/
def sinceReset (s : Session) (past : List Step) : List (Session × Step) :=
  (s.trace past).reverse.takeWhile fun (_, step) => !step.isReset

/-- The configuration in force after some steps: the latest one installed since the last reset, or
else the one that the first step since then found which needed one and found one. -/
def inForce (s : Session) (past : List Step) : Option UserConfig :=
  ((s.sinceReset past).findSome? fun (_, step) => step.installed?).or
    ((s.sinceReset past).reverse.findSome? fun (s, step) => step.found? s)

lemma run_concat (s : Session) (past : List Step) (step : Step) :
    (s.run (past ++ [step])).2 = ((s.run past).2.step step).2 := by
  induction past generalizing s with
  | nil => rfl
  | cons first rest ih => exact ih (s.step first).2

lemma trace_concat (s : Session) (past : List Step) (step : Step) :
    s.trace (past ++ [step]) = s.trace past ++ [((s.run past).2, step)] := by
  induction past generalizing s with
  | nil => rfl
  | cons first rest ih => exact congrArg ((s, first) :: ·) (ih (s.step first).2)

/-- The last step decides: after a reset nothing is in force, an installed configuration is, and
what a step finds is in force if nothing was before. -/
lemma inForce_concat (s : Session) (past : List Step) (step : Step) :
    s.inForce (past ++ [step]) =
      if step.isReset then none
      else step.installed?.or ((s.inForce past).or (step.found? (s.run past).2)) := by
  unfold inForce sinceReset
  rw [trace_concat, List.reverse_concat]
  cases reset : step.isReset with
  | true => simp [reset]
  | false =>
    simp only [List.takeWhile_cons, reset, Bool.not_false, if_true, Bool.false_eq_true, if_false,
      List.findSome?_cons, List.reverse_cons, List.findSome?_append, List.findSome?_nil]
    cases step.installed? with
    | some config => rfl
    | none =>
      simp only [Option.none_or, Option.or_assoc]
      cases step.found? (s.run past).2 <;> rfl

/-- Steps that neither reset nor install leave a configuration in force. -/
lemma inForce_append (h : s.inForce past = some c)
    (quiet : ∀ step ∈ more, step.isReset = false ∧ step.installed? = none) :
    s.inForce (past ++ more) = some c := by
  induction more using List.reverseRecOn with
  | nil => rwa [List.append_nil]
  | append_singleton more step ih =>
    have before := ih fun step mem => quiet step (List.mem_append_left _ mem)
    obtain ⟨noReset, noInstall⟩ := quiet step (by simp)
    rw [← List.append_assoc, inForce_concat, noReset, noInstall, before]
    rfl

/-! ### What the cache holds -/

/-- The configuration that the cache holds. -/
def held (s : Session) : Option UserConfig :=
  s.cache.slot.map Fill.config

lemma cached_of_held (h : s.held = some c) : s.cached = (.ok c, s) := by
  obtain ⟨fill, slot, rfl⟩ := Option.map_eq_some_iff.mp h
  simp only [cached, ConfigCache.getOrLoad, slot]
  rfl

lemma cached_of_error {e : Failure} (h : s.held = none) (failed : s.loadDefault = .error e) :
    s.cached = (.error e, s) := by
  have slot : s.cache.slot = none := Option.map_eq_none_iff.mp h
  simp only [cached, ConfigCache.getOrLoad, slot, failed]
  rfl

lemma cached_of_ok (h : s.held = none) (loaded : s.loadDefault = .ok c) :
    s.cached = (.ok c, { s with cache := (s.cache.install c).2 }) := by
  have slot : s.cache.slot = none := Option.map_eq_none_iff.mp h
  simp only [cached, ConfigCache.getOrLoad, slot, loaded]
  rfl

/-- A step that needs the shared configuration leaves it in the cache, unless it cannot be had. -/
lemma held_cached (s : Session) : s.cached.2.held = s.held.or s.loadDefault.toOption := by
  cases holds : s.held with
  | some c => rw [cached_of_held holds, holds, Option.some_or]
  | none =>
    cases loaded : s.loadDefault with
    | error e => rw [cached_of_error holds loaded, holds]; rfl
    | ok c => rw [cached_of_ok holds loaded]; rfl

/-- Only the shared configuration is ever put into the cache by a question or an action. -/
lemma held_renderer (s : Session) (source : Source) :
    (s.renderer source).2.held = if source == .shared then s.cached.2.held else s.held := by
  cases source with
  | own config => rfl
  | shared => rfl

lemma held_ask {α : Type} (s : Session) (source : Source)
    (question : FileTree → Renderer → Except Failure α) :
    (s.ask source question).2.held = (s.renderer source).2.held := by
  unfold ask
  rcases s.renderer source with ⟨_ | r, s'⟩ <;> rfl

lemma held_act {α : Type} (s : Session) (source : Source) (program : Renderer → Files Failure α) :
    (s.act source program).2.held = (s.renderer source).2.held := by
  unfold act
  rcases s.renderer source with ⟨_ | r, s'⟩ <;> rfl

/-- What the cache holds after a step is decided as the configuration in force is. -/
lemma held_step (s : Session) (step : Step) :
    (s.step step).2.held =
      if step.isReset then none else step.installed?.or (s.held.or (step.found? s)) := by
  have shared (source : Source) : (s.renderer source).2.held =
      s.held.or (if source == .shared then s.loadDefault.toOption else none) := by
    rw [held_renderer, held_cached]
    cases source == .shared <;> simp
  cases step with
  | reset => rfl
  | install config => rfl
  | cached => exact held_cached s
  | config source => exact (held_ask s source _).trans (shared source)
  | names source caller => exact (held_ask s source _).trans (shared source)
  | render source caller template => exact (held_ask s source _).trans (shared source)
  | renderFile source caller path => exact (held_ask s source _).trans (shared source)
  | copy source caller file dest => exact (held_act s source _).trans (shared source)
  | renderDirectory source caller directory dest =>
    exact (held_act s source _).trans (shared source)
  | remove path =>
    have kept : (s.remove path).held = s.held := by
      unfold remove
      cases s.tree.lookUp false path <;> rfl
    exact kept.trans (Option.or_none).symm
  | write path content mode => exact (Option.or_none).symm
  | setOverride path => exact (Option.or_none).symm
  | defaultPath => exact (Option.or_none).symm
  | load path => exact (Option.or_none).symm
  | builtins => exact (Option.or_none).symm

/-- After any steps from an empty cache, the cache holds the configuration in force. -/
theorem slot_of_run (empty : s₀.cache.slot = none) (past : List Step) :
    (s₀.run past).2.cache.slot.map Fill.config = s₀.inForce past := by
  induction past using List.reverseRecOn with
  | nil => exact congrArg (Option.map Fill.config) empty
  | append_singleton past step ih =>
    rw [run_concat, inForce_concat, ← ih]
    exact held_step (s₀.run past).2 step

/-! ### What a call does -/

/-- A call with the shared configuration is the call with this configuration, but for the cache. -/
lemma step_shared_of_cached {cache : ConfigCache} (call : Call)
    (h : s.cached = (.ok c, { s with cache })) :
    s.step (call.step .shared) =
      ((s.step (call.step (.own c))).1, { (s.step (call.step (.own c))).2 with cache }) := by
  cases call <;> simp only [Call.step, step, ask, act, renderer, h, answer, Except.map]

/-- A call with the shared configuration fails if this cannot be had. -/
lemma step_shared_of_error {e : Failure} (call : Call) (h : s.cached = (.error e, s)) :
    s.step (call.step .shared) = (.error e, s) := by
  cases call <;> simp only [Call.step, step, ask, act, renderer, h, answer, Except.map]

/-- A call with its own configuration leaves the cache. -/
lemma step_own_cache (s : Session) (call : Call) (c : UserConfig) :
    (s.step (call.step (.own c))).2.cache = s.cache := by
  cases call <;> rfl

/-- Loading fails with an error of the configuration, or with one of the files other than that there
is no file. -/
lemma loadDefault_error {e : Failure} (h : s.loadDefault = .error e) :
    (∃ fault, e = .config fault) ∨ ∃ fault, fault ≠ .notFound ∧ e = .file fault := by
  unfold loadDefault at h
  cases path : s.defaultPath with
  | none => rw [path] at h; cases h
  | some p =>
    simp only [path, UserConfig.load] at h
    cases read : s.tree.readText p with
    | ok src =>
      simp only [read] at h
      cases parsed : UserConfig.parse src p with
      | ok config => rw [parsed] at h; cases h
      | error fault =>
        rw [parsed] at h
        cases h
        exact Or.inl ⟨fault, rfl⟩
    | error fault =>
      rw [read] at h
      split at h
      · contradiction
      · cases h
      · next fault notMissing same =>
        cases same
        cases h
        exact Or.inr ⟨fault, notMissing, rfl⟩

/-- A session that begins with an empty cache. -/
def launch (tree : FileTree) (home override : Option String) (year : String) : Session :=
  ⟨tree, home, override, .empty, year⟩

/-- A call with the shared configuration, at any point of a session that began with an empty cache,
gives and does to the files what the same call does with the configuration in force.  If there is
none it loads the one at the default path, which is then in force; if that fails the error is the
reply, nothing has changed and there is still none.  A configuration in force stays so, whatever
happens to the files and to the default path, until there is a reset or an installation. -/
theorem shared_call_of_run (tree : FileTree) (home override : Option String) (year : String)
    (past : List Step) (call : Call) :
    let begun := launch tree home override year
    let s := (begun.run past).2
    (∀ c, begun.inForce past = some c →
      s.step (call.step .shared) = s.step (call.step (.own c))) ∧
    (∀ c, begun.inForce past = none → s.loadDefault = .ok c →
      s.step (call.step .shared) = ((s.step (call.step (.own c))).1,
        { (s.step (call.step (.own c))).2 with cache := (s.cache.install c).2 }) ∧
      begun.inForce (past ++ [call.step .shared]) = some c) ∧
    (∀ e, begun.inForce past = none → s.loadDefault = .error e →
      s.step (call.step .shared) = (.error e, s) ∧
      begun.inForce (past ++ [call.step .shared]) = none ∧
      ((∃ fault, e = .config fault) ∨ ∃ fault, fault ≠ .notFound ∧ e = .file fault)) ∧
    (∀ c more, begun.inForce past = some c →
      (∀ step ∈ more, step.isReset = false ∧ step.installed? = none) →
      begun.inForce (past ++ more) = some c) ∧
    s.step .cached = s.step (Call.config.step .shared) := by
  intro begun s
  have holds : s.held = begun.inForce past := slot_of_run rfl past
  have called : begun.inForce (past ++ [call.step .shared]) =
      (begun.inForce past).or s.loadDefault.toOption := by
    rw [inForce_concat, call.isReset_step, call.installed?_step, Step.found?, call.isShared_step]
    rfl
  refine ⟨fun c force => ?_, fun c none loaded => ⟨?_, ?_⟩, fun e none failed => ⟨?_, ?_, ?_⟩,
    fun c more force quiet => inForce_append force quiet, ?_⟩
  · have hit : s.cached = (.ok c, s) := cached_of_held (holds.trans force)
    rw [step_shared_of_cached call hit, ← step_own_cache s call c]
  · exact step_shared_of_cached call (cached_of_ok (holds.trans none) loaded)
  · rw [called, none, loaded]
    rfl
  · exact step_shared_of_error call (cached_of_error (holds.trans none) failed)
  · rw [called, none, failed]
    rfl
  · exact loadDefault_error failed
  · rcases hit : s.cached with ⟨_ | c, s'⟩ <;>
      simp only [Call.step, step, ask, renderer, hit, answer, Except.map]

end Stencil.Session
