import Stencil.Template.Render
import Mathlib.Tactic.Common

/-!
# Scopes with more names

A scope with more names gives the same results, except where a name without a value was needed
(`render_within`).  Both halves go through the operands of an expression, the conditions of a
template and its markers from left to right: as long as no name is missing, both evaluations have
met the same values.
-/

namespace Stencil

/-- Every name that has a value in the first scope has the same value in the second. -/
def Scope.Within (scope scope' : Scope) : Prop :=
  ∀ name v, scope name = some v → scope' name = some v

/-- The result `r` in `scope` is also the result `r'` in a larger scope, unless it says that a name
is undefined; and then `scope` has no value for that name. -/
structure Persists {ε α : Type} (undefined : String → ε) (scope : Scope) (r r' : Except ε α) :
    Prop where
  same : (∀ name, r ≠ .error (undefined name)) → r' = r
  absent : ∀ name, r = .error (undefined name) → scope name = none

namespace Persists

variable {ε α β : Type} {undefined : String → ε} {scope : Scope}

/-- A result that does not depend on the scope. -/
lemma refl {r : Except ε α} (h : ∀ name, r ≠ .error (undefined name)) :
    Persists undefined scope r r :=
  ⟨fun _ => rfl, fun name is => absurd is (h name)⟩

lemma pure (a : α) : Persists undefined scope (.ok a) (.ok a) :=
  refl fun _ => nofun

/-- One computation after another. -/
lemma bind {r r' : Except ε α} {f f' : α → Except ε β} (h : Persists undefined scope r r')
    (hf : ∀ a, Persists undefined scope (f a) (f' a)) :
    Persists undefined scope (r >>= f) (r' >>= f') := by
  cases r with
  | error e =>
    refine ⟨fun defined => ?_, fun name is => h.absent name ?_⟩
    · rw [h.same fun name is => defined name (congrArg Except.error (Except.error.inj is))]
      rfl
    · exact congrArg Except.error (Except.error.inj is)
  | ok a =>
    rw [h.same fun _ => nofun]
    exact hf a

end Persists

namespace Expr

variable {scope scope' : Scope}

/-- No refusal says that a name is undefined. -/
lemma refuse_persists {α : Type} (r : Except OperandError α) :
    Persists .undefined scope (refuse r) (refuse r) := by
  refine .refl fun name => ?_
  cases r <;> nofun

mutual

/-- The value of an expression persists. -/
lemma eval_within (h : scope.Within scope') (e : Expr) :
    Persists .undefined scope (e.eval scope) (e.eval scope') := by
  cases e with
  | literal v => exact .pure v
  | reference name =>
    rw [eval, eval]
    cases found : scope name with
    | some v =>
      rw [h name v found]
      exact .pure v
    | none => exact ⟨fun defined => absurd rfl (defined name), fun _ is => by cases is; exact found⟩
  | sequence items =>
    rw [eval, eval]
    exact (evalItems_within h items).bind fun vs => .pure _
  | not operand =>
    rw [eval, eval]
    exact (eval_within h operand).bind fun v => .pure _
  | negate operand =>
    rw [eval, eval]
    exact (eval_within h operand).bind fun v => refuse_persists _
  | and left right =>
    rw [eval, eval]
    refine (eval_within h left).bind fun v => ?_
    split
    · exact eval_within h right
    · exact .pure v
  | or left right =>
    rw [eval, eval]
    refine (eval_within h left).bind fun v => ?_
    split
    · exact .pure v
    · exact eval_within h right
  | binary op left right =>
    rw [eval, eval]
    exact (eval_within h left).bind fun v => (eval_within h right).bind fun w => refuse_persists _
  | field target name =>
    rw [eval, eval]
    exact (eval_within h target).bind fun v => refuse_persists _
  | index target position =>
    rw [eval, eval]
    exact (eval_within h target).bind fun v => (eval_within h position).bind fun i =>
      refuse_persists _

/-- The values of the items of a sequence persist. -/
lemma evalItems_within (h : scope.Within scope') (items : List Expr) :
    Persists .undefined scope (evalItems scope items) (evalItems scope' items) := by
  cases items with
  | nil => exact .pure []
  | cons e rest =>
    rw [evalItems, evalItems]
    exact (eval_within h e).bind fun v => (evalItems_within h rest).bind fun vs => .pure _

end

/-- The value of an expression, or its error, persists. -/
lemma evaluate_within (h : scope.Within scope') (e : Expr) (label : String) :
    Persists .undefined scope (e.evaluate label scope) (e.evaluate label scope') := by
  obtain ⟨same, absent⟩ := eval_within h e
  unfold evaluate
  cases found : e.eval scope with
  | ok v =>
    rw [same (by rw [found]; nofun), found]
    exact .pure v
  | error problem =>
    cases problem with
    | undefined name =>
      exact ⟨fun defined => absurd rfl (defined name),
        fun _ is => by cases is; exact absent name found⟩
    | operand problem =>
      rw [same (by rw [found]; nofun), found]
      exact .refl fun _ => nofun

/-- The value of the expression that a text spells, or its error, persists. -/
lemma evaluateText_within (h : scope.Within scope') (src : String) :
    Persists .undefined scope (evaluateText src scope) (evaluateText src scope') := by
  refine Persists.bind (.refl fun name => ?_) fun e => evaluate_within h e src
  unfold ofText
  cases parse src <;> nofun

end Expr

namespace Template

variable {scope scope' : Scope}

/-- Markers that do not pair up are malformed, whatever the names. -/
lemma pairUp_ne_undefined (rest : List Char) (markers : List Marker) (name : String) :
    pairUp rest markers ≠ .error (.undefined name) := by
  fun_induction pairUp rest markers with
  | case1 => nofun
  | case2 => nofun
  | case3 => nofun
  | case4 opener closer more noEnd isEnd ih =>
    cases paired : pairUp rest more with
    | ok s => nofun
    | error e =>
      rw [paired] at ih
      exact fun is => ih (congrArg Except.error (Except.error.inj is))
  | case5 => nofun

/-- What the conditions leave persists. -/
lemma kept_within (h : scope.Within scope') (pieces : List Segment) :
    Persists .undefined scope (kept scope pieces) (kept scope' pieces) := by
  induction pieces with
  | nil => exact .pure []
  | cons piece more ih =>
    cases piece with
    | text t => exact ih.bind fun others => .pure _
    | block condition body =>
      refine (Expr.evaluateText_within h _).bind fun v => ih.bind fun others => ?_
      split <;> exact .pure _

/-- The template with its blocks kept or dropped persists. -/
lemma resolve_within (h : scope.Within scope') (src : List Char) :
    Persists .undefined scope (resolve src scope) (resolve src scope') :=
  Persists.bind (.refl (pairUp_ne_undefined _ _)) fun pieces =>
    (kept_within h pieces).bind fun _ => .pure _

/-- The text with its markers replaced persists. -/
lemma substitute_within (h : scope.Within scope') (src : List Char) :
    Persists .undefined scope (substitute src scope) (substitute src scope') := by
  refine Persists.bind ?_ fun filled => .pure _
  generalize (Markers.ofText .substitution src).list = markers
  induction markers with
  | nil => exact .pure []
  | cons m more ih =>
    rw [List.mapM_cons, List.mapM_cons]
    exact ((Expr.evaluateText_within h _).bind fun v => .pure _).bind fun filled =>
      ih.bind fun others => .pure _

/-- Adding names to a scope changes no result but an undefined name: not of a template, nor of its
two passes, nor of an expression. -/
theorem render_within (h : scope.Within scope') :
    (∀ src, Persists .undefined scope (render src scope) (render src scope')) ∧
      (∀ src, Persists .undefined scope (resolve src scope) (resolve src scope')) ∧
      (∀ src, Persists .undefined scope (substitute src scope) (substitute src scope')) ∧
      (∀ src, Persists .undefined scope (Expr.evaluateText src scope)
        (Expr.evaluateText src scope')) ∧
      ∀ (e : Expr) label, Persists .undefined scope (e.evaluate label scope)
        (e.evaluate label scope') := by
  refine ⟨fun src => ?_, resolve_within h, substitute_within h, Expr.evaluateText_within h,
    Expr.evaluate_within h⟩
  -- The text of the second pass is a result of the first, so it is the same in both scopes.
  have chars : Persists .undefined scope (renderChars src.toList scope)
      (renderChars src.toList scope') :=
    (resolve_within h src.toList).bind fun text => substitute_within h text
  exact chars.bind fun out => .pure _

/-- A name that only a dropped body asks for can be added, and a name that is asked for was
missing. -/
theorem render_within_second_name :
    let scope : Scope := fun name => if name = "a" then some (.integer 0) else none
    let scope' : Scope := fun name =>
      if name = "a" then some (.integer 0) else if name = "b" then some (.text "x") else none
    let dropped := "\x7b? a ?\x7d\x7b\x7b b \x7d\x7d\x7b? end ?\x7d\x7b\x7b a \x7d\x7d"
    scope.Within scope' ∧ render dropped scope' = render dropped scope ∧
      render "\x7b\x7b a or b \x7d\x7d" scope = .error (.undefined "b") ∧ scope "b" = none := by
  intro scope scope' dropped
  have within : scope.Within scope' := by
    intro name v found
    simp only [scope, scope'] at found ⊢
    split at found
    · next isA => rwa [if_pos isA]
    · cases found
  have persists := (render_within within).1
  have rendered : render dropped scope = .ok "0" := by decide +kernel
  have missing : render "\x7b\x7b a or b \x7d\x7d" scope = .error (.undefined "b") := by
    decide +kernel
  refine ⟨within, (persists dropped).same ?_, missing, (persists _).absent "b" missing⟩
  rw [rendered]
  nofun

end Template

end Stencil
