import Stencil.Proofs.Renderer.Log

/-!
# The entry on which a visit fails

A visit that fails reports why, but not always where: the failures of a copy hold no path.
`locateDirectory` is `renderDirectory` with failures that name the entry; without these names it is
`renderDirectory` itself (`adapt_reason_locateDirectory`), and `outcome` has what a call comes to:
the paths written or the entry on which it fails, and the tree that it leaves.
-/

namespace Stencil.Renderer

open Files

/-- A failure with the path from the visited directory to the entry on which it happened.  The path
of the visited directory itself is empty. -/
structure Stop where
  relative : String
  reason : Failure

/-- A program that deals with an entry, with failures that name the entry. -/
def locating {α : Type} (relative : String) (program : Files Failure α) : Files Stop α :=
  program.adapt (Stop.mk relative)

/-- What a visit does for an entry; `inner` goes on with what a directory holds. -/
def locateEntry (names : Namespace) (dest : String)
    (inner : String → String → List (String × Entry) → Files Stop (List String))
    (path within : String) (c : String × Entry) : Files Stop (List String) :=
  let source := Path.join path c.1
  let relative := if within.isEmpty then c.1 else Path.join within c.1
  let target := Path.join dest relative
  match c.2 with
  | .directory => do
    let held ← locating relative (entering source (prepare target) pure)
    inner source relative held
  | .file _ _ => locating relative do
    copyFilled names source target
    return [target]
  | .link _ => return []

/-- A visit with failures that name the entry. -/
def locate (names : Namespace) (dest : String) :
    Nat → String → String → List (String × Entry) → Files Stop (List String)
  | 0, path, within, _ => throw ⟨within, .walk path .nameTooLong⟩
  | depth + 1, path, within, entries => do
    let written ← entries.mapM (locateEntry names dest (locate names dest depth) path within)
    return written.flatten

/-- Renders the files under `source` into `dest` as `renderDirectory` does, with failures that name
the entry. -/
def locateDirectory (r : Renderer) (caller : Namespace) (source dest : String) :
    Files Stop (List String) := do
  let names := r.names caller
  let target := Path.join dest ""
  let visitRoot := locate names dest FileTree.maxPath source ""
  match ← locating "" (rootEntry false source) with
  | .directory =>
    let held ← locating "" (entering source (prepare target) pure)
    visitRoot held
  | .file _ _ => locating "" do
    copyFilled names source target
    return [target]
  | .link _ =>
    match ← locating "" (rootEntry true source) with
    | .directory =>
      let held ← locating "" (entering source (return ()) pure)
      visitRoot held
    | _ => return []

/-- What rendering a directory comes to: the paths written, or the path from the visited directory
to the entry on which it fails; and the tree that it leaves. -/
def outcome (r : Renderer) (caller : Namespace) (source dest : String) (t : FileTree) :
    Except String (List String) × FileTree :=
  ((r.locateDirectory caller source dest).adapt Stop.relative).runOn t

variable {names : Namespace} {dest : String} {t : FileTree}

/-! ### Forgetting the entry -/

/-- Going on after entering a directory. -/
lemma entering_bind {α : Type} (path : String) (prepare : Files Failure Unit)
    (next : List (String × Entry) → Files Failure α) :
    (entering path prepare pure >>= next) = entering path prepare next := by
  apply ext_runOn
  intro t
  rw [runOn_bind, runOn_entering, runOn_entering]
  rcases prepare.runOn t with ⟨_ | _, left⟩
  · rfl
  · dsimp only
    cases t.list path with
    | error e => rfl
    | ok held => rfl

@[simp] lemma adapt_reason_locating {α : Type} (relative : String) (program : Files Failure α) :
    (locating relative program).adapt Stop.reason = program := by
  rw [locating, adapt_adapt, adapt_id]

@[simp] lemma adapt_relative_locating {α : Type} (relative : String) (program : Files Failure α) :
    (locating relative program).adapt Stop.relative = program.adapt fun _ => relative := by
  rw [locating, adapt_adapt]

/-- Without the names of entries, dealing with an entry does what a visit does for it. -/
lemma adapt_reason_locateEntry (depth : Nat)
    (inner : ∀ path within entries,
      (locate names dest depth path within entries).adapt Stop.reason =
        visit names dest depth path within entries) (path within : String) (c : String × Entry) :
    (locateEntry names dest (locate names dest depth) path within c).adapt Stop.reason =
      visitEntry names dest depth path within c := by
  obtain ⟨name, e⟩ := c
  unfold locateEntry visitEntry
  cases e with
  | directory =>
    simp only [adapt_bind, adapt_reason_locating, inner]
    exact entering_bind _ _ _
  | file content mode => exact adapt_reason_locating _ _
  | link target => rfl

/-- Without the names of entries, the visit is the one that only tells why it fails. -/
lemma adapt_reason_locate (depth : Nat) (path within : String) (entries : List (String × Entry)) :
    (locate names dest depth path within entries).adapt Stop.reason =
      visit names dest depth path within entries := by
  induction depth generalizing path within entries with
  | zero => rfl
  | succ depth ih =>
    rw [locate, visit_succ, adapt_bind, adapt_mapM]
    simp only [adapt_reason_locateEntry depth ih, adapt_pure]

/-- Without the names of entries, `locateDirectory` is `renderDirectory`. -/
theorem adapt_reason_locateDirectory (r : Renderer) (caller : Namespace) (source dest : String) :
    (r.locateDirectory caller source dest).adapt Stop.reason =
      r.renderDirectory caller source dest := by
  unfold locateDirectory renderDirectory
  rw [adapt_bind, adapt_reason_locating]
  congr 1
  funext e
  cases e with
  | directory =>
    simp only [adapt_bind, adapt_reason_locating, adapt_reason_locate]
    exact entering_bind _ _ _
  | file content mode => exact adapt_reason_locating _ _
  | link target =>
    simp only [adapt_bind, adapt_reason_locating]
    congr 1
    funext e'
    cases e' with
    | directory =>
      simp only [adapt_bind, adapt_reason_locating, adapt_reason_locate]
      exact entering_bind _ _ _
    | file content mode => rfl
    | link target' => rfl

/-- The tree that a call leaves. -/
lemma outcome_snd (r : Renderer) (caller : Namespace) (source dest : String) (t : FileTree) :
    (r.outcome caller source dest t).2 = ((r.renderDirectory caller source dest).runOn t).2 := by
  rw [outcome, ← adapt_reason_locateDirectory, runOn_adapt, runOn_adapt]

end Stencil.Renderer
