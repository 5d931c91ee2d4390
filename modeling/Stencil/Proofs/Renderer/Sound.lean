import Stencil.Proofs.Files.Retain
import Stencil.Proofs.Files.Sound
import Stencil.Proofs.Renderer.Visit

/-!
# What rendering keeps

A visit changes a tree by making directories and by rendering files only, so it keeps whatever these
keep (`preserves_renderDirectory`), wherever its source and its destination are.  In particular it
leaves a well-formed tree, and it takes nothing away.
-/

namespace Stencil.Renderer

open FileTree Files

variable {P : FileTree → Prop} {names : Namespace}

/-- Entering a directory keeps what its parts keep. -/
lemma preserves_entering {α : Type} {path : String} {prepare : Files Failure Unit}
    {next : List (String × Entry) → Files Failure α} (prepared : Preserves P prepare)
    (hnext : ∀ entries, Preserves P (next entries)) :
    Preserves P (entering path prepare next) := by
  refine .get_bind fun t => prepared.bind fun _ => ?_
  split
  · next entries _ => exact hnext entries
  · exact .throw _

/-- Dealing with an entry keeps what making directories and rendering files keep, if visiting
directories does. -/
lemma preserves_visitEntry {dest : String} {depth : Nat}
    (prepared : ∀ path, Preserves P (prepare path))
    (copied : ∀ source dest, Preserves P (copyFilled names source dest))
    (inner : ∀ path within entries, Preserves P (visit names dest depth path within entries))
    (path within : String) (c : String × Entry) :
    Preserves P (visitEntry names dest depth path within c) := by
  unfold visitEntry
  dsimp only
  split
  · exact preserves_entering (prepared _) (inner _ _)
  · exact (copied _ _).bind fun _ => .pure _
  · exact .pure _

/-- A visit keeps what making directories and rendering files keep. -/
lemma preserves_visit (dest : String) (prepared : ∀ path, Preserves P (prepare path))
    (copied : ∀ source dest, Preserves P (copyFilled names source dest)) (depth : Nat) :
    ∀ path within entries, Preserves P (visit names dest depth path within entries) := by
  induction depth with
  | zero => exact fun path within entries => .throw _
  | succ depth ih =>
    intro path within entries
    rw [visit_succ]
    exact (Preserves.mapM fun c _ => preserves_visitEntry prepared copied ih path within c).bind
      fun written => .pure _

/-- Rendering a directory keeps what making directories and rendering files keep. -/
theorem preserves_renderDirectory (r : Renderer) (caller : Namespace) (source dest : String)
    (prepared : ∀ path, Preserves P (prepare path))
    (copied : ∀ source dest, Preserves P (copyFilled (r.names caller) source dest)) :
    Preserves P (r.renderDirectory caller source dest) := by
  have root : ∀ follow, Preserves P (rootEntry follow source) := fun follow =>
    (Preserves.read _).adapt.bind fun _ => .pure _
  have visited := preserves_visit dest prepared copied FileTree.maxPath source ""
  unfold renderDirectory
  refine (root false).bind fun e => ?_
  split
  · exact preserves_entering (prepared _) visited
  · exact (copied _ _).bind fun _ => .pure _
  · refine (root true).bind fun e' => ?_
    split
    · exact preserves_entering (.pure ()) visited
    · exact .pure _

/-- Rendering a file keeps a tree sound. -/
lemma preserves_sound_copyFilled (names : Namespace) (source dest : String) :
    Preserves FileTree.Sound (copyFilled names source dest) :=
  (Preserves.read _).bind fun _ => (Preserves.read _).adapt.bind fun _ =>
    (preserves_sound_replaceFile _ _ _).adapt

/-- Rendering a directory keeps a tree sound, also when it fails half way. -/
theorem preserves_sound_renderDirectory (r : Renderer) (caller : Namespace)
    (source dest : String) : Preserves FileTree.Sound (r.renderDirectory caller source dest) :=
  preserves_renderDirectory r caller source dest
    (fun path => (preserves_sound_makeDirectories path).adapt)
    (preserves_sound_copyFilled (r.names caller))

/-! ### Nothing is taken away -/

variable {t u : FileTree} {source dest : String}

/-- Making the counterpart of a directory takes nothing away. -/
lemma retains_of_prepare {p : String} {outcome : Except Failure Unit}
    (prepared : (prepare p).runOn t = (outcome, u)) : Retains t u :=
  (addsDirectories_of_prepare prepared).retains

/-- Rendering a file takes nothing away. -/
lemma retains_of_copyFilled (copied : (copyFilled names source dest).runOn t = (.ok (), u)) :
    Retains t u := by
  obtain ⟨loc, out, mode, dir, -, -, replaceable, rfl⟩ := runOn_copyFilled_eq_ok_iff.mp copied
  exact retains_insert_file (replaceable_iff.mp replaceable).2.2

lemma preserves_retains_prepare (t : FileTree) (path : String) :
    Preserves (Retains t) (prepare path) := by
  intro u retains
  rcases prepared : (prepare path).runOn u with ⟨outcome, left⟩
  exact retains.trans (retains_of_prepare prepared)

lemma preserves_retains_copyFilled (t : FileTree) (source dest : String) :
    Preserves (Retains t) (copyFilled names source dest) := by
  intro u retains
  rcases copied : (copyFilled names source dest).runOn u with ⟨_ | _, left⟩
  · rwa [eq_of_runOn_copyFilled_eq_error copied]
  · exact retains.trans (retains_of_copyFilled copied)

/-- A visit takes nothing away, also when it fails half way. -/
lemma preserves_retains_visit (t : FileTree) (dest : String) (depth : Nat) (path within : String)
    (entries : List (String × Entry)) :
    Preserves (Retains t) (visit names dest depth path within entries) :=
  preserves_visit dest (preserves_retains_prepare t) (preserves_retains_copyFilled t) depth path
    within entries

end Stencil.Renderer
