import Stencil.Renderer

/-!
# Rendering directories

`Renderer.renderDirectory` renders the files under one directory into another, visiting entries
depth first and by ascending name.  The names in a directory are read when the visit reaches it,
before anything is written for it.  Symbolic links are not visited, except that the visited
directory itself may be one.
-/

namespace Stencil.Renderer

/-- Reads what the directory `path` holds, prepares its counterpart and goes on with what it
held. -/
def entering {α : Type} (path : String) (prepare : Files Failure Unit)
    (next : List (String × Entry) → Files Failure α) : Files Failure α := do
  let held := (← get).list path
  prepare
  match held with
  | .ok entries => next entries
  | .error e => throw (.walk path e)

/-- Creates the directory `path` and the parents that it lacks. -/
def prepare (path : String) : Files Failure Unit :=
  (Files.makeDirectories path).adapt .file

/-- Renders the entries of the directory `path` into `dest` and gives the paths written.  The path
from the visited root to this directory is `within`, and at most `depth` directories nest. -/
def visit (names : Namespace) (dest : String) :
    Nat → String → String → List (String × Entry) → Files Failure (List String)
  | 0, path, _, _ => throw (.walk path .nameTooLong)
  | depth + 1, path, within, entries => do
    let written ← entries.mapM fun (name, entry) =>
      let source := Path.join path name
      let relative := if within.isEmpty then name else Path.join within name
      let target := Path.join dest relative
      match entry with
      | .directory => entering source (prepare target) (visit names dest depth source relative)
      | .file _ _ => do
        copyFilled names source target
        return [target]
      | .link _ => return []
    return written.flatten

/-- The entry that the path of a visited directory leads to. -/
def rootEntry (follow : Bool) (path : String) : Files Failure Entry := do
  return (← (Files.read fun t => t.lookUp follow path).adapt (.walk path)).2

/-- Renders the files under `source` into the same relative paths under `dest` and gives the paths
written.  A path of the visit is never longer than `FileTree.maxPath`, which bounds its depth. -/
def renderDirectory (r : Renderer) (caller : Namespace) (source dest : String) :
    Files Failure (List String) := do
  let names := r.names caller
  let target := Path.join dest ""
  let visitRoot := visit names dest FileTree.maxPath source ""
  match ← rootEntry false source with
  | .directory => entering source (prepare target) visitRoot
  | .file _ _ =>
    copyFilled names source target
    return [target]
  | .link _ =>
    match ← rootEntry true source with
    | .directory => entering source (return ()) visitRoot
    | _ => return []

end Stencil.Renderer
