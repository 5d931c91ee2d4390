import Stencil.Failure

/-!
# Configuration files

A configuration is loaded from a file of a file tree.
-/

namespace Stencil.UserConfig

/-- Where the configuration is in a home directory. -/
def defaultName : String := ".config/boilerplate.conf"

/-- The path of the configuration: the one that an environment variable gives, or else a fixed one
in the home directory. -/
def defaultPath (override home : Option String) : Option String :=
  override.or (home.map fun home => Path.join home defaultName)

/-- The configuration in a file; a file that does not exist is an empty one. -/
def load (t : FileTree) (path : String) : Except Failure UserConfig :=
  match t.readText path with
  | .ok src =>
    match parse src path with
    | .ok config => .ok config
    | .error e => .error (.config e)
  | .error .notFound => .ok .empty
  | .error e => .error (.file e)

end Stencil.UserConfig
