import Stencil.Config
import Stencil.Files.Resolve
import Stencil.Template.Error

/-!
# Failures

What can go wrong when files are rendered: the template, the configuration, an operation on files,
or the visit of a directory.
-/

namespace Stencil

/-- Why rendering or loading a configuration failed. -/
inductive Failure where
  | template (e : TemplateError)
  | config (e : ConfigError)
  | file (e : FileError)
  | walk (path : String) (e : FileError)
  deriving DecidableEq

/-- The wording of a failure. -/
def Failure.message : Failure → String
  | .template e => e.message
  | .config e => e.message
  | .file e => s!"I/O error: {e.description}"
  | .walk path e =>
    s!"failed to walk template directory: IO error for operation on {path}: {e.description}"

end Stencil
