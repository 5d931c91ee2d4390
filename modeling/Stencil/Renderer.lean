import Stencil.Config.File
import Stencil.Files.Effect
import Stencil.Namespace.Layers
import Stencil.Template.Render

/-!
# Rendering files

A renderer holds a configuration and the current year.  It renders texts, files, and one file into
another; rendering a file reads its line endings as newlines.
-/

namespace Stencil

/-- What rendering goes by besides the caller's names. -/
structure Renderer where
  config : UserConfig
  year : String

namespace Renderer

/-- The names that templates see. -/
def names (r : Renderer) (caller : Namespace) : Namespace :=
  Namespace.build r.year r.config caller

/-- A template rendered against a namespace that is already complete. -/
def fill (names : Namespace) (src : String) : Except Failure String :=
  match Template.render src names.scope with
  | .ok out => .ok out
  | .error e => .error (.template e)

/-- A template file rendered against a complete namespace; its line endings are read as newlines. -/
def fillFile (names : Namespace) (t : FileTree) (path : String) : Except Failure String :=
  match t.readText path with
  | .ok src => fill names (String.ofList (Text.unixLines src.toList))
  | .error e => .error (.file e)

/-- A rendered template. -/
def render (r : Renderer) (caller : Namespace) (src : String) : Except Failure String :=
  fill (r.names caller) src

/-- A rendered template file. -/
def renderFile (r : Renderer) (caller : Namespace) (t : FileTree) (path : String) :
    Except Failure String :=
  fillFile (r.names caller) t path

/-- Renders one file into another, which gets the permission bits of the first. -/
def copyFilled (names : Namespace) (source dest : String) : Files Failure Unit := do
  let out ← Files.read fun t => fillFile names t source
  let mode ← (Files.read fun t => t.modeOf source).adapt .file
  (Files.replaceFile dest out mode).adapt .file

/-- Renders the file `source` into the file `dest`.  When this fails, nothing has changed. -/
def copy (r : Renderer) (caller : Namespace) (source dest : String) : Files Failure Unit :=
  copyFilled (r.names caller) source dest

end Renderer

end Stencil
