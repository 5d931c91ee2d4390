import Std.Time.Zoned
import Stencil.Bundle

/-!
# The command line

`stencil [NAME] [DEST]` renders the bundled templates into the directory `DEST` and prints the paths
of the files.  This is the only module that touches real files: it reads the configuration, renders
in memory, and writes the files that come out, each under another name first, so that no
half-written file is left.
-/

namespace Stencil.CommandLine

/-- The configuration of the user. -/
def loadConfig : IO UserConfig := do
  let override ← IO.getEnv "BOILERPLATE_CONFIG"
  match UserConfig.defaultPath override (← IO.getEnv "HOME") with
  | none => return .empty
  | some path =>
    try
      match UserConfig.parse (← IO.FS.readFile path) path with
      | .ok config => return config
      | .error e => throw (IO.userError e.message)
    catch
      | .noFileOrDirectory .. => return .empty
      | e => throw e

/-- Writes a file, with the directories that it lacks. -/
def writeFile (path text : String) : IO Unit := do
  let directory := Path.directory path
  let staged := Path.join directory ".stencil~"
  IO.FS.createDirAll directory
  IO.FS.writeFile staged text
  try IO.FS.rename staged path
  catch e =>
    IO.FS.removeFile staged
    throw e

/-- Renders the bundle as the arguments ask for. -/
def run (args : List String) : IO (List String) := do
  let config ← loadConfig
  let today ← Std.Time.PlainDate.now
  let start := Session.start none (toString (today.year : Int))
  let (reply, s) := Bundle.program { start with cache := (start.cache.install config).2 } args
  match reply with
  | .error e => throw (IO.userError e.message)
  | .ok written =>
    for path in written do
      match s.tree.readText path with
      | .ok text => writeFile path text
      | .error e => throw (IO.userError (Failure.file e).message)
    return written

end Stencil.CommandLine

/-- Prints the paths of the files, or one line about what went wrong. -/
def main (args : List String) : IO UInt32 := do
  try
    IO.print (Stencil.Bundle.ofLines (← Stencil.CommandLine.run args))
    return 0
  catch e =>
    IO.eprintln s!"Error: {e}"
    return 1
