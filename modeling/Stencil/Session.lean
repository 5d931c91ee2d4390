import Stencil.Bundle.Templates
import Stencil.Config.Cache
import Stencil.Renderer.Directory

/-!
# Sessions

A session is a file tree together with the configuration that is shared by all calls that do not
bring their own.  The shared configuration is loaded from the default path at the first call that
needs it and kept until a reset; a load that fails is tried again at the next call.  `Session.step`
carries out one step, and `Session.run` a list of them.
-/

namespace Stencil

/-- Whose configuration a step uses: that of its own renderer or the shared one. -/
inductive Source where
  | own (config : UserConfig)
  | shared
  deriving DecidableEq

/-- The state between two steps.  `override` is the path that an environment variable gives for the
configuration. -/
structure Session where
  tree : FileTree
  home : Option String
  override : Option String
  cache : ConfigCache
  year : String

namespace Session

/-- The steps of a session. -/
inductive Step where
  | write (path : String) (content : Content) (mode : Mode)
  | remove (path : String)
  | setOverride (path : Option String)
  | reset
  | defaultPath
  | load (path : String)
  | install (config : UserConfig)
  | cached
  | config (source : Source)
  | builtins
  | names (source : Source) (caller : Namespace)
  | render (source : Source) (caller : Namespace) (template : String)
  | renderFile (source : Source) (caller : Namespace) (path : String)
  | copy (source : Source) (caller : Namespace) (file dest : String)
  | renderDirectory (source : Source) (caller : Namespace) (directory dest : String)

/-- What a step gives. -/
inductive Reply where
  | done
  | path (p : Option String)
  | config (c : UserConfig)
  | names (ns : Namespace)
  | text (s : String)
  | paths (ps : List String)

/-- A session with no files but the bundle, an empty cache and no override of the default path. -/
def start (home : Option String) (year : String) : Session :=
  ⟨Bundle.install .start, home, none, .empty, year⟩

/-! ### The shared configuration -/

/-- Where the shared configuration is loaded from. -/
def defaultPath (s : Session) : Option String :=
  UserConfig.defaultPath s.override s.home

/-- Loads the configuration at the default path. -/
def loadDefault (s : Session) : Except Failure UserConfig :=
  match s.defaultPath with
  | some path => UserConfig.load s.tree path
  | none => .ok .empty

/-- The shared configuration, loaded if it has to be. -/
def cached (s : Session) : Except Failure UserConfig × Session :=
  let (answer, cache) := s.cache.getOrLoad fun _ => s.loadDefault
  (answer.result.map Fill.config, { s with cache })

/-- The renderer of a step. -/
def renderer (s : Session) : Source → Except Failure Renderer × Session
  | .own config => (.ok ⟨config, s.year⟩, s)
  | .shared =>
    let (config, s) := s.cached
    (config.map fun config => ⟨config, s.year⟩, s)

/-- Asks a renderer. -/
def ask {α : Type} (s : Session) (source : Source)
    (question : FileTree → Renderer → Except Failure α) : Except Failure α × Session :=
  match s.renderer source with
  | (.ok r, s) => (question s.tree r, s)
  | (.error e, s) => (.error e, s)

/-- Lets a renderer work on the files. -/
def act {α : Type} (s : Session) (source : Source) (program : Renderer → Files Failure α) :
    Except Failure α × Session :=
  match s.renderer source with
  | (.ok r, s) =>
    let (result, tree) := (program r).runOn s.tree
    (result, { s with tree })
  | (.error e, s) => (.error e, s)

/-! ### Files -/

/-- Puts an entry where a path leads, with the directories that it lacks.  A file goes through
symbolic links and replaces a file. -/
def putEntry (path : String) (e : Entry) : Files FileError Unit := do
  Files.makeDirectories (Path.directory path)
  match e with
  | .directory => Files.makeDirectories path
  | .file _ _ =>
    match ← Files.read fun t => t.resolve true path with
    | .vacant loc => modify (·.insert loc e)
    | .found _ .directory => throw .isDirectory
    | .found loc _ => modify (·.insert loc e)
  | .link _ =>
    match ← Files.read fun t => t.resolve false path with
    | .vacant loc => modify (·.insert loc e)
    | .found _ _ => throw .alreadyExists

/-- The session with an entry put into its tree. -/
def put (s : Session) (path : String) (e : Entry) : Session :=
  { s with tree := ((putEntry path e).runOn s.tree).2 }

/-- The session without what a path leads to. -/
def remove (s : Session) (path : String) : Session :=
  match s.tree.lookUp false path with
  | .ok (loc, _) => { s with tree := s.tree.prune loc }
  | .error _ => s

/-! ### Steps -/

/-- The result of a part of a step as the reply of the whole. -/
def answer {α : Type} (reply : α → Reply) (outcome : Except Failure α × Session) :
    Except Failure Reply × Session :=
  (outcome.1.map reply, outcome.2)

/-- What a step gives, and the session after it. -/
def step (s : Session) : Step → Except Failure Reply × Session
  | .write path content mode => (.ok .done, s.put path (.file content mode))
  | .remove path => (.ok .done, s.remove path)
  | .setOverride path => (.ok .done, { s with override := path })
  | .reset => (.ok .done, { s with cache := s.cache.reset })
  | .defaultPath => (.ok (.path s.defaultPath), s)
  | .load path => answer .config (UserConfig.load s.tree path, s)
  | .install config =>
    let (fill, cache) := s.cache.install config
    (.ok (.config fill.config), { s with cache })
  | .cached => answer .config s.cached
  | .config source => answer .config (s.ask source fun _ r => .ok r.config)
  | .builtins => (.ok (.names (Namespace.builtins s.year)), s)
  | .names source caller => answer .names (s.ask source fun _ r => .ok (r.names caller))
  | .render source caller template =>
    answer .text (s.ask source fun _ r => r.render caller template)
  | .renderFile source caller path =>
    answer .text (s.ask source fun t r => r.renderFile caller t path)
  | .copy source caller file dest =>
    answer (fun _ => .done) (s.act source fun r => r.copy caller file dest)
  | .renderDirectory source caller directory dest =>
    answer .paths (s.act source fun r => r.renderDirectory caller directory dest)

/-- What the steps give in turn, and the session after them. -/
def run (s : Session) : List Step → List (Except Failure Reply) × Session
  | [] => ([], s)
  | first :: rest =>
    let (reply, s) := s.step first
    let (replies, s) := s.run rest
    (reply :: replies, s)

end Session

end Stencil
