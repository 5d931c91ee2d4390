import Stencil.Session

/-!
# The program

`Bundle.program` renders the bundled templates for a project name into a destination, both taken
from the arguments of the command line.
-/

namespace Stencil.Bundle

/-! ### Names -/

/-- What the templates say about a project. -/
def plan (name : String) : Namespace :=
  .ofList
    [ ("name", .text name),
      ("desc", .text (name ++ ", generated from templates")),
      ("license", .text "MIT"),
      ("tests", .boolean true),
      ("deps", .sequence [.text "requests"]) ]

/-- The names that the templates see besides the built-in ones and the configuration. -/
def names (name : String) : Namespace :=
  .ofList [("author", .text "Unknown author"), ("plan", .ofTable (plan name))]

/-! ### The program -/

/-- What the arguments of the command line ask for. -/
structure Request where
  name : String
  dest : String
  deriving DecidableEq

/-- The first argument is the name of the project and the second the destination, which is the name
when it is missing. -/
def Request.ofArgs (args : List String) : Request :=
  let name := args.head?.getD "demo"
  ⟨name, args.tail.head?.getD name⟩

/-- Renders the directory `templates` as the arguments ask for, with the shared configuration. -/
def programAt (templates : String) (s : Session) (args : List String) :
    Except Failure (List String) × Session :=
  let request := Request.ofArgs args
  s.act .shared fun r => r.renderDirectory (names request.name) templates request.dest

/-- Renders the bundle from where it is installed. -/
def program (s : Session) (args : List String) : Except Failure (List String) × Session :=
  programAt templatesDirectory s args

/-- The exit code and the output of the program. -/
def report : Except Failure (List String) → Nat × String
  | .ok written => (0, ofLines written)
  | .error _ => (1, "")

end Stencil.Bundle
