import Stencil.Config
import Stencil.Namespace

/-!
# The names that templates see

Every template sees one namespace made of three layers: the caller's names, over them the built-in
year, and over that the configuration.
-/

namespace Stencil.Namespace

/-- The name of the built-in year. -/
def yearName : String := "year"

/-- The built-in names. -/
def builtins (year : String) : Namespace :=
  Table.empty.insert yearName (.text year)

/-- The names of a configuration, with its settings as texts. -/
def configured (config : UserConfig) : List (String × Value) :=
  config.pairs.map fun p => (p.1, .text p.2)

/-- A caller's namespace with the built-in names and a configuration over it. -/
def build (year : String) (config : UserConfig) (caller : Namespace) : Namespace :=
  (caller.merge (builtins year)).insertAll (configured config)

end Stencil.Namespace
