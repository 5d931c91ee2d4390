import Stencil.Number.Integer
import Stencil.Table
import Stencil.Text.Blank
import Stencil.Text.Line

/-!
# User configuration

A configuration is a table of texts.  Its file has one `key=value` on a line: the key is the trimmed
text before the first `=` and the value the trimmed text after it, blank lines are skipped and a
later line of a key counts.  The first line of another form is an error.
-/

namespace Stencil

/-- What is wrong with a line of a configuration. -/
inductive ConfigProblem where
  | missingEquals
  | emptyKey
  deriving DecidableEq, Repr

/-- The wording of a configuration problem. -/
def ConfigProblem.message : ConfigProblem → String
  | .missingEquals => "expected key=value"
  | .emptyKey => "empty key"

/-- The first offending line of a configuration file; lines count from one. -/
structure ConfigError where
  path : String
  line : Nat
  problem : ConfigProblem
  deriving DecidableEq, Repr

/-- The wording of a configuration error. -/
def ConfigError.message (e : ConfigError) : String :=
  let line := String.ofList (Number.natDigits e.line)
  s!"invalid configuration at {e.path}:{line}: {e.problem.message}"

/-- The settings of a user. -/
structure UserConfig where
  values : Table String String
  deriving DecidableEq

namespace UserConfig

/-- The configuration without settings. -/
def empty : UserConfig := ⟨.empty⟩

/-- The configuration with the given settings; the last of a key counts. -/
def ofList (pairs : List (String × String)) : UserConfig := ⟨.ofList pairs⟩

/-- The value of a key. -/
def get? (c : UserConfig) (key : String) : Option String := c.values.get? key

/-- The settings by ascending key. -/
def pairs (c : UserConfig) : List (String × String) := c.values.entries

/-- The keys that a complete configuration has. -/
def fields : List String := ["author", "venv_cmd"]

/-- The keys of a complete configuration that this one lacks. -/
def missingFields (c : UserConfig) : List String :=
  fields.filter fun key => !c.values.contains key

/-- The setting on a line; none when the line is blank. -/
def parseLine (line : List Char) : Except ConfigProblem (Option (String × String)) :=
  if Text.isAllBlank line then .ok none
  else
    match line.dropWhile (· != '=') with
    | [] => .error .missingEquals
    | _ :: value =>
      let key := Text.trim (line.takeWhile (· != '='))
      if key.isEmpty then .error .emptyKey
      else .ok (some (String.ofList key, String.ofList (Text.trim value)))

/-- Adds the settings on lines, the first of which has the given number. -/
def addLines (path : String) :
    Nat → List (List Char) → Table String String → Except ConfigError (Table String String)
  | _, [], values => .ok values
  | number, line :: rest, values =>
    match parseLine line with
    | .error problem => .error ⟨path, number, problem⟩
    | .ok none => addLines path (number + 1) rest values
    | .ok (some (key, value)) => addLines path (number + 1) rest (values.insert key value)

/-- The configuration that a text spells; the path is for error messages. -/
def parse (src path : String) : Except ConfigError UserConfig := do
  return ⟨← addLines path 1 (Text.lines src.toList) .empty⟩

end UserConfig

end Stencil
