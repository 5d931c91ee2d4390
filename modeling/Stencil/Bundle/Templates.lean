import Stencil.Files.Tree

/-!
# The bundled templates

The bundle is a small project skeleton: a licence text, a readme, a documentation page and a setup
file.  It comes as a directory of templates, which `Bundle.install` puts into a file tree, away from
the working directory.
-/

namespace Stencil.Bundle

/-! ### Templates -/

/-- A marker that is replaced by the value of an expression. -/
def value (expression : String) : String :=
  "\x7b\x7b " ++ expression ++ " \x7d\x7d"

/-- A marker that starts a conditional block, or ends one. -/
def condition (expression : String) : String :=
  "\x7b? " ++ expression ++ " ?\x7d"

/-- The template with these lines. -/
def ofLines (lines : List String) : String :=
  String.join (lines.map (· ++ "\n"))

/-- The licence text. -/
def licence : String := ofLines
  [ "MIT License",
    "",
    "Copyright (c) " ++ value "year" ++ " " ++ value "author",
    "",
    "Permission is hereby granted, free of charge, to any person obtaining a copy",
    "of this software and associated documentation files (the \"Software\"), to deal",
    "in the Software without restriction, including without limitation the rights",
    "to use, copy, modify, merge, publish, distribute, sublicense, and/or sell",
    "copies of the Software, and to permit persons to whom the Software is",
    "furnished to do so, subject to the following conditions:",
    "",
    "The above copyright notice and this permission notice shall be included in all",
    "copies or substantial portions of the Software.",
    "",
    "THE SOFTWARE IS PROVIDED \"AS IS\", WITHOUT WARRANTY OF ANY KIND, EXPRESS OR",
    "IMPLIED, INCLUDING BUT NOT LIMITED TO THE WARRANTIES OF MERCHANTABILITY,",
    "FITNESS FOR A PARTICULAR PURPOSE AND NONINFRINGEMENT. IN NO EVENT SHALL THE",
    "AUTHORS OR COPYRIGHT HOLDERS BE LIABLE FOR ANY CLAIM, DAMAGES OR OTHER",
    "LIABILITY, WHETHER IN AN ACTION OF CONTRACT, TORT OR OTHERWISE, ARISING FROM,",
    "OUT OF OR IN CONNECTION WITH THE SOFTWARE OR THE USE OR OTHER DEALINGS IN THE",
    "SOFTWARE." ]

/-- The readme. -/
def readme : String := ofLines
  [ "# " ++ value "plan.name",
    "",
    "### " ++ value "plan.desc",
    condition "plan.tests",
    "",
    "Run the test suite from `tests/`.",
    condition "end",
    condition "plan.deps",
    "",
    "## Dependencies",
    "",
    value "plan.deps",
    condition "end" ]

/-- The first page of the documentation. -/
def documentation : String := ofLines
  [ "# " ++ value "plan.name" ++ " documentation",
    "",
    value "plan.name" ++ " was started in " ++ value "year" ++ "." ]

/-- The setup file. -/
def setup : String := ofLines
  [ "[metadata]",
    "name = " ++ value "plan.name",
    "description = " ++ value "plan.desc",
    "author = " ++ value "author",
    "license = " ++ value "plan.license",
    "",
    "[options]",
    "packages = find:",
    condition "plan.tests",
    "",
    "[options.extras_require]",
    "dev = pytest",
    condition "end" ]

/-! ### The directory of the templates -/

/-- The path of the directory where the bundle is installed. -/
def templatesDirectory : String := "/usr/share/stencil"

/-- The location of this directory. -/
def installedAt : Location := ["usr", "share", "stencil"]

/-- The tree with the bundle installed. -/
def install (t : FileTree) : FileTree :=
  let file (template : String) : Entry := .file (.text template) (.ofNat 0o644)
  t.insertAll
    [ (["usr"], .directory),
      (["usr", "share"], .directory),
      (installedAt, .directory),
      (installedAt ++ ["LICENSE"], file licence),
      (installedAt ++ ["README.md"], file readme),
      (installedAt ++ ["docs"], .directory),
      (installedAt ++ ["docs", "index.md"], file documentation),
      (installedAt ++ ["setup.cfg"], file setup) ]

end Stencil.Bundle
