import Stencil.Value

/-!
# Namespaces and scopes

A namespace gives values to names; it is a table, so its entries ascend by name and a later value
of a name replaces an earlier one.  Evaluation sees a namespace only as a scope, which answers for
each name with its value or nothing.
-/

namespace Stencil

/-- Values by name. -/
abbrev Namespace := Table String Value

/-- What evaluation can look up. -/
abbrev Scope := String → Option Value

/-- The scope that looks names up in a namespace. -/
def Namespace.scope (ns : Namespace) : Scope := fun name => ns.get? name

namespace Namespace

/-- Whether two namespaces have the same names with structurally equal values. -/
def same (ns other : Namespace) : Bool :=
  Value.sameFields ns.entries other.entries

/-- The ways to change a namespace. -/
inductive Change where
  | clear
  | set (name : String) (v : Value)
  | merge (other : Namespace)
  | extend (pairs : List (String × Value))
  | collect (pairs : List (String × Value))

/-- The namespace after a change. -/
def change (ns : Namespace) : Change → Namespace
  | .clear => .empty
  | .set name v => ns.insert name v
  | .merge other => Table.merge ns other
  | .extend pairs => ns.insertAll pairs
  | .collect pairs => .ofList pairs

/-- The namespace with the value of one name set, and the value that was replaced. -/
def replace (ns : Namespace) (name : String) (v : Value) : Option Value × Namespace :=
  (ns.get? name, ns.change (.set name v))

/-- The namespace after changes, the first one first. -/
def changeAll (ns : Namespace) (changes : List Change) : Namespace :=
  changes.foldl change ns

end Namespace

end Stencil
