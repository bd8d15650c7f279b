/-
**The types of a project.**

* `ProjectType` — a type that the project declares. A base that could not be resolved keeps the name
  it is written with.
* `Index` — all of them, the namespaces of the project with all above them, and the namespaces that
  some script imports for every script.
-/

import ScriptLint.Name
import ScriptLint.Symbol

namespace ScriptLint

/-- A type of the project. -/
structure ProjectType where
  symbol : TypeSymbol
  /-- The namespace it is declared in. -/
  home : Option String
  isInterface : Bool
  methods : List String
deriving Repr, DecidableEq, Inhabited

/-- What a project declares. -/
structure Index where
  types : List ProjectType
  namespaces : List String
  globalUsings : List String
deriving Repr, DecidableEq, Inhabited

namespace Index

/-- The type of a qualified name. -/
def type? (index : Index) (name : String) : Option ProjectType :=
  index.types.find? (·.symbol.qualifiedName == name)

/-- The project declares the namespace or one beneath it. -/
def hasNamespace (index : Index) (name : String) : Bool :=
  index.namespaces.contains name

end Index

end ScriptLint
