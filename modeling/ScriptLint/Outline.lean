/-
**What is kept of a script.**

* `CallShape` — how a call names what it calls; `Receiver` — what the method of a call is taken from.
* `NamespaceScope`, `TypeDecl`, `RoutineDecl` — the declarations of a script with their spans. A type
  keeps the names in its base list as written, without type arguments.
* `Outline` — all of it, with the imports, the calls and the directives.
-/

import ScriptLint.Directive
import ScriptLint.Node

namespace ScriptLint

/-- What the method of a call is taken from. -/
inductive Receiver where
  /-- A dotted name: a type, a namespace with a type, or a variable. -/
  | path (name : String)
  /-- The result of calls, with the names of their methods, the nearest first. -/
  | call (chain : List String)
  /-- Any other expression. -/
  | expression
deriving Repr, DecidableEq, Inhabited

/-- How a call names what it calls. -/
inductive CallShape where
  /-- A method of the object itself, or a function in sight. -/
  | bare (name : String)
  /-- A method of a receiver. -/
  | member (receiver : Receiver) (name : String)
  /-- The constructor of a type. -/
  | construct (type : String)
  /-- The operator that the second clause of a query stands for. -/
  | query (operator : String)
  /-- A call that names nothing. -/
  | unnamed
deriving Repr, DecidableEq, Inhabited

/-- A call with its shape. -/
structure ShapedCall extends Call where
  shape : CallShape
deriving Repr, DecidableEq, Inhabited

/-- A namespace and the part of the script it is open in. -/
structure NamespaceScope where
  name : String
  span : Span
deriving Repr, DecidableEq, Inhabited

/-- A class, struct, interface or record. -/
structure TypeDecl where
  /-- The name with those of the types and namespaces around it. -/
  name : String
  /-- The namespace it is declared in. -/
  home : Option String
  isInterface : Bool
  bases : List String
  /-- The routines declared in it, those inside other routines included. -/
  methods : List String
  span : Span
deriving Repr, DecidableEq, Inhabited

/-- A method, local function, constructor or destructor. -/
structure RoutineDecl where
  name : String
  span : Span
  attributes : List String
  isOverride : Bool
  isExplicitImpl : Bool
  containingType : Option String
deriving Repr, DecidableEq, Inhabited

/-- Everything that is kept of a script. -/
structure Outline where
  text : String
  directives : List Directive
  imports : List Import
  /-- The namespaces imported for the whole project. -/
  globalUsings : List String
  calls : List ShapedCall
  routines : List RoutineDecl
  types : List TypeDecl
  namespaces : List NamespaceScope
  hasErrors : Bool
deriving Repr, DecidableEq, Inhabited

/-- The imports and calls of a script. -/
def Outline.nodes (outline : Outline) : Nodes :=
  ⟨outline.imports, outline.calls.map (·.toCall)⟩

end ScriptLint
