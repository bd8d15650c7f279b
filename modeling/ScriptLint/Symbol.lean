/-
**What names in a script stand for.**

A source of symbols answers three questions about one script: what a call binds to, which routine an
offset lies in, and what a type name means. Each answer may be missing.

* `Method`, `Target` — a method, and a method as a call finds it. An extension method is called as if
  its receiver declared it; `reducedFrom` is then the static method that really is called.
* `Routine`, `TypeSymbol` — a named routine and a type, with fully qualified names.
* `Symbols` — the three questions.
-/

import ScriptLint.Node

namespace ScriptLint

/-- A method, a constructor or a query operator. -/
structure Method where
  name : String
  containingType : Option String
  /-- The namespace of the declaring type. -/
  home : Option String
deriving Repr, DecidableEq, Inhabited

/-- What a call binds to. -/
structure Target extends Method where
  reducedFrom : Option Method := none
deriving Repr, DecidableEq, Inhabited

/-- The named routine around an offset. -/
structure Routine where
  name : String
  /-- Attribute types, each with the suffix `Attribute`. -/
  attributes : List String
  isOverride : Bool
  /-- The routine implements a member of an interface, explicitly or by its name. -/
  isInterfaceImpl : Bool
  containingType : Option String
deriving Repr, DecidableEq, Inhabited

/-- A type, with the names of its base class and of the interfaces it lists. -/
structure TypeSymbol where
  qualifiedName : String
  baseType : Option String
  interfaces : List String
deriving Repr, DecidableEq, Inhabited

/-- Symbol resolution over one script. -/
structure Symbols where
  target? : Call → Option Target
  routineAt? : Nat → Option Routine
  type? : String → Option TypeSymbol

end ScriptLint
