/-
**What a rule looks at in a script: imports and calls.**

* `Import` — a using directive, with its span from the first keyword to the semicolon.
* `Call` — an invocation, an object construction or a query expression. `statement` is there when
  the call is all of an expression statement, so that the statement can be removed for it.
-/

import ScriptLint.Span

namespace ScriptLint

/-- A using directive. -/
structure Import where
  span : Span
  /-- The namespace or type that is imported. -/
  target : String
  /-- The name given to it, in `using Alias = Target;`. -/
  localName : Option String
  isStatic : Bool
deriving Repr, DecidableEq, Inhabited

/-- The forms of a call. -/
inductive Call.Kind where
  /-- A method is called. -/
  | invocation
  /-- An object is created with `new`. -/
  | construction
  /-- A query expression, which stands for calls of query operators. -/
  | query
deriving Repr, DecidableEq, Inhabited

/-- A call as it stands in a script. -/
structure Call where
  span : Span
  kind : Call.Kind
  /-- The called name as written, blanks removed. -/
  callee : String
  /-- The expression statement that is nothing but this call. -/
  statement : Option Span
deriving Repr, DecidableEq, Inhabited

/-- The nodes of a script that rules and remedies are about. -/
structure Nodes where
  imports : List Import
  calls : List Call
deriving Repr, DecidableEq, Inhabited

/-- Some node has exactly the span. -/
def Nodes.hasNodeAt (nodes : Nodes) (span : Span) : Bool :=
  nodes.imports.any (·.span == span) || nodes.calls.any (·.span == span)

end ScriptLint
