/-
**The fix that a rule offers.**

A remedy finds the node with exactly the span of a finding and proposes one edit of it, or none. A
span that belongs to no node, for instance because the text has changed, gets none.

* `Remedy.removal?` — an import is removed; so is an invocation that is a whole statement.
* `Remedy.mark?` — any node is marked with a comment, unless the text before it already ends
  with that comment.
* `Remedy.edit?` — the edit of a remedy.
-/

import ScriptLint.Edit
import ScriptLint.Node
import ScriptLint.Text.Find

namespace ScriptLint

/-- How a remedy changes its node. -/
inductive Remedy.Method where
  /-- Delete an import, or a statement that is one invocation. -/
  | remove
  /-- Put the comment before the node. -/
  | annotate (comment : String)
deriving Repr, DecidableEq, Inhabited

/-- A fix, keyed by the code of the rule it belongs to. -/
structure Remedy where
  code : String
  title : String
  method : Remedy.Method
deriving Repr, DecidableEq, Inhabited

namespace Remedy

/-- The removal of the node with the given span. -/
def removal? (nodes : Nodes) (target : Span) : Option Edit :=
  if nodes.imports.any (·.span == target) then
    some (.remove target)
  else
    match nodes.calls.find? (·.span == target) with
    | some { kind := .invocation, statement := some statement, .. } => some (.remove statement)
    | _ => none

/-- The text before an offset ends with the comment, blanks aside. -/
def isMarked (comment : String) (before : List Char) : Bool :=
  List.isSuffixOf (Text.trim comment.toList) (Text.trimEnd before)

/-- The comment put before the node with the given span. -/
def mark? (text : String) (nodes : Nodes) (comment : String) (target : Span) : Option Edit :=
  if nodes.hasNodeAt target then
    match Text.cut? target.start text.toList with
    | some (before, _) => if isMarked comment before then none else some (.annotate target comment)
    | none => none
  else
    none

/-- The edit that the remedy proposes for the node with the given span. -/
def edit? (remedy : Remedy) (text : String) (nodes : Nodes) (target : Span) : Option Edit :=
  match remedy.method with
  | .remove => removal? nodes target
  | .annotate comment => mark? text nodes comment target

end Remedy

end ScriptLint
