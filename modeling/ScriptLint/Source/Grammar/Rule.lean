/-
**The rules of the grammar.**

The parts of the grammar refer to each other by the names given here; what each consists of is said
in the modules on types, expressions, statements and declarations.

* `Rule` — the names.
* `region` — a conditional region, whose branches all hold items of one sort.
* `declaredName` — a name that a declaration introduces.
-/

import ScriptLint.Source.Peg

namespace ScriptLint.Source.Grammar

/-- The named parts of the grammar. -/
inductive Rule where
  | simpleName
  | typeArguments
  | name
  | type
  | narrowType
  | designation
  | expression
  | condition
  | operand
  | access
  | primary
  | arguments
  | initializer
  | lambda
  | balanced
  | query
  | queryBody
  | pattern
  | patternUnit
  | block
  | statement
  | attributes
  | parameters
  | member
  | accessors
  | enumMember
  | item
  | regionItem
  | script
deriving Repr, DecidableEq, Inhabited

/-- Expressions over these rules. -/
abbrev Part := Peg Rule

open Peg

/-- A comma. -/
def comma : Part :=
  mark ","

/-- A name that a declaration introduces. -/
def declaredName : Part :=
  node .declaredName identifier

/-- A line that opens, divides or closes a conditional region. -/
def directive (kind : Directive.Kind) : Part :=
  kindOf (.directive kind)

/-- A conditional region with items of one sort in its branches. -/
def region (item : Part) : Part :=
  node .conditional (all [directive .openIf, many item,
    many (all [directive .elseIf, many item]),
    optional (all [directive .otherwise, many item]), directive .endIf])

end ScriptLint.Source.Grammar
