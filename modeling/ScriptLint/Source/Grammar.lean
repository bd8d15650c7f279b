/-
**The grammar of scripts.**

* `grammar` — what each rule consists of.
* `readTree` — the tree of a script. Its root covers all tokens.
-/

import ScriptLint.Source.Grammar.Declarations
import ScriptLint.Source.Grammar.Expressions
import ScriptLint.Source.Lexeme

namespace ScriptLint.Source

open Grammar in
/-- What each rule consists of. -/
def grammar : Rule → Part
  | .simpleName => simpleName
  | .typeArguments => typeArguments
  | .name => name
  | .type => type
  | .narrowType => narrowType
  | .designation => designation
  | .expression => expression
  | .condition => condition
  | .operand => operand
  | .access => access
  | .primary => primary
  | .arguments => arguments
  | .initializer => initializer
  | .lambda => lambda
  | .balanced => balanced
  | .query => query
  | .queryBody => queryBody
  | .pattern => pattern
  | .patternUnit => patternUnit
  | .block => block
  | .statement => statement
  | .attributes => attributes
  | .parameters => parameters
  | .member => member
  | .accessors => accessors
  | .enumMember => enumMember
  | .item => item
  | .regionItem => regionItem
  | .script => script

/-- A bound on the number of rules entered without a token being read in between. -/
def ruleDepth : Nat := 32

/-- The tree of a script. -/
def readTree (text : String) : Tree :=
  let input := Peg.Input.ofTokens (tokens text)
  match Peg.run grammar ((input.left + 1) * ruleDepth) (.rule .script) input with
  | some ([tree], _) => tree
  | _ => .node .script ⟨0, 0⟩ []

end ScriptLint.Source
