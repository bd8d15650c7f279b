/-
**Statements.**

Blocks, switch sections and expression statements are nodes of their own kinds, since a call that is
a whole statement of a list can be taken out of it. Every other statement is one node, so that the
unbraced statement inside it does not count as one of the list.

* `variableDeclaration` — a type and the variables of it.
* `localFunction` — a function inside a routine.
* `statement`, `block` — statements.
-/

import ScriptLint.Source.Grammar.Rule

namespace ScriptLint.Source.Grammar

open Peg

/-! ### Parts shared with declarations -/

/-- What a routine does: a block, an expression, or nothing here. -/
def routineBody : Part :=
  oneOf [rule .block, all [mark "=>", rule .expression, mark ";"], mark ";"]

/-- The parameters of a generic declaration. -/
def typeParameters : Part :=
  node .parameters (all [mark "<",
    sepBy1 (all [rule .attributes, optional (wordOf ["in", "out"]), identifier]) comma, mark ">"])

/-- What type arguments must satisfy. -/
def constraints : Part :=
  let one := oneOf [all [word "new", parens empty],
    all [wordOf ["class", "struct", "default"], optional (mark "?")], rule .type]
  many (all [word "where", identifier, mark ":", sepBy1 one comma])

/-- A variable with its initial value. -/
def declarator : Part :=
  all [identifier, optional (brackets (sepBy1 (rule .expression) comma)),
    optional (all [mark "=", oneOf [rule .initializer, rule .expression]])]

/-- Variables of one type, or the parts of a value. -/
def variableDeclaration : Part :=
  oneOf [all [rule .type, ahead (all [identifier, markOf ["=", ";", ",", ")"]]),
      sepBy1 declarator comma],
    all [word "var", rule .designation, mark "=", rule .expression]]

/-! ### Statements -/

/-- A function inside a routine. -/
def localFunction : Part :=
  node .routine (all [rule .attributes, many (wordOf ["static", "async", "unsafe", "extern"]),
    rule .type, declaredName, optional typeParameters, rule .parameters, constraints, routineBody])

/-- The labels of a switch section. -/
def switchLabel : Part :=
  oneOf [all [word "case", rule .pattern, optional (all [word "when", rule .condition]), mark ":"],
    all [word "default", mark ":"]]

/-- A switch section. -/
def switchSection : Part :=
  node .switchSection (all [many1 switchLabel, many (rule .statement)])

/-- An expression in parentheses. -/
def parenthesised : Part :=
  parens (rule .expression)

/-- The head of a loop over the elements of a collection. -/
def foreachHead : Part :=
  parens (all [oneOf [all [rule .type, identifier, ahead (word "in")],
    all [word "var", rule .designation], rule .expression], word "in", rule .expression])

/-- The head of a counting loop. -/
def forHead : Part :=
  parens (all [optional (oneOf [variableDeclaration, sepBy1 (rule .expression) comma]), mark ";",
    optional (rule .expression), mark ";", sepBy (rule .expression) comma])

/-- A handler of exceptions. -/
def catchClause : Part :=
  all [word "catch", optional (parens (all [rule .type, optional identifier])),
    optional (all [word "when", parenthesised]), rule .block]

/-- The statements that begin with a keyword. -/
def keywordStatement : Part :=
  oneOf [
    all [word "if", parenthesised, rule .statement, optional (all [word "else", rule .statement])],
    all [word "while", parenthesised, rule .statement],
    all [word "do", rule .statement, word "while", parenthesised, mark ";"],
    all [word "for", forHead, rule .statement],
    all [optional (word "await"), word "foreach", foreachHead, rule .statement],
    all [word "switch", rule .arguments, braces (many (oneOf [switchSection, region switchSection]))],
    all [word "try", rule .block, many catchClause, optional (all [word "finally", rule .block])],
    all [word "lock", parenthesised, rule .statement],
    all [word "fixed", parens variableDeclaration, rule .statement],
    all [wordOf ["checked", "unchecked", "unsafe"], rule .block],
    all [optional (word "await"), word "using",
      parens (oneOf [variableDeclaration, rule .expression]), rule .statement],
    all [optional (word "await"), word "using", variableDeclaration, mark ";"],
    all [wordOf ["return", "throw"], optional (rule .expression), mark ";"],
    all [wordOf ["break", "continue"], mark ";"],
    all [word "goto", oneOf [all [word "case", rule .expression], word "default", identifier],
      mark ";"],
    all [word "yield", oneOf [all [word "return", rule .expression], word "break"], mark ";"]]

/-- Statements in braces. -/
def block : Part :=
  node .block (braces (many (rule .statement)))

/-- A statement. -/
def statement : Part :=
  oneOf [rule .block,
    node .statement (mark ";"),
    region (rule .regionItem),
    node .statement keywordStatement,
    localFunction,
    node .statement (all [many (wordOf ["const", "static", "scoped"]), variableDeclaration,
      mark ";"]),
    node .statement (all [identifier, mark ":", rule .statement]),
    node .expressionStatement (all [rule .expression, mark ";"])]

end ScriptLint.Source.Grammar
