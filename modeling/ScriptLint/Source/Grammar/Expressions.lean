/-
**Expressions.**

Operators are read in a row, without regard to how tightly they bind: which calls an expression holds
does not depend on it. What does is kept: an operand with everything that is accessed through it, and
that an operation is not the call it begins with.

* `primary`, `access` — the smallest operands, and members, calls and elements taken from them.
* `operand` — an operand with the operators and casts before it.
* `expression` — operands with operators between and behind them, a lambda, or a query.
* `condition` — an expression that a double arrow may follow, so that no lambda is read there.
* `pattern` — what follows `is` and `case`.
-/

import ScriptLint.Source.Grammar.Types

namespace ScriptLint.Source.Grammar

open Peg

/-! ### Names and literals -/

/-- After type arguments in an expression one of these must follow, or else the bracket was an
operator. -/
def afterTypeArguments : Part :=
  oneOf [markOf ["(", ")", "]", "\x7b", "\x7d", ":", ";", ",", ".", "?", "==", "!=", "|", "^", "&&",
    "||", "&", "[", "??", "=>", "->", "::"], kindOf .holeClose]

/-- Type arguments in an expression. -/
def expressionArguments : Part :=
  all [rule .typeArguments, ahead afterTypeArguments]

/-- A name in an expression. -/
def expressionName : Part :=
  oneOf [node .genericName (all [identifier, expressionArguments]), node .identifier identifier]

/-- A name from an outermost namespace or an alias. -/
def aliasQualifiedName : Part :=
  node .aliasQualifiedName (all [identifier, mark "::", identifier, optional expressionArguments])

/-- A value in a hole of a string, with the width it may have. -/
def hole : Part :=
  all [kindOf .holeOpen, rule .expression, optional (all [comma, rule .expression]),
    kindOf .holeClose]

/-- A literal. -/
def literal : Part :=
  node .expression (oneOf [kindOf .literal, wordOf ["true", "false", "null"],
    all [kindOf .textOpen, many hole, kindOf .textClose]])

/-! ### Arguments and initial values -/

/-- Names in parentheses that take the parts of a value. -/
def designation : Part :=
  parens (sepBy (oneOf [rule .designation, all [rule .type, identifier], identifier]) comma)

/-- A variable declared as an argument. -/
def declarationArgument : Part :=
  oneOf [all [rule .type, token (·.isPlainIdentifier), ahead (markOf [",", ")"])],
    all [word "var", rule .designation]]

/-- An argument, with its name and the way it is passed. -/
def argument : Part :=
  all [optional (all [identifier, mark ":"]), optional (wordOf ["ref", "out", "in"]),
    oneOf [declarationArgument, rule .expression]]

/-- Arguments in parentheses. -/
def arguments : Part :=
  parens (sepBy argument comma)

/-- A value of a list or member of an object. -/
def initialValue : Part :=
  oneOf [rule .initializer,
    all [brackets (sepBy argument comma), mark "=", oneOf [rule .initializer, rule .expression]],
    all [identifier, mark "=", rule .initializer],
    rule .expression]

/-- Initial values in braces. -/
def initializer : Part :=
  braces (all [sepBy initialValue comma, optional comma])

/-! ### Creation -/

/-- The bounds of an array, or the brackets alone. -/
def arrayBounds : Part :=
  brackets (all [sepBy (rule .expression) comma, many comma])

/-- The element type of an array. -/
def elementType : Part :=
  all [typeCore, many (markOf ["?", "*"])]

/-- The forms of `new` that name no type to be constructed. -/
def untypedCreation : Part :=
  node .expression (oneOf [
    all [word "new", elementType, many1 arrayBounds, optional (rule .initializer)],
    all [word "new", rank, rule .initializer],
    all [word "new", rule .initializer],
    all [word "new", rule .arguments, optional (rule .initializer)]])

/-- The construction of an object. -/
def construction : Part :=
  node .construction (all [word "new", node .type typeCore, optional (rule .arguments),
    optional (rule .initializer)])

/-- An array on the stack. -/
def stackArray : Part :=
  node .expression (all [word "stackalloc", optional elementType, many1 arrayBounds,
    optional (rule .initializer)])

/-! ### Operands -/

/-- A method without a name. -/
def anonymousMethod : Part :=
  node .expression (all [many (wordOf ["async", "static"]), word "delegate",
    optional (rule .parameters), rule .block])

/-- An operator with a keyword and parentheses. -/
def keywordOperand : Part :=
  node .expression (oneOf [all [wordOf ["typeof", "sizeof", "default"], parens (rule .type)],
    all [wordOf ["checked", "unchecked"], parens (rule .expression)], word "default"])

/-- A conditional region inside an expression. -/
def expressionRegion : Part :=
  region (rule .expression)

/-- The smallest operands. -/
def primary : Part :=
  oneOf [literal, aliasQualifiedName, anonymousMethod, expressionName,
    node .selfReference (wordOf ["this", "base"]), untypedCreation, construction, stackArray,
    keywordOperand, node .predefinedType predefinedType,
    node .expression (parens (sepBy1 argument comma)),
    node .expression (brackets (all [sepBy (rule .expression) comma, optional comma])),
    expressionRegion]

/-- A bracket that follows the question mark of a conditional access at once. -/
def gluedBracket : Part :=
  token fun token => token.isMark "[" && token.isGlued

/-- What may be taken from an operand: a member, a call, an element, a member or element if there is
one, a step, or the assurance that it is not null. -/
def accessTail : Part :=
  oneOf [node .memberAccess (all [markOf [".", "->"], expressionName]),
    node .invocation (rule .arguments),
    node .expression (brackets (sepBy argument comma)),
    node .expression (all [mark "?", mark ".", expressionName]),
    node .expression (all [mark "?", gluedBracket, sepBy argument comma, mark "]"]),
    node .expression (markOf ["++", "--", "!"])]

/-- An operand with what is taken from it. -/
def access : Part :=
  grow (rule .primary) accessTail

/-- What follows a cast; after a type with a keyword also a sign. -/
def castHead : Part :=
  let follows := oneOf [all [mark "!", token startsOperand],
    token fun token => startsOperand token && !token.isMarkOf
      ["[", "-", "+", "!", "++", "--", "&", "*", "^", ".."]]
  oneOf [all [parens (all [predefinedType, many (oneOf [markOf ["?", "*"], rank])]),
      ahead (token fun token => startsOperand token && !token.isMarkOf ["[", ".."])],
    all [parens (rule .type), ahead follows]]

/-- An operand with the operators before it. -/
def operand : Part :=
  oneOf [node .expression (all [castHead, rule .operand]),
    node .expression (all [markOf ["+", "-", "!", "~", "++", "--", "&", "*", "^"], rule .operand]),
    node .expression (all [mark "..", optional (rule .operand)]),
    node .expression (all [word "await", rule .operand]),
    rule .access]

/-! ### Operations -/

/-- An operator that assigns. -/
def assignment : Part :=
  oneOf [markOf ["=", "+=", "-=", "*=", "/=", "%=", "&=", "|=", "^=", "<<=", "??="],
    all [mark ">", mark ">", mark ">="], all [mark ">", mark ">="]]

/-- An operator between two operands. -/
def binaryOperator : Part :=
  oneOf [all [mark ">", mark ">", mark ">"], all [mark ">", mark ">"],
    markOf ["+", "-", "*", "/", "%", "<<", "<", ">", "<=", ">=", "==", "!=", "&", "|", "^", "&&",
      "||", "??"]]

/-- An exception as a value. -/
def throwExpression : Part :=
  node .expression (all [word "throw", rule .expression])

/-- A case of a switch expression. -/
def switchArm : Part :=
  all [rule .pattern, optional (all [word "when", rule .condition]), mark "=>", rule .expression]

/-- What follows an operand, apart from an assignment. -/
def operationTail : List Part :=
  [all [binaryOperator, oneOf [throwExpression, rule .operand]],
    all [word "is", rule .pattern],
    all [word "as", rule .narrowType],
    all [word "switch", braces (all [sepBy switchArm comma, optional comma])],
    all [word "with", rule .initializer],
    all [mark "..", optional (rule .operand)],
    all [mark "?", rule .expression, mark ":", rule .expression]]

/-- An expression that a double arrow may follow. -/
def condition : Part :=
  grow (rule .operand) (node .expression (oneOf operationTail))

/-- An expression. -/
def expression : Part :=
  oneOf [rule .lambda, rule .query, throwExpression,
    node .expression (all [word "ref", rule .expression]),
    grow (rule .operand)
      (node .expression (oneOf (all [assignment, rule .expression] :: operationTail)))]

/-! ### Lambdas and queries -/

/-- Tokens in parentheses. -/
def balanced : Part :=
  parens (many (oneOf [rule .balanced, token fun token => !token.isMarkOf ["(", ")"]]))

/-- The words before a lambda. -/
def lambdaWords : Part :=
  many (wordOf ["async", "static"])

/-- The start of a lambda up to its arrow; attributes may stand before it. -/
def lambdaAhead : Part :=
  all [many (brackets (many (token fun token => !token.isMarkOf ["[", "]"]))), lambdaWords,
    oneOf [identifier, rule .balanced, all [rule .type, rule .balanced]], mark "=>"]

/-- A function written as an expression. -/
def lambda : Part :=
  node .expression (all [ahead lambdaAhead, rule .attributes, lambdaWords,
    oneOf [all [identifier, mark "=>"], all [rule .parameters, mark "=>"],
      all [rule .type, rule .parameters, mark "=>"]],
    oneOf [rule .block, rule .expression]])

/-- The variable of a clause, up to the word after it. -/
def rangeVariable : Part :=
  all [oneOf [all [identifier, ahead (word "in")], all [rule .type, identifier]], word "in"]

/-- The clause that a query begins with. -/
def fromClause : Part :=
  node (.clause .fromIn) (all [word "from", rangeVariable, rule .expression])

/-- The clauses in the middle of a query. -/
def queryClause : Part :=
  oneOf [fromClause,
    node (.clause .bind) (all [word "let", identifier, mark "=", rule .expression]),
    node (.clause .filter) (all [word "where", rule .expression]),
    node (.clause .joinOn) (all [word "join", rangeVariable, rule .expression, word "on",
      rule .expression, word "equals", rule .expression, optional (all [word "into", identifier])]),
    node (.clause .order) (all [word "orderby",
      sepBy1 (all [rule .expression, optional (wordOf ["ascending", "descending"])]) comma])]

/-- What follows the first clause of a query. -/
def queryBody : Part :=
  all [many queryClause,
    oneOf [node (.clause .select) (all [word "select", rule .expression]),
      node (.clause .groupBy) (all [word "group", rule .expression, word "by", rule .expression])],
    optional (all [word "into", identifier, rule .queryBody])]

/-- A query. -/
def query : Part :=
  node .query (all [ahead (all [word "from", rangeVariable]), fromClause, rule .queryBody])

/-! ### Patterns -/

/-- A pattern for a part of a value, with the name of the part. -/
def partPattern : Part :=
  all [optional (all [sepBy1 identifier (mark "."), mark ":"]), rule .pattern]

/-- Patterns for parts in parentheses. -/
def positionalPattern : Part :=
  parens (sepBy partPattern comma)

/-- Patterns for named members in braces. -/
def propertyPattern : Part :=
  braces (all [sepBy partPattern comma, optional comma])

/-- The name that a pattern gives to the value. -/
def patternName : Part :=
  optional (token (·.isPlainIdentifier))

/-- The operators that may follow inside a constant. -/
def constantTail : Part :=
  many (all [markOf ["+", "-", "*", "/", "%", "&", "|", "^", "<<"], rule .operand])

/-- A pattern without `and` and `or`. -/
def patternUnit : Part :=
  oneOf [all [word "not", rule .patternUnit],
    all [markOf ["<", "<=", ">", ">="], rule .operand, constantTail],
    all [castHead, rule .operand, constantTail],
    all [positionalPattern, optional propertyPattern, patternName],
    all [brackets (sepBy (rule .pattern) comma), patternName],
    all [mark "..", optional (rule .patternUnit)],
    all [propertyPattern, patternName],
    all [notAhead (all [word "nameof", mark "("]), rule .narrowType, notAhead (markOf [".", "::"]),
      optional positionalPattern, optional propertyPattern, patternName, constantTail],
    all [rule .operand, constantTail]]

/-- A pattern. -/
def pattern : Part :=
  sepBy1 (rule .patternUnit) (wordOf ["and", "or"])

end ScriptLint.Source.Grammar
