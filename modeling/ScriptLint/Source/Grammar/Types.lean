/-
**Names and types.**

* `simpleName`, `name` — a name with type arguments, and several of them with dots between.
* `type` — a type with all its marks.
* `narrowType` — a type inside an expression, where a question mark after it may begin a conditional
  expression: it belongs to the type only if no operand follows.
-/

import ScriptLint.Source.Grammar.Rule

namespace ScriptLint.Source.Grammar

open Peg

/-- A name in a type. -/
def typeWord : Part :=
  token fun token => token.isIdentifier && token.text != "await"

/-- Types between angle brackets, or as many commas as open types have. -/
def typeArguments : Part :=
  all [mark "<", alt (sepBy1 (rule .type) comma) (many comma), mark ">"]

/-- A name with the type arguments that may follow it. -/
def simpleName : Part :=
  all [typeWord, optional (rule .typeArguments)]

/-- A name with dots. -/
def name : Part :=
  all [optional (all [identifier, mark "::"]), rule .simpleName,
    many (all [mark ".", rule .simpleName])]

/-- A keyword that is a type. -/
def predefinedType : Part :=
  wordOf predefinedTypes

/-- The type of several values in parentheses. -/
def tupleType : Part :=
  let part := all [rule .type, optional identifier]
  parens (all [part, many1 (all [comma, part])])

/-- The type of a pointer to a function. -/
def functionPointer : Part :=
  all [word "delegate", mark "*",
    optional (all [wordOf ["managed", "unmanaged"], optional (brackets (sepBy1 identifier comma))]),
    rule .typeArguments]

/-- A type without the marks behind it. -/
def typeCore : Part :=
  oneOf [all [word "ref", optional (word "readonly"), rule .type], functionPointer, predefinedType,
    tupleType, rule .name]

/-- The brackets of an array type. -/
def rank : Part :=
  brackets (many comma)

/-- A type. -/
def type : Part :=
  node .type (all [typeCore, many (oneOf [markOf ["?", "*"], rank])])

/-- A token that an operand may begin with. -/
def startsOperand (token : Token) : Bool :=
  match token.kind with
  | .literal | .textOpen => true
  | .word =>
    token.isPlainIdentifier ||
      token.isWordOf (predefinedTypes ++ ["this", "base", "new", "typeof", "default", "checked",
        "unchecked", "sizeof", "delegate", "null", "true", "false", "stackalloc", "throw"])
  | .mark => token.isMarkOf ["(", "[", "-", "+", "!", "~", "++", "--", "&", "*", "^", ".."]
  | _ => false

/-- A type inside an expression. -/
def narrowType : Part :=
  node .type (all [typeCore,
    many (oneOf [rank, all [mark "?", notAhead (token startsOperand)]])])

end ScriptLint.Source.Grammar
