/-
**The words of a script.**

A script is read as a sequence of tokens. Blanks, comments and the directives that only inform are
no tokens; the lines that open and close conditional regions are, since the code of every region is
read. A string with holes is not one token: its text is dropped, and what stands in its holes is
code like any other, between marks of its own.

* `Token` — a token with its text and span. `isGlued` tells that nothing stands between it and the
  token before it.
* `isIdentifier` — a word that is not reserved.
-/

import ScriptLint.Directive
import ScriptLint.Span

namespace ScriptLint.Source

/-- What a token is. -/
inductive Token.Kind where
  /-- A keyword or an identifier. -/
  | word
  /-- A number, a character, or a string without holes. -/
  | literal
  /-- An operator or a bracket. -/
  | mark
  /-- The start of a string with holes. -/
  | textOpen
  /-- The end of a string with holes. -/
  | textClose
  /-- The start of a hole. -/
  | holeOpen
  /-- The end of a hole. -/
  | holeClose
  /-- A line that opens, divides or closes a conditional region. -/
  | directive (kind : Directive.Kind)
deriving Repr, DecidableEq, Inhabited

/-- A token of a script. -/
structure Token where
  kind : Token.Kind
  text : String
  span : Span
  isGlued : Bool
deriving Repr, DecidableEq, Inhabited

/-- The words that are no identifiers unless written with `@`. -/
def reservedWords : List String :=
  ["abstract", "as", "base", "bool", "break", "byte", "case", "catch", "char", "checked", "class",
    "const", "continue", "decimal", "default", "delegate", "do", "double", "else", "enum", "event",
    "explicit", "extern", "false", "finally", "fixed", "float", "for", "foreach", "goto", "if",
    "implicit", "in", "int", "interface", "internal", "is", "lock", "long", "namespace", "new",
    "null", "object", "operator", "out", "override", "params", "private", "protected", "public",
    "readonly", "ref", "return", "sbyte", "sealed", "short", "sizeof", "stackalloc", "static",
    "string", "struct", "switch", "this", "throw", "true", "try", "typeof", "uint", "ulong",
    "unchecked", "unsafe", "ushort", "using", "virtual", "void", "volatile", "while"]

/-- The types that have a keyword. -/
def predefinedTypes : List String :=
  ["bool", "byte", "char", "decimal", "double", "float", "int", "long", "object", "sbyte", "short",
    "string", "uint", "ulong", "ushort", "void"]

/-- The words that end an operand inside a query or a pattern, although they may be identifiers
elsewhere. -/
def joiningWords : List String :=
  ["and", "or", "when", "with", "where", "select", "orderby", "join", "let", "group", "into", "on",
    "equals", "by", "ascending", "descending", "from"]

namespace Token

/-- The token is the given word. -/
def isWord (word : String) (token : Token) : Bool :=
  token.kind == .word && token.text == word

/-- The token is one of the given words. -/
def isWordOf (words : List String) (token : Token) : Bool :=
  token.kind == .word && words.contains token.text

/-- The token is the given operator or bracket. -/
def isMark (mark : String) (token : Token) : Bool :=
  token.kind == .mark && token.text == mark

/-- The token is one of the given operators and brackets. -/
def isMarkOf (marks : List String) (token : Token) : Bool :=
  token.kind == .mark && marks.contains token.text

/-- The token is a word that may name something. -/
def isIdentifier (token : Token) : Bool :=
  token.kind == .word && !reservedWords.contains token.text

/-- The token is a name that ends no operand. -/
def isPlainIdentifier (token : Token) : Bool :=
  token.isIdentifier && !joiningWords.contains token.text

end Token

end ScriptLint.Source
