/-
**Declarations, and whole scripts.**

* `attributes` — attribute lists, also those in a conditional region.
* `member` — what may stand in a type or a namespace.
* `item` — what may stand in a script; a statement there is marked as standing outside every
  declaration. In a conditional region (`regionItem`) it is not.
* `script` — a whole script. A token that no item begins with is kept as an error.
-/

import ScriptLint.Source.Grammar.Statements

namespace ScriptLint.Source.Grammar

open Peg

/-! ### Attributes, modifiers, parameters -/

/-- An argument of an attribute. -/
def attributeArgument : Part :=
  all [optional (all [identifier, markOf ["=", ":"]]), rule .expression]

/-- An attribute. -/
def oneAttribute : Part :=
  node .attribute (all [node .attributeName (rule .name),
    optional (parens (sepBy attributeArgument comma))])

/-- Any word. -/
def anyWord : Part :=
  kindOf .word

/-- Attributes in brackets, with what they are about. -/
def attributeList : Part :=
  node .attributeList (brackets (all [optional (all [anyWord, mark ":"]), sepBy1 oneAttribute comma,
    optional comma]))

/-- The attributes of a declaration. -/
def attributes : Part :=
  many (oneOf [attributeList, region attributeList])

/-- A modifier of a declaration. The words that are modifiers only here need a word or a type after
them. -/
def modifier : Part :=
  oneOf [node .overrideMark (word "override"),
    wordOf ["abstract", "const", "extern", "fixed", "internal", "new", "private", "protected",
      "public", "readonly", "sealed", "static", "unsafe", "virtual", "volatile"],
    all [word "ref", ahead (wordOf ["struct", "partial"])],
    all [wordOf ["async", "file", "partial", "required"], ahead (oneOf [anyWord, mark "("])]]

/-- What stands before a declaration. -/
def preamble : Part :=
  all [rule .attributes, many modifier]

/-- A parameter. The type may be missing in a lambda. -/
def parameter : Part :=
  all [rule .attributes,
    many (wordOf ["this", "ref", "out", "in", "params", "scoped", "readonly"]),
    oneOf [all [rule .type, identifier], identifier, word "__arglist"],
    optional (all [mark "=", rule .expression])]

/-- Parameters in parentheses. -/
def parameters : Part :=
  node .parameters (parens (sepBy parameter comma))

/-! ### Types -/

/-- A semicolon that follows a closing brace at once. -/
def gluedSemicolon : Part :=
  optional (token fun token => token.isMark ";" && token.isGlued)

/-- The types after the colon, each with the arguments for its constructor. -/
def baseList : Part :=
  node .baseList (all [mark ":",
    sepBy1 (all [node .baseType (rule .type), optional (rule .arguments)]) comma])

/-- A type declaration that begins with the keyword. -/
def typeDeclarationWith (kind : Kind) (keyword : Part) : Part :=
  node kind (all [preamble, keyword, declaredName, optional typeParameters,
    optional (rule .parameters), optional baseList, constraints,
    oneOf [all [braces (many (rule .member)), gluedSemicolon], mark ";"]])

/-- A class, struct, record, interface, enumeration or delegate. -/
def typeDeclaration : Part :=
  oneOf [
    typeDeclarationWith .typeDeclaration (oneOf [wordOf ["class", "struct"],
      all [word "record", optional (wordOf ["class", "struct"]), ahead identifier]]),
    typeDeclarationWith .interfaceDeclaration (word "interface"),
    node .declaration (all [preamble, word "enum", identifier, optional (all [mark ":", rule .type]),
      braces (many (rule .enumMember)), gluedSemicolon]),
    node .declaration (all [preamble, word "delegate", rule .type, identifier,
      optional typeParameters, rule .parameters, constraints, mark ";"])]

/-- A member of an enumeration, or the comma between two. -/
def enumMember : Part :=
  oneOf [comma, region (rule .enumMember),
    all [rule .attributes, identifier, optional (all [mark "=", rule .expression])]]

/-! ### Members -/

/-- The interface before the name of a member. -/
def explicitInterface : Part :=
  optional (node .explicitInterface (all [optional (all [identifier, mark "::"]),
    many1 (all [rule .simpleName, mark "."])]))

/-- An expression after an arrow. -/
def arrowBody : Part :=
  all [mark "=>", rule .expression, mark ";"]

/-- The accessors of a property, an indexer or an event. -/
def accessors : Part :=
  let one := all [rule .attributes, many modifier, identifier, routineBody]
  braces (many (oneOf [one, region one]))

/-- A constructor or destructor. -/
def lifetimeRoutine : Part :=
  let base := optional (all [mark ":", wordOf ["base", "this"], rule .arguments])
  oneOf [node .routine (all [preamble, declaredName, rule .parameters, base, routineBody]),
    node .routine (all [preamble, mark "~", declaredName, parens empty, routineBody])]

/-- A method. -/
def methodDeclaration : Part :=
  node .routine (all [preamble, rule .type, explicitInterface, declaredName,
    optional typeParameters, rule .parameters, constraints, routineBody])

/-- An operator or a conversion. -/
def operatorDeclaration : Part :=
  let operators := oneOf [wordOf ["true", "false"],
    many1 (markOf ["+", "-", "!", "~", "++", "--", "*", "/", "%", "&", "|", "^", "<<", "==", "!=",
      "<", ">", "<=", ">="])]
  oneOf [
    node .declaration (all [preamble, wordOf ["implicit", "explicit"], explicitInterface,
      word "operator", optional (word "checked"), rule .type, rule .parameters, routineBody]),
    node .declaration (all [preamble, rule .type, explicitInterface, word "operator",
      optional (word "checked"), operators, rule .parameters, routineBody])]

/-- An event. -/
def eventDeclaration : Part :=
  node .declaration (all [preamble, word "event", rule .type,
    oneOf [all [explicitInterface, identifier, rule .accessors],
      all [sepBy1 declarator comma, mark ";"]]])

/-- An indexer or a property. -/
def propertyDeclaration : Part :=
  oneOf [
    node .declaration (all [preamble, rule .type, explicitInterface, word "this",
      brackets (sepBy parameter comma), oneOf [rule .accessors, arrowBody]]),
    node .declaration (all [preamble, rule .type, explicitInterface, identifier,
      oneOf [all [rule .accessors, optional (all [mark "=", rule .expression, mark ";"])],
        arrowBody]])]

/-- Fields of one type. -/
def fieldDeclaration : Part :=
  node .declaration (all [preamble, rule .type, sepBy1 declarator comma, mark ";"])

/-! ### Namespaces and scripts -/

/-- A using directive. -/
def usingDirective : Part :=
  node .usingDirective (all [optional (node .globalMark (word "global")), word "using",
    oneOf [
      all [optional (word "unsafe"), node .localName identifier, mark "=",
        node .importTarget (rule .type)],
      all [optional (node .staticMark (word "static")), optional (word "unsafe"),
        node .importTarget (rule .name)]],
    mark ";"])

/-- The name of a namespace. -/
def namespaceName : Part :=
  node .declaredName (rule .name)

/-- A namespace with its members. -/
def namespaceBlock : Part :=
  node .namespaceBlock (all [word "namespace", namespaceName, braces (many (rule .member)),
    gluedSemicolon])

/-- An external alias. -/
def externAlias : Part :=
  node .declaration (all [word "extern", word "alias", identifier, mark ";"])

/-- What may stand in a type or a namespace. -/
def member : Part :=
  oneOf [mark ";", region (rule .member), externAlias, usingDirective, namespaceBlock,
    typeDeclaration, lifetimeRoutine, eventDeclaration, operatorDeclaration, methodDeclaration,
    propertyDeclaration, fieldDeclaration]

/-- An attribute of the whole program. -/
def globalAttribute : Part :=
  node .declaration (all [ahead (all [mark "[", wordOf ["assembly", "module"], mark ":"]),
    attributeList])

/-- What may stand in a script besides statements. -/
def declarationItem : Part :=
  oneOf [externAlias, usingDirective, globalAttribute, region (rule .regionItem), namespaceBlock,
    node .namespaceLine (all [word "namespace", namespaceName, mark ";"]), typeDeclaration]

/-- What may stand in a script. -/
def item : Part :=
  oneOf [declarationItem, node .globalStatement (rule .statement)]

/-- What may stand in a conditional region of a script or a block. -/
def regionItem : Part :=
  oneOf [declarationItem, rule .statement]

/-- A whole script. -/
def script : Part :=
  node .script (many (oneOf [rule .item, node .error (token fun _ => true)]))

end ScriptLint.Source.Grammar
