/-
**Trees of a script.**

A tree is a node with a kind, the span of its tokens and the trees below it, in the order of the
text. Only what the outline of a script asks for has a kind of its own; brackets, keywords and
operators leave no node.

* `Tree` — nodes.
* `Tree.hasErrors` — some token belonged to no declaration and no statement.
-/

import ScriptLint.Span

namespace ScriptLint.Source

/-- The clauses of a query expression. -/
inductive Clause where
  | fromIn
  | filter
  | order
  | joinOn
  | groupBy
  | bind
  | select
deriving Repr, DecidableEq, Inhabited

/-- What a node is. -/
inductive Kind where
  /-- A whole script. -/
  | script
  /-- A token that nothing could be made of. -/
  | error
  /-- A conditional region with its branches. -/
  | conditional
  /-- A using directive: marks, an alias if it has one, and a target. -/
  | usingDirective
  /-- The mark that a using directive holds for the whole project. -/
  | globalMark
  /-- The mark that a using directive imports the members of a type. -/
  | staticMark
  /-- The name that a using directive gives. -/
  | localName
  /-- What a using directive imports. -/
  | importTarget
  /-- A namespace with its body. -/
  | namespaceBlock
  /-- A namespace for the rest of the script. -/
  | namespaceLine
  /-- A class, struct or record. -/
  | typeDeclaration
  /-- An interface. -/
  | interfaceDeclaration
  /-- A method, local function, constructor or destructor. -/
  | routine
  /-- Any other declaration. -/
  | declaration
  /-- The name that a declaration introduces. -/
  | declaredName
  /-- The types after the colon of a type declaration. -/
  | baseList
  /-- One of them, its arguments left out. -/
  | baseType
  /-- Attributes in brackets. -/
  | attributeList
  /-- One of them. -/
  | attribute
  /-- The name of an attribute. -/
  | attributeName
  /-- The modifier `override`. -/
  | overrideMark
  /-- The interface before the name of a member. -/
  | explicitInterface
  /-- The parameters or type parameters of a declaration or a function, with their own attributes. -/
  | parameters
  /-- A type. -/
  | type
  /-- Statements in braces. -/
  | block
  /-- The labels and statements of a switch section. -/
  | switchSection
  /-- A statement outside every declaration. -/
  | globalStatement
  /-- An expression with a semicolon. -/
  | expressionStatement
  /-- Any other statement. -/
  | statement
  /-- A name. -/
  | identifier
  /-- A name with type arguments. -/
  | genericName
  /-- A name after a double colon. -/
  | aliasQualifiedName
  /-- A type that has a keyword. -/
  | predefinedType
  /-- The object itself, seen as its own type or as its base class. -/
  | selfReference
  /-- A member of an expression: the expression and the name. -/
  | memberAccess
  /-- A call: what is called, and the arguments. -/
  | invocation
  /-- The creation of an object: its type, arguments and initial values. -/
  | construction
  /-- A query expression, with its clauses. -/
  | query
  /-- A clause of a query. -/
  | clause (clause : Clause)
  /-- Any other expression. -/
  | expression
deriving Repr, DecidableEq, Inhabited

/-- A node of a script. -/
inductive Tree where
  | node (kind : Kind) (span : Span) (children : List Tree)
deriving Repr, Inhabited

namespace Tree

/-- What the node is. -/
def kind : Tree → Kind
  | node kind _ _ => kind

/-- The part of the text that the node covers. -/
def span : Tree → Span
  | node _ span _ => span

/-- The nodes right below. -/
def children : Tree → List Tree
  | node _ _ children => children

mutual

/-- Some node of the tree is an error. -/
def hasErrors : Tree → Bool
  | node kind _ children => kind == .error || anyErrors children

/-- Some node of the trees is an error. -/
def anyErrors : List Tree → Bool
  | [] => false
  | tree :: more => tree.hasErrors || anyErrors more

end

end Tree

end ScriptLint.Source
