/-
**From a tree to an outline.**

One walk through the tree, outer nodes before inner ones, finds everything an outline holds. On its
way down the walk knows the type around it; the namespace is also handed from each node to the next,
since a namespace without braces stays open for all that follows it.

* `shapeOf` — the shape of a call, from what is called.
* `Fact` — one finding of the walk.
* `visit` — the walk. A type takes the names of the routines below it that lie in no inner type. The
  shapes of calls are kept beside the findings.
* `Outline.ofTree`, `Outline.read` — the outline of a tree and of a text.
-/

import ScriptLint.Directive.Scan
import ScriptLint.Name
import ScriptLint.Outline
import ScriptLint.Source.Grammar

namespace ScriptLint.Outline

open Source

/-! ### Texts of nodes -/

/-- The text of a span. -/
def textOf (text : List Char) (span : Span) : List Char :=
  (Text.slice? span.start span.stop text).getD []

/-- The text of a node without blanks. -/
def compact (text : List Char) (tree : Tree) : String :=
  String.ofList ((textOf text tree.span).filter (!Text.isBlank ·))

/-- The text of a name without type arguments. -/
def plainName (text : List Char) (tree : Tree) : String :=
  Name.normalize (compact text tree)

/-- The name of an attribute's type, which ends in `Attribute` even if it is not written so. -/
def attributeName (written : String) : String :=
  let name := Name.normalize written
  if List.isSuffixOf "Attribute".toList name.toList then name else name ++ "Attribute"

/-! ### Shapes of calls -/

/-- The dotted name that an expression is, if it is one. -/
def path? (text : List Char) : Tree → Option String
  | .node .memberAccess _ [receiver, name] => do
    let head ← path? text receiver
    pure (head ++ "." ++ plainName text name)
  | tree =>
    match tree.kind with
    | .identifier | .genericName | .aliasQualifiedName | .predefinedType => some (plainName text tree)
    | _ => none

/-- The names of the methods in a chain of calls, the nearest first. -/
def callChain (text : List Char) : Tree → List String
  | .node .invocation _ (.node .memberAccess _ [receiver, name] :: _) =>
    plainName text name :: callChain text receiver
  | .node .invocation _ (called :: _) =>
    match called.kind with
    | .identifier | .genericName => [plainName text called]
    | _ => []
  | _ => []

/-- What a method is taken from. -/
def receiverOf (text : List Char) (tree : Tree) : Receiver :=
  if tree.kind == .invocation then
    .call (callChain text tree)
  else
    match path? text tree with
    | some name => .path name
    | none => .expression

/-- The shape of a call of the given expression. -/
def shapeOf (text : List Char) : Tree → CallShape
  | .node .memberAccess _ [receiver, name] =>
    if receiver.kind == .selfReference then
      .bare (plainName text name)
    else
      .member (receiverOf text receiver) (plainName text name)
  | called =>
    match called.kind with
    | .identifier | .genericName => .bare (plainName text called)
    | _ => .unnamed

/-- The operator that a clause stands for. -/
def operatorOf : Clause → String
  | .fromIn => "SelectMany"
  | .filter => "Where"
  | .order => "OrderBy"
  | .joinOn => "Join"
  | .groupBy => "GroupBy"
  | .bind | .select => "Select"

/-- The operator that a query begins with: that of its second clause. -/
def queryOperator (clauses : List Tree) : String :=
  let operators := clauses.filterMap fun tree =>
    match tree.kind with
    | .clause clause => some (operatorOf clause)
    | _ => none
  (operators.drop 1).head?.getD "Select"

/-! ### Findings -/

/-- One finding of the walk. -/
inductive Fact where
  | directive (found : Import) (isGlobal : Bool)
  | call (found : Call)
  | routine (found : RoutineDecl)
  | type (found : TypeDecl)
  | scope (found : NamespaceScope)
deriving Repr, DecidableEq, Inhabited

/-- Where a node stands, as far as it matters to a call that may be a whole statement. -/
inductive Place where
  /-- Directly in a list of statements. -/
  | inList
  /-- Directly in an expression statement of a list. -/
  | wholeStatement (statement : Span)
  /-- Anywhere else. -/
  | elsewhere
deriving Repr, DecidableEq, Inhabited

/-- Where the nodes right below a node stand. -/
def Place.below (place : Place) (kind : Kind) (span : Span) : Place :=
  match kind, place with
  | .block, _ | .switchSection, _ | .globalStatement, _ => .inList
  | .expressionStatement, .inList => .wholeStatement span
  | _, _ => .elsewhere

/-- The statement that a call at this place is. -/
def Place.statement? : Place → Option Span
  | wholeStatement statement => some statement
  | _ => none

/-- The nodes of a kind. -/
def ofKind (kind : Kind) (trees : List Tree) : List Tree :=
  trees.filter (·.kind == kind)

/-- The text of the name that a declaration introduces. -/
def declaredName? (text : List Char) (children : List Tree) : Option String :=
  (ofKind .declaredName children).head?.map fun tree => String.ofList (textOf text tree.span)

/-- The import that a using directive makes. -/
def importFact? (text : List Char) (span : Span) (children : List Tree) : Option Fact := do
  let target ← (ofKind .importTarget children).head?
  let localName := (ofKind .localName children).head?.map (compact text)
  let isStatic := !(ofKind .staticMark children).isEmpty
  let isGlobal := !(ofKind .globalMark children).isEmpty
  let name := String.ofList (Name.stripGlobal (compact text target).toList)
  pure (.directive ⟨span, name, localName, isStatic⟩ (isGlobal && !isStatic && localName.isNone))

/-- The attributes in attribute lists. -/
def attributesOf (text : List Char) (children : List Tree) : List String :=
  (ofKind .attributeList children).flatMap fun list =>
    (ofKind .attribute list.children).flatMap fun tree =>
      ((ofKind .attributeName tree.children).take 1).map fun name =>
        attributeName (compact text name)

/-- The routine that a declaration makes. -/
def routineDecl? (text : List Char) (owner : Option String) (span : Span) (children : List Tree) :
    Option RoutineDecl := do
  let name ← declaredName? text children
  pure { name, span
         attributes := attributesOf text children
         isOverride := !(ofKind .overrideMark children).isEmpty
         isExplicitImpl := !(ofKind .explicitInterface children).isEmpty
         containingType := owner }

/-- The types in a base list. -/
def basesOf (text : List Char) (children : List Tree) : List String :=
  (ofKind .baseList children).flatMap fun list =>
    (ofKind .baseType list.children).map (plainName text)

/-- The call that a node is. -/
def callOf? (text : List Char) (place : Place) (kind : Kind) (span : Span) (children : List Tree) :
    Option ShapedCall :=
  match kind, children with
  | .invocation, called :: _ =>
    some ⟨⟨span, .invocation, compact text called, place.statement?⟩, shapeOf text called⟩
  | .construction, type :: _ =>
    let written := compact text type
    some ⟨⟨span, .construction, written, none⟩, .construct (Name.normalize written)⟩
  | .query, _ =>
    let operator := queryOperator children
    some ⟨⟨span, .query, "query " ++ operator, none⟩, .query operator⟩
  | _, _ => none

/-- The name of a namespace inside another one. -/
def scopeName? (text : List Char) (outer : Option String) (children : List Tree) :
    Option String := do
  let tree ← (ofKind .declaredName children).head?
  pure (Name.qualify outer (String.ofList (Name.stripGlobal (compact text tree).toList)))

/-! ### The walk -/

/-- What the walk brings back from a node: its findings, the shapes of the calls among them, the names
of the routines that belong to the type around the node, and the namespace that is open after it. -/
structure Harvest where
  facts : List Fact
  shapes : List CallShape
  methods : List String
  home : Option String
deriving Repr, DecidableEq, Inhabited

mutual

/-- Walks through a node, in the namespace `home` and the type `owner`. -/
def visit (text : List Char) (home owner : Option String) (place : Place) : Tree → Harvest
  | .node kind span children =>
    let below := place.below kind span
    match kind with
    | .usingDirective => ⟨(importFact? text span children).toList, [], [], home⟩
    | .namespaceBlock =>
      match scopeName? text home children with
      | some name =>
        let inner := visitAll text (some name) owner below children
        { inner with facts := .scope ⟨name, span⟩ :: inner.facts, home }
      | none => { visitAll text home owner below children with home }
    | .namespaceLine =>
      match scopeName? text home children with
      | some name =>
        let inner := visitAll text (some name) owner below children
        { inner with facts := .scope ⟨name, ⟨span.start, Text.size text⟩⟩ :: inner.facts }
      | none => visitAll text home owner below children
    | .typeDeclaration | .interfaceDeclaration =>
      match declaredName? text children with
      | some simple =>
        let name := Name.qualify (owner.orElse fun _ => home) simple
        let inner := visitAll text home (some name) below children
        let found : TypeDecl := {
          name, home, span
          isInterface := kind == .interfaceDeclaration
          bases := basesOf text children
          methods := inner.methods }
        { inner with facts := .type found :: inner.facts, methods := [] }
      | none => visitAll text home owner below children
    | .routine =>
      let inner := visitAll text home owner below children
      match routineDecl? text owner span children with
      | some found =>
        { inner with facts := .routine found :: inner.facts, methods := found.name :: inner.methods }
      | none => inner
    | _ =>
      let inner := visitAll text home owner below children
      let found := (callOf? text place kind span children).toList
      { inner with
        facts := found.map (.call ·.toCall) ++ inner.facts
        shapes := found.map (·.shape) ++ inner.shapes }

/-- Walks through neighbouring nodes. -/
def visitAll (text : List Char) (home owner : Option String) (place : Place) :
    List Tree → Harvest
  | [] => ⟨[], [], [], home⟩
  | tree :: more =>
    let first := visit text home owner place tree
    let rest := visitAll text first.home owner place more
    { facts := first.facts ++ rest.facts
      shapes := first.shapes ++ rest.shapes
      methods := first.methods ++ rest.methods
      home := rest.home }

end

/-- The outline of a text with the given tree. -/
def ofTree (text : String) (tree : Tree) : Outline :=
  let harvest := visit text.toList none none .elsewhere tree
  let facts := harvest.facts
  { text
    directives := Directive.scan text
    imports := facts.filterMap fun
      | .directive found _ => some found
      | _ => none
    globalUsings := facts.filterMap fun
      | .directive found true => some found.target
      | _ => none
    calls := (facts.filterMap fun
      | .call found => some found
      | _ => none).zipWith ShapedCall.mk harvest.shapes
    routines := facts.filterMap fun
      | .routine found => some found
      | _ => none
    types := facts.filterMap fun
      | .type found => some found
      | _ => none
    namespaces := facts.filterMap fun
      | .scope found => some found
      | _ => none
    hasErrors := tree.hasErrors }

/-- The outline of a script. -/
def read (text : String) : Outline :=
  ofTree text (readTree text)

end ScriptLint.Outline
