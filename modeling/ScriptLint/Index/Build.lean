/-
**The index of a list of scripts.**

Declarations of one name are parts of one type. First all names are collected, then the base lists
are resolved against them, so that the order of the scripts does not matter for what a base means.

* `Index.declare` — one more declaration.
* `Index.basesOf` — the base class and the interfaces of a declaration: the first entry of the list is
  the base class unless it is an interface or the declaration is one. An entry that resolves to
  nothing is taken for an interface by the look of its name.
* `Index.build` — the index.
-/

import ScriptLint.Resolver
import ScriptLint.Text.Case

namespace ScriptLint.Index

/-- The name looks like that of an interface: a capital I before another capital. -/
def looksLikeInterface (name : String) : Bool :=
  match (Name.simple name).toList with
  | 'I' :: c :: _ => Text.isUpper c
  | _ => false

/-- One more declaration of a type; its methods join those that are known. -/
def declare (types : List ProjectType) (decl : TypeDecl) : List ProjectType :=
  if types.any (·.symbol.qualifiedName == decl.name) then
    types.map fun type =>
      if type.symbol.qualifiedName == decl.name then
        { type with methods := decl.methods.foldl addNew type.methods }
      else
        type
  else
    types ++ [⟨⟨decl.name, none, []⟩, decl.home, decl.isInterface, decl.methods.foldl addNew []⟩]

/-- The index of all names, without bases. -/
def names (outlines : List Outline) : Index where
  types := (outlines.flatMap (·.types)).foldl declare []
  namespaces := (outlines.flatMap (·.namespaces)).foldl (fun known n => Name.learn known n.name) []
  globalUsings := (outlines.flatMap (·.globalUsings)).foldl addNew []

/-- What the base list of a declaration says. -/
structure Bases where
  type : String
  baseType : Option String
  interfaces : List String
deriving Repr, DecidableEq, Inhabited

/-- The base class and the interfaces of a declaration. -/
def basesOf (resolver : Resolver) (scope : Scope) (decl : TypeDecl) : Bases :=
  let resolved (written : String) : String := (resolver.resolve? written scope).getD written
  match decl.bases with
  | [] => ⟨decl.name, none, []⟩
  | first :: rest =>
    let isInterface :=
      match resolver.resolve? first scope with
      | some found => resolver.isInterface found
      | none => looksLikeInterface first
    if isInterface || decl.isInterface then
      ⟨decl.name, none, resolved first :: rest.map resolved⟩
    else
      ⟨decl.name, some (resolved first), rest.map resolved⟩

/-- Adds the bases of one declaration: the first base class counts, interfaces join. -/
def addBases (types : List ProjectType) (bases : Bases) : List ProjectType :=
  types.map fun type =>
    if type.symbol.qualifiedName == bases.type then
      { type with
        symbol :=
          { type.symbol with
            baseType := type.symbol.baseType.orElse fun _ => bases.baseType
            interfaces := bases.interfaces.foldl addNew type.symbol.interfaces } }
    else
      type

/-- The bases of all declarations of a script. -/
def outlineBases (resolver : Resolver) (outline : Outline) : List Bases :=
  let usings := Usings.ofOutline outline resolver.index.globalUsings
  outline.types.map fun decl =>
    basesOf resolver (Scope.ofOffset outline usings decl.span.start) decl

/-- The index of a project. -/
def build (catalog : Catalog) (outlines : List Outline) : Index :=
  let known := names outlines
  let bases := outlines.flatMap (outlineBases ⟨catalog, known⟩)
  { known with types := bases.foldl addBases known.types }

end ScriptLint.Index
