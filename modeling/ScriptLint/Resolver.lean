/-
**From written names to known types.**

A resolver knows the types of the project and those of the catalog; of two with one name that of the
project counts.

* `baseChain` — a type and its base classes, cut before the first repetition and after `depthLimit`.
* `allInterfaces` — the interfaces of the chain and those that they list, depth first, the last listed
  first, each once and at most `depthLimit` of them.
* `candidates` — the qualified names that a written name may stand for, in the order in which they
  are tried; `resolve?` — the first that is known.
* `namespacePrefix?` — the longest known namespace that a dotted path goes through.
-/

import ScriptLint.CallSite
import ScriptLint.Catalog
import ScriptLint.Index
import ScriptLint.Scope

namespace ScriptLint

/-- The types of a project and of its libraries. -/
structure Resolver where
  catalog : Catalog
  index : Index
deriving Repr, DecidableEq, Inhabited

namespace Resolver

/-- The name is that of a known type. -/
def isKnown (resolver : Resolver) (name : String) : Bool :=
  (resolver.index.type? name).isSome || (resolver.catalog.type? name).isSome

/-- The name is that of a known namespace. -/
def isKnownNamespace (resolver : Resolver) (name : String) : Bool :=
  resolver.index.hasNamespace name || resolver.catalog.hasNamespace name

/-- The name is that of a known interface. -/
def isInterface (resolver : Resolver) (name : String) : Bool :=
  match resolver.index.type? name with
  | some type => type.isInterface
  | none =>
    match resolver.catalog.type? name with
    | some type => type.isInterface
    | none => false

/-- The symbol of a known type. -/
def lookup (resolver : Resolver) (name : String) : Option TypeSymbol :=
  match resolver.index.type? name with
  | some type => some type.symbol
  | none => (resolver.catalog.type? name).map (·.symbol)

/-- The namespace of a known type. -/
def homeOf (resolver : Resolver) (name : String) : Option String :=
  match resolver.index.type? name with
  | some type => type.home
  | none => (resolver.catalog.type? name).bind (·.home)

/-- Whether a known type declares a method; unknown for a library type that lists none. -/
def declares (resolver : Resolver) (name method : String) : Option Bool :=
  match resolver.index.type? name with
  | some type => some (type.methods.contains method)
  | none =>
    match resolver.catalog.type? name with
    | some type => if type.methods.isEmpty then none else some (type.methods.contains method)
    | none => none

/-! ### Hierarchies -/

/-- The first `count` names that following the base classes leads to. -/
def ancestors (resolver : Resolver) : Nat → String → List String
  | 0, _ => []
  | count + 1, name =>
    match (resolver.lookup name).bind (·.baseType) with
    | some base => name :: resolver.ancestors count base
    | none => [name]

/-- The longest start of a list, after the names already seen, in which no name is repeated. -/
def untilRepeated (seen : List String) : List String → List String
  | [] => []
  | name :: more =>
    if seen.contains name then [] else name :: untilRepeated (name :: seen) more

/-- A type and its base classes. -/
def baseChain (resolver : Resolver) (name : String) : List String :=
  untilRepeated [] (resolver.ancestors depthLimit name)

/-- The interfaces that a type lists. -/
def interfacesOf (resolver : Resolver) (name : String) : List String :=
  match resolver.lookup name with
  | some type => type.interfaces
  | none => []

/-- The interfaces found, with those of a list and what lies behind each, to a depth. -/
def gather (resolver : Resolver) : Nat → List String → List String → List String
  | _, found, [] => found
  | 0, found, _ :: _ => found
  | depth + 1, found, name :: more =>
    if found.contains name || depthLimit ≤ found.length then
      resolver.gather (depth + 1) found more
    else
      resolver.gather (depth + 1)
        (resolver.gather depth (found ++ [name]) (resolver.interfacesOf name).reverse) more
termination_by depth _ names => (depth, names.length)

/-- Every interface of a type. Each step down finds one more, so the depth suffices. -/
def allInterfaces (resolver : Resolver) (name : String) : List String :=
  resolver.gather (depthLimit + 1) []
    ((resolver.baseChain name).flatMap resolver.interfacesOf).reverse

/-! ### Names -/

/-- The name that an alias turns a name into, by its first segment. -/
def expandAlias? (usings : Usings) (name : String) : Option String :=
  match List.splitOn '.' name.toList with
  | [] | [_] => usings.meaning? name
  | head :: rest =>
    (usings.meaning? (String.ofList head)).map fun target =>
      target ++ "." ++ String.ofList (List.intercalate ['.'] rest)

/-- The qualified names that a normal name may stand for: itself, inside the types around, inside the
namespaces around, by an alias, inside the imported namespaces. -/
def candidates (scope : Scope) (name : String) : List String :=
  let inside (outer : String) : String := outer ++ "." ++ name
  [name] ++ scope.types.map inside ++ scope.namespaces.map inside ++
    (expandAlias? scope.usings name).toList ++ scope.usings.namespaces.map inside

/-- The known type that a written name stands for. -/
def resolve? (resolver : Resolver) (written : String) (scope : Scope) : Option String :=
  let name := Name.normalize written
  if name.isEmpty then none else (candidates scope name).find? resolver.isKnown

/-- The dotted texts of the proper starts of a list of segments, the longest first. -/
def properPrefixes (segments : List (List Char)) : List String :=
  ((List.range segments.length).drop 1).reverse.map fun count =>
    String.ofList (List.intercalate ['.'] (segments.take count))

/-- The longest known namespace that a dotted path goes through. -/
def namespacePrefix? (resolver : Resolver) (path : String) : Option String :=
  (properPrefixes (List.splitOn '.' path.toList)).find? resolver.isKnownNamespace

end Resolver

end ScriptLint
