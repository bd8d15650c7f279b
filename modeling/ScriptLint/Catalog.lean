/-
**Types and extension methods of libraries.**

A script is read without a compiler, so what it uses from outside the project is known only through a
catalog. A project may add to it.

* `CatalogType` — a type of a library. A type that lists no methods may have any.
* `ExtensionSet` — the extension methods of one static class. Some of them have the same names as
  methods of common types, which come first; such a shadowed one is meant only on the result of a
  call that is certainly of this set (`ExtensionSet.binds`).
* `Catalog` — types, extension sets in the order they were added, and namespaces, each with all above
  it. Adding a type replaces one of the same name.
-/

import ScriptLint.Name
import ScriptLint.Symbol

namespace ScriptLint

/-- A type of a library. -/
structure CatalogType where
  name : String
  isInterface : Bool := false
  base : Option String := none
  interfaces : List String := []
  methods : List String := []
deriving Repr, DecidableEq, Inhabited

namespace CatalogType

/-- The namespace of the type. -/
def home (type : CatalogType) : Option String :=
  Name.parent? type.name

/-- The type as a symbol. -/
def symbol (type : CatalogType) : TypeSymbol :=
  ⟨type.name, type.base, type.interfaces⟩

end CatalogType

/-- The extension methods of one static class. -/
structure ExtensionSet where
  container : String
  methods : List String
  shadowed : List String := []
deriving Repr, DecidableEq, Inhabited

namespace ExtensionSet

/-- The namespace that makes the methods visible. -/
def home (set : ExtensionSet) : String :=
  (Name.parent? set.container).getD ""

/-- The method is one of the set and not shadowed. -/
def certainly (set : ExtensionSet) (name : String) : Bool :=
  set.methods.contains name && !set.shadowed.contains name

/-- A call of `name` means a method of this set, on a receiver that comes from the calls of `chain`. -/
def binds (set : ExtensionSet) (name : String) (chain : List String) : Bool :=
  set.methods.contains name && (!set.shadowed.contains name || chain.any set.certainly)

end ExtensionSet

/-- What is known of libraries. -/
structure Catalog where
  types : List CatalogType
  extensions : List ExtensionSet
  namespaces : List String
deriving Repr, DecidableEq, Inhabited

/-- What a project adds to a catalog. -/
structure Catalog.Supplement where
  namespaces : List String := []
  types : List CatalogType := []
  extensions : List ExtensionSet := []
deriving Repr, DecidableEq, Inhabited

namespace Catalog

/-- The catalog that knows nothing. -/
def empty : Catalog :=
  ⟨[], [], []⟩

/-- Adds a namespace. -/
def addNamespace (catalog : Catalog) (name : String) : Catalog :=
  { catalog with namespaces := Name.learn catalog.namespaces name }

/-- Adds a type, or replaces the one of its name. -/
def addType (catalog : Catalog) (type : CatalogType) : Catalog :=
  let catalog :=
    match type.home with
    | some home => catalog.addNamespace home
    | none => catalog
  { catalog with types := catalog.types.filter (·.name != type.name) ++ [type] }

/-- Adds an extension set. -/
def addExtensions (catalog : Catalog) (set : ExtensionSet) : Catalog :=
  let catalog := catalog.addNamespace set.home
  { catalog with extensions := catalog.extensions ++ [set] }

/-- Adds all that a project adds: namespaces, then types, then extension sets. -/
def extend (catalog : Catalog) (more : Supplement) : Catalog :=
  more.extensions.foldl addExtensions
    (more.types.foldl addType (more.namespaces.foldl addNamespace catalog))

/-- The type of a name. -/
def type? (catalog : Catalog) (name : String) : Option CatalogType :=
  catalog.types.find? (·.name == name)

/-- The namespace, or one beneath it, is known. -/
def hasNamespace (catalog : Catalog) (name : String) : Bool :=
  catalog.namespaces.contains name

/-- The first extension set with the method that an imported namespace makes visible. -/
def extension? (catalog : Catalog) (name : String) (imported : List String) :
    Option ExtensionSet :=
  catalog.extensions.find? fun set => set.methods.contains name && imported.contains set.home

/-- The first extension set that a call on a receiver from `chain` means. -/
def memberExtension? (catalog : Catalog) (name : String) (chain imported : List String) :
    Option ExtensionSet :=
  catalog.extensions.find? fun set => set.binds name chain && imported.contains set.home

end Catalog

end ScriptLint
