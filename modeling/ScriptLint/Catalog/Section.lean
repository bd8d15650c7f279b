/-
**What a project adds to the catalog, read from its settings.**

The section lists namespaces, types and extension sets. `Catalog.Supplement.read?` is none when the
section has another shape; `Catalog.ofConfig?` is the built-in catalog with what the section adds.
-/

import ScriptLint.Catalog.Builtin
import ScriptLint.Config

namespace ScriptLint.Catalog

open Toml

/-- Whether the kind of a type is that of interfaces. -/
def readIsInterface? (value : Value) : Option Bool :=
  match value.choice? with
  | some "class" => some false
  | some "interface" => some true
  | _ => none

/-- A type of a library. -/
def readType? (value : Value) : Option CatalogType := do
  let fields ← value.exactFields? ["name", "kind", "base", "interfaces", "methods"]
  pure
    { name := ← fields.required? "name" Value.written?
      isInterface := ← fields.field? "kind" readIsInterface? false
      base := ← fields.optional? "base" Value.written?
      interfaces := ← fields.field? "interfaces" Value.writtenAll? []
      methods := ← fields.field? "methods" Value.writtenAll? [] }

/-- The extension methods of a static class. -/
def readExtensions? (value : Value) : Option ExtensionSet := do
  let fields ← value.exactFields? ["container", "methods", "shadowed"]
  pure
    { container := ← fields.required? "container" Value.written?
      methods := ← fields.required? "methods" Value.writtenAll?
      shadowed := ← fields.field? "shadowed" Value.writtenAll? [] }

/-- The items of an array, each as `read` takes it. -/
def readItems? {α : Type} (read : Value → Option α) (value : Value) : Option (List α) := do
  (← value.items?).mapM read

/-- What a section adds. -/
def Supplement.read? (value : Value) : Option Supplement := do
  let fields ← value.exactFields? ["namespaces", "types", "extensions"]
  pure
    { namespaces := ← fields.field? "namespaces" Value.writtenAll? []
      types := ← fields.field? "types" (readItems? readType?) []
      extensions := ← fields.field? "extensions" (readItems? readExtensions?) [] }

/-- The built-in catalog with what the settings add to it. -/
def ofConfig? (config : Config) : Option Catalog :=
  match config.section? "catalog" with
  | none => some builtin
  | some value => (Supplement.read? value).map builtin.extend

end ScriptLint.Catalog
