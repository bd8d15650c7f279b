/-
**The namespaces that a catalog and an index know.**

* `Catalog.Call` — one addition to a catalog, and `Catalog.Call.named` the namespaces that it names;
  `Catalog.Start` — what additions start from.
* `Catalog.performAll_isClosure`, `Index.build_isClosure` — the namespaces known are those named, with
  all above them.
* `hasNamespace_iff` — a namespace is known exactly if it is named or stands above one that is named;
  so what stands above a known namespace is known.
-/

import ScriptLint.Catalog.Builtin
import ScriptLint.Index.Build
import ScriptLint.Proofs.Name.Parents

namespace ScriptLint

open Name (IsClosure Covers parent?)

/-- The namespace of a type. -/
def CatalogType.named (type : CatalogType) : List String :=
  (parent? type.name).toList

/-- The namespace of the class that declares the methods. -/
def ExtensionSet.named (set : ExtensionSet) : List String :=
  (parent? set.container).toList

namespace Catalog

/-- One addition to a catalog. -/
inductive Call where
  | addType (type : CatalogType)
  | addExtensions (set : ExtensionSet)
  | extend (more : Supplement)
deriving Repr, DecidableEq

namespace Call

def perform (catalog : Catalog) : Call → Catalog
  | addType type => catalog.addType type
  | addExtensions set => catalog.addExtensions set
  | extend more => catalog.extend more

/-- The namespaces that an addition names: those it lists, and those of its types and classes. -/
def named : Call → List String
  | addType type => type.named
  | addExtensions set => set.named
  | extend more =>
    more.namespaces ++ more.types.flatMap (·.named) ++ more.extensions.flatMap (·.named)

end Call

/-- The catalog after some additions, in order. -/
def performAll (start : Catalog) (calls : List Call) : Catalog :=
  calls.foldl Call.perform start

/-- What additions may start from. -/
inductive Start where
  | empty
  | builtin
deriving Repr, DecidableEq

namespace Start

def catalog : Start → Catalog
  | empty => Catalog.empty
  | builtin => Catalog.builtin

def named : Start → List String
  | empty => []
  | builtin => builtinTypes.flatMap (·.named) ++ builtinExtensions.flatMap (·.named)

end Start

/-! ### Additions keep the closure -/

variable {catalog : Catalog} {names : List String}

theorem addNamespace_isClosure (closure : IsClosure catalog.namespaces names) (name : String) :
    IsClosure (catalog.addNamespace name).namespaces (names ++ [name]) :=
  closure.learn name

theorem addType_isClosure (closure : IsClosure catalog.namespaces names) (type : CatalogType) :
    IsClosure (catalog.addType type).namespaces (names ++ type.named) := by
  unfold addType CatalogType.home CatalogType.named
  cases parent? type.name with
  | some home => exact closure.learn home
  | none => simpa using closure

theorem addExtensions_isClosure (closure : IsClosure catalog.namespaces names)
    (set : ExtensionSet) : IsClosure (catalog.addExtensions set).namespaces (names ++ set.named) := by
  unfold addExtensions ExtensionSet.home ExtensionSet.named
  cases parent? set.container with
  | some home => exact closure.learn home
  | none =>
    -- A class outside every namespace adds the empty name, with which nothing is known.
    show IsClosure (Name.learn catalog.namespaces "") (names ++ [])
    rw [Name.learn, Name.withParents_empty]
    simpa using closure

/-- Many additions of one sort. -/
theorem foldl_isClosure {α : Type} {add : Catalog → α → Catalog} {named : α → List String}
    (step : ∀ {catalog names}, IsClosure catalog.namespaces names →
      ∀ item, IsClosure (add catalog item).namespaces (names ++ named item))
    (closure : IsClosure catalog.namespaces names) (items : List α) :
    IsClosure (items.foldl add catalog).namespaces (names ++ items.flatMap named) := by
  induction items generalizing catalog names with
  | nil => simpa using closure
  | cons item more ih => simpa using ih (step closure item)

theorem extend_isClosure (closure : IsClosure catalog.namespaces names) (more : Supplement) :
    IsClosure (catalog.extend more).namespaces (names ++ (Call.extend more).named) := by
  have listed := foldl_isClosure addNamespace_isClosure closure more.namespaces
  have types := foldl_isClosure addType_isClosure listed more.types
  have sets := foldl_isClosure addExtensions_isClosure types more.extensions
  rw [List.flatMap_singleton', List.append_assoc, List.append_assoc, ← List.append_assoc
    more.namespaces] at sets
  exact sets

theorem perform_isClosure (closure : IsClosure catalog.namespaces names) (call : Call) :
    IsClosure (call.perform catalog).namespaces (names ++ call.named) := by
  cases call with
  | addType type => exact addType_isClosure closure type
  | addExtensions set => exact addExtensions_isClosure closure set
  | extend more => exact extend_isClosure closure more

theorem Start.isClosure (start : Start) : IsClosure start.catalog.namespaces start.named := by
  have nothing : IsClosure Catalog.empty.namespaces [] := IsClosure.empty
  cases start with
  | empty => exact nothing
  | builtin =>
    have types := foldl_isClosure addType_isClosure nothing builtinTypes
    rw [List.nil_append] at types
    exact foldl_isClosure addExtensions_isClosure types builtinExtensions

/-- **Every sequence of additions** knows what it names, with all above it. -/
theorem performAll_isClosure (start : Start) (calls : List Call) :
    IsClosure (start.catalog.performAll calls).namespaces
      (start.named ++ calls.flatMap (·.named)) :=
  foldl_isClosure perform_isClosure start.isClosure calls

end Catalog

/-- **An index** knows the namespaces of its scripts, with all above them. -/
theorem Index.build_isClosure (catalog : Catalog) (outlines : List Outline) :
    IsClosure (build catalog outlines).namespaces
      ((outlines.flatMap (·.namespaces)).map (·.name)) := by
  have closure := IsClosure.empty.foldl_learn ((outlines.flatMap (·.namespaces)).map (·.name))
  rw [List.foldl_map] at closure
  exact closure

/-- **The namespaces known.** For every sequence of additions to an empty or to the built-in catalog,
and for every list of scripts, a namespace is known exactly if it is not empty and some namespace
named is it or begins with it and a dot. So with a namespace, the one above it is known. -/
theorem hasNamespace_iff (start : Catalog.Start) (calls : List Catalog.Call) (catalog : Catalog)
    (outlines : List Outline) :
    (∀ n : String, (start.catalog.performAll calls).hasNamespace n = true ↔
      n ≠ "" ∧ ∃ name ∈ start.named ++ calls.flatMap (·.named), Covers n name) ∧
    (∀ n : String, (Index.build catalog outlines).hasNamespace n = true ↔
      n ≠ "" ∧ ∃ scope ∈ outlines.flatMap (·.namespaces), Covers n scope.name) ∧
    ∀ n outer : String, parent? n = some outer → outer ≠ "" →
      ((start.catalog.performAll calls).hasNamespace n = true →
        (start.catalog.performAll calls).hasNamespace outer = true) ∧
      ((Index.build catalog outlines).hasNamespace n = true →
        (Index.build catalog outlines).hasNamespace outer = true) := by
  have ofCalls := Catalog.performAll_isClosure start calls
  have ofScripts := Index.build_isClosure catalog outlines
  simp only [Catalog.hasNamespace, Index.hasNamespace, List.contains_iff_mem]
  refine ⟨ofCalls, fun n => ?_, fun n outer found nonempty => ⟨fun known => ?_, fun known => ?_⟩⟩
  · rw [ofScripts n]
    simp only [List.mem_map, exists_exists_and_eq_and]
  · exact ofCalls.parent_mem known found nonempty
  · exact ofScripts.parent_mem known found nonempty

end ScriptLint
