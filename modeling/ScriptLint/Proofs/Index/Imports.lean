/-
**What imports decide about the types of a script.**

Two outlines declare the same types and namespaces and differ in their imports. Then their indexes know
the same types, with the same namespaces, methods and kinds. Imports decide only what the names in base
lists mean.

* `SameButBases` — two indexes that differ at most in the bases of their types; `build_sameButBases` — those
  of two such outlines do.
* `Script.base?_congr` — a type has the same base class in both if the first name in each of its base
  lists means the same.
* `Resolver.find?_baseChain`, `Resolver.find?_flatMap_baseChain` — a search along base classes goes the
  same way and ends alike if the base classes are the same as far as it goes.
-/

import ScriptLint.Proofs.Index.Order
import ScriptLint.Script

namespace ScriptLint

/-! ### Indexes that differ in bases -/

/-- The indexes differ at most in the bases of their types. -/
structure Index.SameButBases (a b : Index) : Prop where
  types : ∀ name, ∃ symbol, b.type? name = (a.type? name).map fun type => { type with symbol }
  namespaces : b.namespaces = a.namespaces

namespace Resolver

variable {catalog : Catalog} {a b : Index} (same : a.SameButBases b)
include same

theorem isKnown_congr : (⟨catalog, b⟩ : Resolver).isKnown = (⟨catalog, a⟩ : Resolver).isKnown := by
  funext name
  obtain ⟨symbol, entry⟩ := same.types name
  rw [isKnown, isKnown, entry, Option.isSome_map]

theorem isInterface_congr :
    (⟨catalog, b⟩ : Resolver).isInterface = (⟨catalog, a⟩ : Resolver).isInterface := by
  funext name
  obtain ⟨symbol, entry⟩ := same.types name
  rw [isInterface, isInterface, entry]
  cases a.type? name <;> rfl

theorem homeOf_congr : (⟨catalog, b⟩ : Resolver).homeOf = (⟨catalog, a⟩ : Resolver).homeOf := by
  funext name
  obtain ⟨symbol, entry⟩ := same.types name
  rw [homeOf, homeOf, entry]
  cases a.type? name <;> rfl

theorem declares_congr : (⟨catalog, b⟩ : Resolver).declares = (⟨catalog, a⟩ : Resolver).declares := by
  funext name method
  obtain ⟨symbol, entry⟩ := same.types name
  rw [declares, declares, entry]
  cases a.type? name <;> rfl

theorem isKnownNamespace_congr :
    (⟨catalog, b⟩ : Resolver).isKnownNamespace = (⟨catalog, a⟩ : Resolver).isKnownNamespace := by
  funext name
  rw [isKnownNamespace, isKnownNamespace, Index.hasNamespace, Index.hasNamespace, same.namespaces]

end Resolver

namespace Index

variable {catalog : Catalog} {a b : Outline}

theorem names_sameButBases (catalog : Catalog) (a : Outline) :
    (names [a]).SameButBases (build catalog [a]) where
  types name := by
    have entry : (names [a]).type? name = joined (([a].flatMap (·.types)).filter (·.name == name)) :=
      find?_foldl_declare _ _
    rw [type?_build, entry]
    cases joined (([a].flatMap (·.types)).filter (·.name == name)) with
    | none => exact ⟨⟨"", none, []⟩, rfl⟩
    | some type => exact ⟨_, rfl⟩
  namespaces := rfl

/-- **The index without the imports** differs at most in bases. -/
theorem build_sameButBases (types : b.types = a.types) (namespaces : b.namespaces = a.namespaces) :
    (build catalog [a]).SameButBases (build catalog [b]) where
  types name := by
    rw [type?_build, type?_build]
    simp only [List.flatMap_cons, List.flatMap_nil, List.append_nil, types]
    cases joined (a.types.filter (·.name == name)) with
    | none => exact ⟨⟨"", none, []⟩, rfl⟩
    | some type => exact ⟨_, rfl⟩
  namespaces := by
    show ([b].flatMap (·.namespaces)).foldl _ [] = ([a].flatMap (·.namespaces)).foldl _ []
    simp only [List.flatMap_cons, List.flatMap_nil, List.append_nil, namespaces]

end Index

/-! ### Base classes -/

namespace Resolver

/-- The base class of a type. -/
def base? (resolver : Resolver) (name : String) : Option String :=
  (resolver.lookup name).bind (·.baseType)

theorem ancestors_succ (resolver : Resolver) (count : Nat) (name : String) :
    resolver.ancestors (count + 1) name =
      name :: match resolver.base? name with
        | some base => resolver.ancestors count base
        | none => [] := by
  rw [ancestors, base?]
  cases (resolver.lookup name).bind (·.baseType) <;> rfl

section Search

variable {a b : Resolver} {found : String → Bool}

/-- **A search along base classes** looks only at the bases of the types it passes. -/
theorem find?_untilRepeated {count : Nat} {name : String} {seen : List String}
    (same : ∀ type ∈ (untilRepeated seen (a.ancestors count name)).takeWhile (!found ·),
      b.base? type = a.base? type) :
    (untilRepeated seen (b.ancestors count name)).find? found =
      (untilRepeated seen (a.ancestors count name)).find? found := by
  induction count generalizing name seen with
  | zero => rfl
  | succ count ih =>
    rw [ancestors_succ, untilRepeated] at same ⊢
    rw [ancestors_succ, untilRepeated]
    by_cases repeated : seen.contains name = true
    · rw [if_pos repeated, if_pos repeated]
    · rw [if_neg repeated] at same ⊢
      rw [if_neg repeated]
      by_cases ends : found name = true
      · rw [List.find?_cons_of_pos ends, List.find?_cons_of_pos ends]
      · rw [List.find?_cons_of_neg ends, List.find?_cons_of_neg ends]
        rw [List.takeWhile_cons_of_pos (by simp [ends])] at same
        have onward := fun type member => same type (List.mem_cons_of_mem _ member)
        rw [same name List.mem_cons_self]
        cases base : a.base? name with
        | none => rfl
        | some next =>
          rw [base] at onward
          exact ih onward

theorem find?_baseChain {name : String}
    (same : ∀ type ∈ (a.baseChain name).takeWhile (!found ·), b.base? type = a.base? type) :
    (b.baseChain name).find? found = (a.baseChain name).find? found :=
  find?_untilRepeated same

theorem find?_flatMap_baseChain {names : List String}
    (same : ∀ type ∈ (names.flatMap a.baseChain).takeWhile (!found ·), b.base? type = a.base? type) :
    (names.flatMap b.baseChain).find? found = (names.flatMap a.baseChain).find? found := by
  induction names with
  | nil => rfl
  | cons name rest ih =>
    rw [List.flatMap_cons] at same ⊢
    have first : ∀ type ∈ (a.baseChain name).takeWhile (!found ·), b.base? type = a.base? type := by
      intro type member
      apply same type
      rw [List.takeWhile_append]
      split
      · exact List.mem_append_left _ ((List.takeWhile_sublist _).mem member)
      · exact member
    rw [List.flatMap_cons, List.find?_append, List.find?_append, find?_baseChain first]
    cases ends : (a.baseChain name).find? found with
    | some type => rw [Option.some_or, Option.some_or]
    | none =>
      have passed : ∀ type ∈ a.baseChain name, (!found type) = true := fun type member => by
        simpa using List.find?_eq_none.mp ends type member
      rw [List.takeWhile_append_of_pos passed] at same
      rw [ih fun type member => same type (List.mem_append_right _ member)]

end Search

end Resolver

/-! ### The only script of a project -/

/-- A script as the only one of its project. -/
def Script.alone (catalog : Catalog) (outline : Outline) : Script :=
  ofOutline catalog (Index.build catalog [outline]) outline

namespace Script

/-- The name means the same at an offset of both scripts. -/
def ReadsAlike (before after : Script) (offset : Nat) (written : String) : Prop :=
  after.resolver.resolve? written (after.scopeAt offset) =
    before.resolver.resolve? written (before.scopeAt offset)

/-- The base class that a declaration gives. -/
def declaredBase? (script : Script) (decl : TypeDecl) : Option String :=
  (Index.basesOf script.resolver (script.scopeAt decl.span.start) decl).baseType

theorem declaredBase?_congr {before after : Script} {decl : TypeDecl}
    (interfaces : after.resolver.isInterface = before.resolver.isInterface)
    (alike : ∀ first, decl.bases.head? = some first →
      before.ReadsAlike after decl.span.start first) :
    after.declaredBase? decl = before.declaredBase? decl := by
  unfold declaredBase? Index.basesOf
  cases bases : decl.bases with
  | nil => rfl
  | cons first rest =>
    have same : after.resolver.resolve? first (after.scopeAt decl.span.start) =
        before.resolver.resolve? first (before.scopeAt decl.span.start) := alike first (by rw [bases]; rfl)
    simp only [same, interfaces, apply_ite Index.Bases.baseType]

theorem base?_alone (catalog : Catalog) (outline : Outline) (name : String) :
    (alone catalog outline).resolver.base? name =
      match Index.joined (outline.types.filter (·.name == name)) with
      | some _ => (outline.types.filter (·.name == name)).findSome? (alone catalog outline).declaredBase?
      | none => (catalog.type? name).bind (·.base) := by
  have bases : ([outline].flatMap (Index.outlineBases ⟨catalog, Index.names [outline]⟩)).filter
      (·.type == name) = (outline.types.filter (·.name == name)).map fun decl =>
        Index.basesOf (alone catalog outline).resolver
          ((alone catalog outline).scopeAt decl.span.start) decl := by
    have known := Index.names_sameButBases catalog outline
    have resolved : Index.basesOf (alone catalog outline).resolver =
        Index.basesOf ⟨catalog, Index.names [outline]⟩ :=
      Index.basesOf_congr (Resolver.isKnown_congr known) (Resolver.isInterface_congr known)
    have named (decl : TypeDecl) (scope : Scope) (resolver : Resolver) :
        (Index.basesOf resolver scope decl).type = decl.name := by
      unfold Index.basesOf
      cases decl.bases with
      | nil => rfl
      | cons first rest => simp only [apply_ite Index.Bases.type, ite_self]
    rw [List.flatMap_cons, List.flatMap_nil, List.append_nil, Index.outlineBases, List.filter_map]
    simp only [Function.comp_def, named, resolved]
    rfl
  have types : [outline].flatMap (·.types) = outline.types := by simp
  show (match (Index.build catalog [outline]).type? name with
    | some type => some type.symbol
    | none => (catalog.type? name).map CatalogType.symbol).bind (·.baseType) = _
  rw [Index.type?_build, bases, types]
  cases Index.joined (outline.types.filter (·.name == name)) with
  | none => cases catalog.type? name <;> rfl
  | some type =>
    simp only [Option.map_some, Option.bind_some, List.findSome?_map]
    rfl

theorem base?_congr {catalog : Catalog} {a b : Outline} {name : String} (types : b.types = a.types)
    (namespaces : b.namespaces = a.namespaces)
    (alike : ∀ decl ∈ a.types, decl.name = name → ∀ first, decl.bases.head? = some first →
      (alone catalog a).ReadsAlike (alone catalog b) decl.span.start first) :
    (alone catalog b).resolver.base? name = (alone catalog a).resolver.base? name := by
  have interfaces : (alone catalog b).resolver.isInterface = (alone catalog a).resolver.isInterface :=
    Resolver.isInterface_congr (Index.build_sameButBases types namespaces)
  have declared : (a.types.filter (·.name == name)).filterMap (alone catalog b).declaredBase? =
      (a.types.filter (·.name == name)).filterMap (alone catalog a).declaredBase? := by
    refine List.filterMap_congr fun decl member => declaredBase?_congr interfaces ?_
    obtain ⟨isDeclared, named⟩ := List.mem_filter.mp member
    exact alike decl isDeclared (by simpa using named)
  rw [base?_alone, base?_alone, types, ← List.head?_filterMap, declared, List.head?_filterMap]

end Script

end ScriptLint
