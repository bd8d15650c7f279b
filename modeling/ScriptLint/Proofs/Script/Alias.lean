/-
**Calls through an alias.**

An alias is expanded where a name is looked for among the types, and only there. A path that means no
type is looked for among the namespaces as it is written.

* `Resolver.IsAlias` — a name begins with an alias, and nothing in sight has a type of this name, or of
  the name with the alias expanded, inside it.
* `resolve?_of_inside` — a name of which nothing in sight has a type inside it means itself or what an
  alias makes of it.
* `IsAlias.resolve?_eq` — so the name means the expanded one or nothing.
* `isForbidden_alias` — a call through the alias and the call through what it stands for get the same
  verdict if the expanded name is a known type. In general they do exactly if they are judged by the
  same namespace, which for a path that means no type is one that the written path goes through.
-/

import ScriptLint.Proofs.Resolver.Readings

namespace ScriptLint

/-! ### What the names mean -/

namespace Resolver

variable {resolver : Resolver} {scope : Scope}

/-- The known type that a name means by itself or by an alias. -/
def outright? (resolver : Resolver) (usings : Usings) (written : String) : Option String :=
  let name := Name.normalize written
  if name.isEmpty then none else (name :: (expandAlias? usings name).toList).find? resolver.isKnown

theorem outright?_of_known {usings : Usings} {written name : String}
    (normal : Name.normalize written = name) (nonempty : name ≠ "")
    (known : resolver.isKnown name = true) : resolver.outright? usings written = some name := by
  unfold outright?
  dsimp only
  rw [normal, if_neg (by simpa using nonempty), List.find?_cons_of_pos known]

theorem resolve?_of_inside {written : String}
    (inside : ∀ outer ∈ scope.types ++ scope.namespaces ++ scope.usings.namespaces,
      resolver.isKnown (outer ++ "." ++ Name.normalize written) = false) :
    resolver.resolve? written scope = resolver.outright? scope.usings written := by
  have nowhere (outers : List String)
      (among : ∀ outer ∈ outers, outer ∈ scope.types ++ scope.namespaces ++ scope.usings.namespaces) :
      (outers.map (· ++ "." ++ Name.normalize written)).find? resolver.isKnown = none := by
    simp only [List.find?_eq_none, List.forall_mem_map, Bool.not_eq_true]
    exact fun outer member => inside outer (among outer member)
  unfold resolve? outright? candidates
  dsimp only
  split
  · rfl
  · rw [List.find?_append, List.find?_append, List.find?_append, List.find?_append,
      nowhere _ (by simp +contextual), nowhere _ (by simp +contextual),
      nowhere _ (by simp +contextual), Option.or_none, Option.or_none, Option.or_none,
      ← List.find?_append, List.singleton_append]

/-- A name that begins with an alias, where nothing in sight has a type inside it that the name, written
or expanded, could mean instead. -/
structure IsAlias (resolver : Resolver) (scope : Scope) (name target tail : String) : Prop where
  means : scope.usings.meaning? name = some target
  segment : Name.IsSegment name
  isTail : Name.IsTail tail
  unknown : resolver.isKnown (Name.normalize (name ++ tail)) = false
  inside : ∀ outer ∈ scope.types ++ scope.namespaces ++ scope.usings.namespaces,
    resolver.isKnown (outer ++ "." ++ Name.normalize (name ++ tail)) = false ∧
      resolver.isKnown (outer ++ "." ++ Name.normalize (target ++ tail)) = false

instance (resolver : Resolver) (scope : Scope) (name target tail : String) :
    Decidable (resolver.IsAlias scope name target tail) :=
  decidable_of_iff (scope.usings.meaning? name = some target ∧ Name.IsSegment name ∧
      Name.IsTail tail ∧ resolver.isKnown (Name.normalize (name ++ tail)) = false ∧
      ∀ outer ∈ scope.types ++ scope.namespaces ++ scope.usings.namespaces,
        resolver.isKnown (outer ++ "." ++ Name.normalize (name ++ tail)) = false ∧
          resolver.isKnown (outer ++ "." ++ Name.normalize (target ++ tail)) = false)
    ⟨fun ⟨means, segment, isTail, unknown, inside⟩ => ⟨means, segment, isTail, unknown, inside⟩,
      fun ⟨means, segment, isTail, unknown, inside⟩ => ⟨means, segment, isTail, unknown, inside⟩⟩

namespace IsAlias

variable {name target tail : String} (isAlias : resolver.IsAlias scope name target tail)
include isAlias

theorem resolve?_eq : resolver.resolve? (name ++ tail) scope =
    (some (target ++ Name.normalize tail)).filter resolver.isKnown := by
  have normal := Name.normalize_append isAlias.segment isAlias.isTail
  have nonempty : (name ++ Name.normalize tail).isEmpty = false := by
    simp [isAlias.segment.nonempty]
  rw [resolve?_of_inside fun outer member => (isAlias.inside outer member).1]
  unfold outright?
  dsimp only
  have unknown := isAlias.unknown
  rw [normal] at unknown ⊢
  rw [nonempty, if_neg Bool.false_ne_true,
    expandAlias?_append scope.usings isAlias.segment isAlias.isTail.normalize, isAlias.means,
    List.find?_cons_of_neg (by simp [unknown])]
  simp [Option.filter]

theorem resolve?_target :
    resolver.resolve? (target ++ tail) scope = resolver.outright? scope.usings (target ++ tail) :=
  resolve?_of_inside fun outer member => (isAlias.inside outer member).2

end IsAlias

end Resolver

/-! ### Verdicts -/

theorem Script.judgedThrough_congr {script other : Script} (same : other.resolver = script.resolver) :
    other.judgedThrough = script.judgedThrough := by
  funext scope method path type?
  unfold judgedThrough extensionTarget?
  rw [same]

/-- Two namespaces are told apart by no list of forbidden ones exactly if they are the same up to dots at
their ends; no namespace is like the empty one. -/
theorem forbids_alike_iff (a b : Option String) :
    (∀ forbidden : List String,
      (a.any fun home => forbidden.any fun outer => Name.isUnder outer home) =
        b.any fun home => forbidden.any fun outer => Name.isUnder outer home) ↔
      Name.trimmed (a.getD "") = Name.trimmed (b.getD "") := by
  have nothing (outer : String) : Name.isUnder outer "" = false := by
    rw [Bool.eq_false_iff]
    simp [Name.isUnder_iff]
  have judge (home : Option String) (forbidden : List String) :
      (home.any fun home => forbidden.any fun outer => Name.isUnder outer home) =
        forbidden.any fun outer => Name.isUnder outer (home.getD "") := by
    cases home with
    | none => simp [nothing]
    | some home => rfl
  simp only [judge, ← Name.isUnder_alike_iff]
  constructor
  · intro alike outer
    simpa using alike [outer]
  · intro alike forbidden
    simp only [alike]

/-- **An alias and what it stands for.** Two calls stand where the same names are in sight; one goes
through an alias, the other through what the alias stands for.

* If the expanded name is a known type, written as the types are named, the verdicts are the same for
  every list of forbidden namespaces.
* In general the verdicts are the same for every list exactly if both calls are judged by the same
  namespace, up to dots at its end. The first call is judged by the namespace of the type that the
  expanded name is, if it is one, and else by one that the path with the alias in it goes through; the
  second by that of the type that its path means, or by one that its path goes through. -/
theorem isForbidden_alias (written expanded : Script) (a b : Call) (name target tail : String)
    (method : Option String) (sameTypes : expanded.resolver = written.resolver)
    (samePlace : expanded.scopeAt b.span.start = written.scopeAt a.span.start)
    (isAlias : written.resolver.IsAlias (written.scopeAt a.span.start) name target tail)
    (shapedA : written.shape? a = some (.through method (name ++ tail)))
    (shapedB : expanded.shape? b = some (.through method (target ++ tail))) :
    (target ≠ "" → Name.normalize (target ++ tail) = target ++ Name.normalize tail →
      written.resolver.isKnown (target ++ Name.normalize tail) = true →
      ∀ forbidden, isForbidden written.symbols forbidden a =
        isForbidden expanded.symbols forbidden b) ∧
    ((∀ forbidden, isForbidden written.symbols forbidden a =
        isForbidden expanded.symbols forbidden b) ↔
      Name.trimmed ((written.judgedThrough (written.scopeAt a.span.start) method (name ++ tail)
        ((some (target ++ Name.normalize tail)).filter written.resolver.isKnown)).getD "") =
      Name.trimmed ((written.judgedThrough (written.scopeAt a.span.start) method (target ++ tail)
        (written.resolver.outright? (written.scopeAt a.span.start).usings
          (target ++ tail))).getD "")) := by
  have verdictA (forbidden : List String) := Script.isForbidden_of_shape shapedA forbidden
  have verdictB (forbidden : List String) := Script.isForbidden_of_shape shapedB forbidden
  rw [Script.judgedBy?_through, isAlias.resolve?_eq] at verdictA
  rw [samePlace, Script.judgedBy?_through, sameTypes, Script.judgedThrough_congr sameTypes,
    isAlias.resolve?_target] at verdictB
  simp only [verdictA, verdictB, forbids_alike_iff]
  refine ⟨fun nonempty normal known => ?_, trivial⟩
  have direct : written.resolver.outright? (written.scopeAt a.span.start).usings (target ++ tail) =
      some (target ++ Name.normalize tail) := by
    rw [Resolver.outright?_of_known normal (by simp [nonempty]) known]
  rw [direct, Option.filter_some, if_pos known]
  rfl

/-- A call through a path in a script with an alias for a namespace, of which one type is known. -/
def aliasing (method : Option String) (path : String) : Script :=
  calling (Catalog.empty.addType { name := "UnityEditor.AssetDatabase" })
    ⟨["UnityEngine"], [("Ed", "UnityEditor")], []⟩ (.through method path)

/-- The type that is known, through the alias. -/
theorem isForbidden_alias_known :
    let written := aliasing (some "Refresh") "Ed.AssetDatabase"
    let expanded := aliasing (some "Refresh") "UnityEditor.AssetDatabase"
    written.resolver.IsAlias (written.scopeAt someCall.span.start) "Ed" "UnityEditor"
        ".AssetDatabase" ∧
      isForbidden written.symbols ["UnityEditor"] someCall = true ∧
      ∀ forbidden, isForbidden written.symbols forbidden someCall =
        isForbidden expanded.symbols forbidden someCall := by
  intro written expanded
  have isAlias : written.resolver.IsAlias (written.scopeAt someCall.span.start) "Ed" "UnityEditor"
      ".AssetDatabase" := by decide +kernel
  exact ⟨isAlias, by decide +kernel, (isForbidden_alias written expanded someCall someCall "Ed"
    "UnityEditor" ".AssetDatabase" (some "Refresh") rfl (by decide +kernel) isAlias
    (by decide +kernel) (by decide +kernel)).1 (by decide +kernel) (by decide +kernel)
    (by decide +kernel)⟩

/-- **Calls that are missed.** The namespace is known, but not the type. -/
theorem isForbidden_alias_namespace :
    let written := aliasing (some "Bake") "Ed.Lightmapping"
    let expanded := aliasing (some "Bake") "UnityEditor.Lightmapping"
    let built := aliasing none "Ed.Lightmapping"
    let builtExpanded := aliasing none "UnityEditor.Lightmapping"
    written.resolver.IsAlias (written.scopeAt someCall.span.start) "Ed" "UnityEditor"
        ".Lightmapping" ∧
      built.resolver.IsAlias (built.scopeAt someCall.span.start) "Ed" "UnityEditor"
        ".Lightmapping" ∧
      isForbidden written.symbols ["UnityEditor"] someCall = false ∧
      isForbidden expanded.symbols ["UnityEditor"] someCall = true ∧
      isForbidden built.symbols ["UnityEditor"] someCall = false ∧
      isForbidden builtExpanded.symbols ["UnityEditor"] someCall = true := by
  decide +kernel

end ScriptLint
