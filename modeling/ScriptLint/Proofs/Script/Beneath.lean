/-
**Calls beneath a forbidden namespace.**

A path that means no type is looked for among the namespaces, and a call through it is judged by the
longest of those that the path goes through. This one need not be the forbidden namespace, nor known
from the same source; but both stand above the path, and so it is beneath the forbidden one.

* `Resolver.IsNearest` — a namespace is the longest of those that a path goes through.
* `Resolver.namespacePrefix?_eq_some_iff` — this one is found, and none only if there is none.
* `Script.pathTarget?_nearest` — the target of a call through the path.
* `isForbidden_beneath` — a call through a path beneath a known forbidden namespace is found.
-/

import ScriptLint.Proofs.Name.Above
import ScriptLint.Proofs.Resolver.Readings

namespace ScriptLint

namespace Resolver

variable {resolver : Resolver} {path home : String}

/-- The namespace is known and stands above the path, and every other such stands above it. -/
structure IsNearest (resolver : Resolver) (path home : String) : Prop where
  known : resolver.isKnownNamespace home = true
  above : Name.IsAbove home path
  longest : ∀ other, resolver.isKnownNamespace other = true → Name.IsAbove other path →
    other = home ∨ Name.IsAbove other home

theorem IsNearest.unique {other : String} (nearest : resolver.IsNearest path home)
    (nearest' : resolver.IsNearest path other) : home = other := by
  rcases nearest.longest other nearest'.known nearest'.above with rfl | shorter
  · rfl
  · rcases nearest'.longest home nearest.known nearest.above with rfl | longer
    · rfl
    · have := shorter.length_lt
      have := longer.length_lt
      omega

/-- Some known namespace stands above the path, so the nearest one is found. -/
theorem exists_namespacePrefix? {outer : String} (known : resolver.isKnownNamespace outer = true)
    (above : Name.IsAbove outer path) :
    ∃ home, resolver.namespacePrefix? path = some home ∧ resolver.IsNearest path home := by
  have present : ((properPrefixes (Name.segments path)).find? resolver.isKnownNamespace).isSome =
      true :=
    List.find?_isSome.mpr ⟨outer, mem_properPrefixes.mpr above, known⟩
  obtain ⟨home, found⟩ := Option.isSome_iff_exists.mp present
  refine ⟨home, found, ?_⟩
  obtain ⟨knownHome, before, behind, split, unknown⟩ := List.find?_eq_some_iff_append.mp found
  have aboveHome := mem_properPrefixes.mp (List.mem_of_find?_eq_some found)
  refine ⟨knownHome, aboveHome, fun other knownOther aboveOther => ?_⟩
  have falling := properPrefixes_pairwise (Name.segments path)
  have member := mem_properPrefixes.mpr aboveOther
  rw [split] at falling member
  rcases List.mem_append.mp member with earlier | later
  · have := unknown other earlier
    rw [knownOther] at this
    cases this
  · rcases List.mem_cons.mp later with rfl | shorter
    · exact .inl rfl
    · exact .inr (List.rel_of_pairwise_cons (List.pairwise_append.mp falling).2.1 shorter)

/-- **The namespace that is found** for a path is the longest that it goes through. -/
theorem namespacePrefix?_eq_some_iff :
    resolver.namespacePrefix? path = some home ↔ resolver.IsNearest path home := by
  constructor
  · intro found
    have known := List.find?_some found
    have above := mem_properPrefixes.mp (List.mem_of_find?_eq_some found)
    obtain ⟨other, foundOther, nearest⟩ := exists_namespacePrefix? known above
    cases found.symm.trans foundOther
    exact nearest
  · intro nearest
    obtain ⟨other, found, nearestOther⟩ := exists_namespacePrefix? nearest.known nearest.above
    rw [found, nearest.unique nearestOther]

end Resolver

variable {script : Script} {scope : Scope}

/-- The target of a call through a path that means no type. -/
theorem Script.pathTarget?_nearest {path home : String}
    (unresolved : script.resolver.resolve? path scope = none)
    (nearest : script.resolver.IsNearest path home) (name : String) :
    script.pathTarget? scope path name =
      some { name, containingType := some path, home := some home } := by
  rw [pathTarget?, unresolved, Resolver.namespacePrefix?_eq_some_iff.mpr nearest, Option.map_some]

/-- **No call beneath a known forbidden namespace is missed.** A path lies beneath the namespace and
means no type. Then a call of a method on the path and a construction of what the path names bind to a
symbol in the nearest known namespace above the path, which is the forbidden one or lies beneath it, and
so both are found by every list that forbids it. -/
theorem isForbidden_beneath (script : Script) (scope : Scope) (outer path : String)
    (known : script.resolver.isKnownNamespace outer = true)
    (undotted : outer.toList.getLast? ≠ some '.') (beneath : Name.isUnder outer path = true)
    (strictly : path ≠ outer) (unresolved : script.resolver.resolve? path scope = none) :
    ∃ home, script.resolver.IsNearest path home ∧ Name.isUnder outer home = true ∧
      (∀ name, script.shapeTarget? scope (.member (.path path) name) =
        some { name, containingType := some path, home := some home }) ∧
      script.shapeTarget? scope (.construct path) =
        some { name := Script.constructorName, containingType := some path, home := some home } ∧
      ∀ forbidden, outer ∈ forbidden → ∀ call, script.scopeAt call.span.start = scope →
        ((∃ name, script.shape? call = some (.member (.path path) name)) ∨
          script.shape? call = some (.construct path)) →
        isForbidden script.symbols forbidden call = true := by
  have above := Name.isAbove_of_isUnder undotted beneath strictly
  obtain ⟨home, -, nearest⟩ := Resolver.exists_namespacePrefix? known above
  have nonempty : outer ≠ "" := by
    rintro rfl
    cases beneath
  have under : Name.isUnder outer home = true :=
    Name.isUnder_of_isAbove undotted nonempty (nearest.longest outer known above)
  have bound := Script.pathTarget?_nearest unresolved nearest
  have member (name : String) : script.shapeTarget? scope (.member (.path path) name) =
      some { name, containingType := some path, home := some home } := by
    rw [Script.shapeTarget?, Script.memberTarget?_path, bound, Option.some_or]
  have built : script.shapeTarget? scope (.construct path) =
      some { name := Script.constructorName, containingType := some path, home := some home } := by
    rw [Script.shapeTarget?, bound]
  refine ⟨home, nearest, under, member, built, fun forbidden isForbidden call place shaped => ?_⟩
  have judged : ∀ shape target, script.shape? call = some shape →
      script.shapeTarget? scope shape = some target → target.judgedBy = some home →
      ScriptLint.isForbidden script.symbols forbidden call = true := by
    intro shape target shaped found judgedBy
    rw [Script.isForbidden_of_shape shaped, place, Script.judgedBy?, found, Option.bind_some, judgedBy,
      Option.any_some, List.any_eq_true]
    exact ⟨outer, isForbidden, under⟩
  rcases shaped with ⟨name, shaped⟩ | shaped
  · exact judged _ _ shaped (member name) rfl
  · exact judged _ _ shaped built rfl

/-- A script that constructs something in a namespace of its own project, beneath a namespace that the
catalog knows. -/
def constructing : Script :=
  { calling (Catalog.empty.addType { name := "UnityEditor.AssetDatabase" })
      ⟨["UnityEngine"], [], []⟩ (.construct "UnityEditor.Custom.Tools.Brush") with
    resolver := ⟨Catalog.empty.addType { name := "UnityEditor.AssetDatabase" },
      ⟨[], ["Game", "UnityEditor", "UnityEditor.Custom"], []⟩⟩ }

theorem isForbidden_beneath_constructing :
    constructing.resolver.IsNearest "UnityEditor.Custom.Tools.Brush" "UnityEditor.Custom" ∧
      constructing.resolver.resolve? "UnityEditor.Custom.Tools.Brush"
        (constructing.scopeAt someCall.span.start) = none ∧
      isForbidden constructing.symbols ["System.Linq", "UnityEditor"] someCall = true := by
  have unresolved : constructing.resolver.resolve? "UnityEditor.Custom.Tools.Brush"
      (constructing.scopeAt someCall.span.start) = none := by decide +kernel
  obtain ⟨-, -, -, -, -, found⟩ := isForbidden_beneath constructing
    (constructing.scopeAt someCall.span.start) "UnityEditor" "UnityEditor.Custom.Tools.Brush"
    (by decide +kernel) (by decide) (by decide +kernel) (by decide) unresolved
  have isHome : constructing.resolver.namespacePrefix? "UnityEditor.Custom.Tools.Brush" =
      some "UnityEditor.Custom" := by decide +kernel
  exact ⟨Resolver.namespacePrefix?_eq_some_iff.mp isHome, unresolved,
    found ["System.Linq", "UnityEditor"] (by decide) someCall rfl (.inr rfl)⟩

end ScriptLint
