/-
**Two walks up a hierarchy.**

The surroundings of a call are told by walks over the symbols of its script: the chain grows at its
end as long as it is not full and the next name is new, and the interfaces come from a worklist. A
resolver has walks of its own: it follows the base classes first and cuts the list at the first
repetition, and it goes down from one interface to those it lists. The walks agree on every graph of
types, with cycles, with unknown names and beyond the limit.

* `typeChainFrom_eq` — the chain that grows is what was there and the cut list of ancestors.
* `collectInterfaces_append` — a worklist in two parts is worked off part by part. So to work off what
  one interface lists, before all that waits, is to go down into it.
* `gather_eq` — the descent and the worklist find the same, each step down having found one more.
* `CallSite.ofCall_hierarchy` — so the surroundings of a call show the chain and the interfaces that
  the resolver gives for the type around it.
-/

import ScriptLint.Script

namespace ScriptLint

/-! ### Chains -/

section Chains

variable {symbols : Symbols} {resolver : Resolver}

/-- The chain goes on with a new name while there is room. -/
theorem typeChainFrom_new {chain : List String} {name : String} (room : chain.length < depthLimit)
    (new : name ∉ chain) :
    typeChainFrom symbols chain (some name) =
      typeChainFrom symbols (chain ++ [name]) ((symbols.type? name).bind (·.baseType)) := by
  rw [typeChainFrom]
  exact if_pos ⟨room, new⟩

/-- The chain ends when it is full and when it comes back to one of its names. -/
theorem typeChainFrom_end {chain : List String} {name : String}
    (done : ¬ (chain.length < depthLimit ∧ name ∉ chain)) :
    typeChainFrom symbols chain (some name) = chain := by
  rw [typeChainFrom]
  exact if_neg done

theorem typeChainFrom_none (symbols : Symbols) (chain : List String) :
    typeChainFrom symbols chain none = chain := by
  rw [typeChainFrom]

/-- **The chain that grows** is what was there and the ancestors up to the first repetition. -/
theorem typeChainFrom_eq (lookup : symbols.type? = resolver.lookup) {count : Nat}
    {chain seen : List String} (room : chain.length + count = depthLimit)
    (same : ∀ name, name ∈ seen ↔ name ∈ chain) (name : String) :
    typeChainFrom symbols chain (some name) =
      chain ++ Resolver.untilRepeated seen (resolver.ancestors count name) := by
  induction count generalizing chain seen name with
  | zero =>
    rw [typeChainFrom_end (by omega), Resolver.ancestors, Resolver.untilRepeated, List.append_nil]
  | succ count ih =>
    by_cases old : name ∈ chain
    · have repeated : ∀ more, Resolver.untilRepeated seen (name :: more) = [] := fun more => by
        rw [Resolver.untilRepeated, if_pos (List.contains_iff_mem.mpr ((same name).mpr old))]
      rw [typeChainFrom_end fun new => new.2 old, Resolver.ancestors]
      split <;> rw [repeated, List.append_nil]
    · have kept : ∀ more, Resolver.untilRepeated seen (name :: more) =
          name :: Resolver.untilRepeated (name :: seen) more := fun more => by
        rw [Resolver.untilRepeated,
          if_neg fun found => old ((same name).mp (List.contains_iff_mem.mp found))]
      rw [typeChainFrom_new (by omega) old, lookup, Resolver.ancestors]
      split
      next base found =>
        have longer : (chain ++ [name]).length + count = depthLimit := by
          rw [List.length_append, List.length_singleton]
          omega
        have still : ∀ other, other ∈ name :: seen ↔ other ∈ chain ++ [name] := fun other => by
          simp [same other, or_comm]
        rw [found, kept, ih longer still, List.append_assoc, List.singleton_append]
      next last => rw [last, kept, typeChainFrom_none, Resolver.untilRepeated]

theorem typeChain_eq_baseChain (lookup : symbols.type? = resolver.lookup) (name : String) :
    typeChain symbols (some name) = resolver.baseChain name :=
  typeChainFrom_eq lookup (Nat.zero_add _) (fun _ => Iff.rfl) name

end Chains

/-! ### Interfaces -/

section Interfaces

variable {symbols : Symbols} {resolver : Resolver} {found : List String}

theorem listedInterfaces_eq (lookup : symbols.type? = resolver.lookup) :
    listedInterfaces symbols = resolver.interfacesOf := by
  funext name
  rw [listedInterfaces, lookup]
  rfl

theorem collectInterfaces_nil (symbols : Symbols) (found : List String) :
    collectInterfaces symbols found [] = found := by
  rw [collectInterfaces]

theorem collectInterfaces_new {name : String} (room : found.length < depthLimit)
    (new : name ∉ found) (rest : List String) :
    collectInterfaces symbols found (name :: rest) =
      collectInterfaces symbols (found ++ [name])
        ((listedInterfaces symbols name).reverse ++ rest) := by
  rw [collectInterfaces]
  exact if_pos ⟨room, new⟩

theorem collectInterfaces_skip {name : String}
    (done : ¬ (found.length < depthLimit ∧ name ∉ found)) (rest : List String) :
    collectInterfaces symbols found (name :: rest) = collectInterfaces symbols found rest := by
  rw [collectInterfaces]
  exact if_neg done

/-- Nothing is added to what is full. -/
theorem collectInterfaces_full (full : depthLimit ≤ found.length) (pending : List String) :
    collectInterfaces symbols found pending = found := by
  induction pending with
  | nil => exact collectInterfaces_nil symbols found
  | cons name rest ih => rw [collectInterfaces_skip (by omega), ih]

/-- **A worklist in two parts** is worked off part by part. -/
theorem collectInterfaces_append (symbols : Symbols) (found first second : List String) :
    collectInterfaces symbols found (first ++ second) =
      collectInterfaces symbols (collectInterfaces symbols found first) second := by
  fun_induction collectInterfaces symbols found first with
  | case1 found => rfl
  | case2 found name rest new ih =>
    rw [List.cons_append, collectInterfaces_new new.1 new.2, ← List.append_assoc, ih]
  | case3 found name rest done ih => rw [List.cons_append, collectInterfaces_skip done, ih]

theorem length_le_collectInterfaces (symbols : Symbols) (found pending : List String) :
    found.length ≤ (collectInterfaces symbols found pending).length := by
  fun_induction collectInterfaces symbols found pending with
  | case1 found => exact Nat.le_refl _
  | case2 found name rest new ih =>
    rw [List.length_append] at ih
    exact Nat.le_trans (Nat.le_add_right _ _) ih
  | case3 found name rest done ih => exact ih

/-- **The descent and the worklist find the same.** Each step down costs one of the depth and has found
one more, so the depth is not used up before the limit is reached. -/
theorem gather_eq (lookup : symbols.type? = resolver.lookup) {depth : Nat} {names : List String}
    (deep : depthLimit < depth + found.length) :
    resolver.gather depth found names = collectInterfaces symbols found names := by
  fun_induction Resolver.gather resolver depth found names with
  | case1 depth found => rw [collectInterfaces_nil]
  | case2 found name more => rw [collectInterfaces_full (by omega)]
  | case3 depth found name more done ih =>
    rw [Bool.or_eq_true, List.contains_iff_mem, decide_eq_true_eq] at done
    have old : ¬ (found.length < depthLimit ∧ name ∉ found) := fun new =>
      done.elim new.2 (Nat.not_le_of_lt new.1)
    rw [collectInterfaces_skip old, ih deep]
  | case4 depth found name more new down across =>
    rw [Bool.or_eq_true, List.contains_iff_mem, decide_eq_true_eq, not_or] at new
    have one : (found ++ [name]).length = found.length + 1 := List.length_append
    have below := down (by omega)
    have grown := length_le_collectInterfaces symbols (found ++ [name])
      (resolver.interfacesOf name).reverse
    rw [collectInterfaces_new (by omega) new.1, listedInterfaces_eq lookup,
      collectInterfaces_append, ← below]
    exact across (by rw [below]; omega)

theorem implementedInterfaces_eq_allInterfaces (lookup : symbols.type? = resolver.lookup)
    (name : String) :
    implementedInterfaces symbols (resolver.baseChain name) = resolver.allInterfaces name := by
  rw [implementedInterfaces, Resolver.allInterfaces, gather_eq lookup (Nat.lt_succ_self _),
    listedInterfaces_eq lookup]

end Interfaces

/-! ### Calls -/

section Calls

variable {symbols : Symbols} {call : Call}

theorem CallSite.ofCall_outside (outside : symbols.routineAt? call.span.start = none) :
    ofCall symbols call = ⟨none, false, [], [], []⟩ := by
  rw [ofCall, outside]

theorem CallSite.ofCall_inside {routine : Routine}
    (inside : symbols.routineAt? call.span.start = some routine) :
    ofCall symbols call =
      { method := some routine.name
        isOverrideOrInterfaceImpl := routine.isOverride || routine.isInterfaceImpl
        attributes := sortedSet routine.attributes
        typeChain := ScriptLint.typeChain symbols routine.containingType
        interfaces := implementedInterfaces symbols
          (ScriptLint.typeChain symbols routine.containingType) } := by
  rw [ofCall, inside]

end Calls

/-- **The two walks agree.** For every script, whatever index and catalog it is read against, and every
call in a routine of a type, the surroundings of the call show the chain and the interfaces that the
resolver gives for that type, in the same order. -/
theorem CallSite.ofCall_hierarchy (script : Script) (call : Call) (type : String)
    (around : (script.routineAt? call.span.start).bind (·.containingType) = some type) :
    (CallSite.ofCall script.symbols call).typeChain = script.resolver.baseChain type ∧
      (CallSite.ofCall script.symbols call).interfaces = script.resolver.allInterfaces type := by
  obtain ⟨routine, found, inType⟩ := Option.bind_eq_some_iff.mp around
  have chain : ScriptLint.typeChain script.symbols (some type) = script.resolver.baseChain type :=
    typeChain_eq_baseChain rfl type
  rw [CallSite.ofCall_inside found, inType, chain]
  exact ⟨rfl, implementedInterfaces_eq_allInterfaces rfl type⟩

/-- A type of a project without methods. -/
def projectType (name : String) (baseType : Option String) (interfaces : List String) :
    ProjectType :=
  ⟨⟨name, baseType, interfaces⟩, none, false, []⟩

/-- A script with a routine of a class that is its own grandparent, and interfaces that list each
other. -/
def looped : Script where
  outline := {
    text := "", directives := [], imports := [], globalUsings := [], calls := []
    routines := [⟨"Update", ⟨0, 9⟩, [], false, false, some "Player"⟩]
    types := [], namespaces := [], hasErrors := false }
  usings := ⟨[], [], []⟩
  resolver := ⟨Catalog.empty, ⟨[projectType "Player" (some "Actor") ["ITick"],
    projectType "Actor" (some "Player") ["IShow", "ITick"],
    projectType "ITick" none ["IShow", "IAge"], projectType "IShow" none ["ITick", "IDraw"]],
    [], []⟩⟩

theorem CallSite.ofCall_hierarchy_looped :
    let call : Call := ⟨⟨4, 8⟩, .invocation, "Move", none⟩
    (looped.routineAt? call.span.start).bind (·.containingType) = some "Player" ∧
      looped.resolver.baseChain "Player" = ["Player", "Actor"] ∧
      looped.resolver.allInterfaces "Player" = ["ITick", "IAge", "IShow", "IDraw"] ∧
      (CallSite.ofCall looped.symbols call).typeChain = looped.resolver.baseChain "Player" ∧
      (CallSite.ofCall looped.symbols call).interfaces =
        looped.resolver.allInterfaces "Player" := by
  intro call
  have around : (looped.routineAt? call.span.start).bind (·.containingType) = some "Player" := by
    decide +kernel
  exact ⟨around, by decide +kernel, by cbv,
    CallSite.ofCall_hierarchy looped call "Player" around⟩

end ScriptLint
