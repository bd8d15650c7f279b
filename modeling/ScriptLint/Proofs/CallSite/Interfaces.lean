/-
**The interfaces of a chain of types are those that it leads to.**

A chain of types lists interfaces, and these list further ones. The names may be unknown, come many
times and go round. The interfaces are found by a loop over a worklist, where each turn takes the newest
name: a new one is kept while there is room, and what it lists is put in front of all that waits.

* `Reached` — what following the lists leads to, said without a worklist.
* `Worklist.turn` — one turn of the loop; `iterate_turn` — the loop ends, and after how many turns: each
  name that is listed by a type of the chain or by an interface found is taken once.
* `Working` — what holds between turns; `Working.turn`, `Working.run` — each turn keeps it, so every
  number of turns does. Once there is no room names are dropped, so what waits covers the rest only
  before that.
* `Working.finds` — at the end, either the limit is reached or nothing is left out.
* `interfaces_reached` — so the interfaces found are reached, each once, and as many as there are up to
  the limit.
-/

import Mathlib.Data.ENat.Lattice
import Mathlib.Data.Set.Card
import ScriptLint.Proofs.CallSite.Chain

namespace ScriptLint

/-! ### What is reached -/

/-- The type is known and lists the interface. -/
def Lists (lookup : String → Option TypeSymbol) (type name : String) : Prop :=
  ∃ symbol, lookup type = some symbol ∧ name ∈ symbol.interfaces

/-- The interfaces that a chain of types leads to: those that its types list, and those that an
interface lists to which it leads. -/
inductive Reached (lookup : String → Option TypeSymbol) (chain : List String) : String → Prop
  | direct {type name : String} :
      type ∈ chain → Lists lookup type name → Reached lookup chain name
  | further {outer name : String} :
      Reached lookup chain outer → Lists lookup outer name → Reached lookup chain name

theorem mem_listedInterfaces {symbols : Symbols} {type name : String} :
    name ∈ listedInterfaces symbols type ↔ Lists symbols.type? type name := by
  unfold listedInterfaces Lists
  cases symbols.type? type with
  | none => simp
  | some symbol => simp

/-- A list of interfaces without repetition that a chain leads to, as many as there are up to a
limit. -/
structure Finds (lookup : String → Option TypeSymbol) (limit : Nat) (chain found : List String) :
    Prop where
  nodup : found.Nodup
  reached : ∀ name ∈ found, Reached lookup chain name
  length_eq : (found.length : ℕ∞) = min (limit : ℕ∞) {name | Reached lookup chain name}.encard

theorem encard_of_nodup {names : List String} (nodup : names.Nodup) :
    {name | name ∈ names}.encard = names.length := by
  rw [← List.coe_toFinset, Set.encard_coe_eq_coe_finsetCard, List.toFinset_card_of_nodup nodup]

/-- If the chain leads to no more than the limit, all are found. -/
theorem Finds.mem_iff {lookup : String → Option TypeSymbol} {limit : Nat}
    {chain found : List String} (finds : Finds lookup limit chain found)
    (few : {name | Reached lookup chain name}.encard ≤ limit) (name : String) :
    name ∈ found ↔ Reached lookup chain name := by
  have all : {name | name ∈ found} = {name | Reached lookup chain name} := by
    refine (List.finite_toSet found).eq_of_subset_of_encard_le finds.reached ?_
    rw [encard_of_nodup finds.nodup, finds.length_eq, min_eq_right few]
  exact Set.ext_iff.mp all name

/-! ### The loop -/

/-- The interfaces found and the names that wait. -/
structure Worklist where
  found : List String
  pending : List String
deriving Repr, DecidableEq, Inhabited

namespace Worklist

/-- Nothing is found, and all that the chain lists waits, the last listed first. -/
def initial (symbols : Symbols) (chain : List String) : Worklist :=
  ⟨[], (chain.flatMap (listedInterfaces symbols)).reverse⟩

/-- One turn of the loop. A list of work that is done stays as it is. -/
def turn (symbols : Symbols) (work : Worklist) : Worklist :=
  match work.pending with
  | [] => work
  | name :: rest =>
    if work.found.length < depthLimit ∧ name ∉ work.found then
      ⟨work.found ++ [name], (listedInterfaces symbols name).reverse ++ rest⟩
    else
      ⟨work.found, rest⟩

variable {symbols : Symbols} {found rest : List String} {name : String}

theorem turn_new (new : found.length < depthLimit ∧ name ∉ found) :
    turn symbols ⟨found, name :: rest⟩ =
      ⟨found ++ [name], (listedInterfaces symbols name).reverse ++ rest⟩ :=
  if_pos new

theorem turn_skip (done : ¬ (found.length < depthLimit ∧ name ∉ found)) :
    turn symbols ⟨found, name :: rest⟩ = ⟨found, rest⟩ :=
  if_neg done

/-- **The loop ends** with what is collected. Each name that waits costs one turn, and each interface
that is found brings the names that it lists. -/
theorem iterate_turn (symbols : Symbols) (found pending : List String) :
    ∃ turns, turns + (found.flatMap (listedInterfaces symbols)).length =
        pending.length +
          ((collectInterfaces symbols found pending).flatMap (listedInterfaces symbols)).length ∧
      (turn symbols)^[turns] ⟨found, pending⟩ = ⟨collectInterfaces symbols found pending, []⟩ := by
  fun_induction collectInterfaces symbols found pending with
  | case1 found => exact ⟨0, by rw [List.length_nil], rfl⟩
  | case2 found name rest new ih =>
    obtain ⟨turns, count, ended⟩ := ih
    refine ⟨turns + 1, ?_, ?_⟩
    · rw [List.flatMap_append, List.flatMap_singleton, List.length_append, List.length_append,
        List.length_reverse] at count
      rw [List.length_cons]
      omega
    · rw [Function.iterate_succ_apply, turn_new new, ended]
  | case3 found name rest done ih =>
    obtain ⟨turns, count, ended⟩ := ih
    refine ⟨turns + 1, ?_, ?_⟩
    · rw [List.length_cons]
      omega
    · rw [Function.iterate_succ_apply, turn_skip done, ended]

/-- The loop over what a chain lists has ended after as many turns as names are listed by the chain
and by the interfaces found. -/
theorem iterate_turn_initial (symbols : Symbols) (chain : List String) :
    (turn symbols)^[((chain ++ implementedInterfaces symbols chain).flatMap
        (listedInterfaces symbols)).length] (initial symbols chain) =
      ⟨implementedInterfaces symbols chain, []⟩ := by
  obtain ⟨turns, count, ended⟩ :=
    iterate_turn symbols [] (chain.flatMap (listedInterfaces symbols)).reverse
  rw [List.flatMap_nil, List.length_nil, Nat.add_zero, List.length_reverse,
    ← List.length_append, ← implementedInterfaces, ← List.flatMap_append] at count
  rw [← count]
  exact ended

end Worklist

/-! ### What a turn keeps -/

/-- Between turns the interfaces found are new to each other, within the limit and reached, and so is
what waits. While there is room, all that the chain and the interfaces found list is found or waits. -/
structure Working (symbols : Symbols) (chain : List String) (work : Worklist) : Prop where
  nodup : work.found.Nodup
  length_le : work.found.length ≤ depthLimit
  found_reached : ∀ name ∈ work.found, Reached symbols.type? chain name
  pending_reached : ∀ name ∈ work.pending, Reached symbols.type? chain name
  covered : work.found.length < depthLimit →
    ∀ type name, type ∈ chain ∨ type ∈ work.found → Lists symbols.type? type name →
      name ∈ work.found ∨ name ∈ work.pending

namespace Working

variable {symbols : Symbols} {chain found rest : List String} {name : String} {work : Worklist}

theorem initial (symbols : Symbols) (chain : List String) :
    Working symbols chain (Worklist.initial symbols chain) where
  nodup := List.nodup_nil
  length_le := Nat.zero_le _
  found_reached name member := absurd member List.not_mem_nil
  pending_reached name member := by
    obtain ⟨type, isIn, listed⟩ := List.mem_flatMap.mp (List.mem_reverse.mp member)
    exact .direct isIn (mem_listedInterfaces.mp listed)
  covered _ type name isIn listed := by
    have inChain : type ∈ chain := isIn.resolve_right List.not_mem_nil
    refine .inr (List.mem_reverse.mpr (List.mem_flatMap.mpr ⟨type, inChain, ?_⟩))
    exact mem_listedInterfaces.mpr listed

/-- A turn that finds a new interface. -/
theorem turn_new (working : Working symbols chain ⟨found, name :: rest⟩)
    (new : found.length < depthLimit ∧ name ∉ found) :
    Working symbols chain
      ⟨found ++ [name], (listedInterfaces symbols name).reverse ++ rest⟩ where
  nodup := working.nodup.append (List.nodup_singleton name) (List.disjoint_singleton.mpr new.2)
  length_le := by
    rw [List.length_append, List.length_singleton]
    exact new.1
  found_reached other member := by
    rcases List.mem_append.mp member with old | last
    · exact working.found_reached other old
    · obtain rfl := List.mem_singleton.mp last
      exact working.pending_reached other List.mem_cons_self
  pending_reached other member := by
    rcases List.mem_append.mp member with listed | waits
    · exact .further (working.pending_reached name List.mem_cons_self)
        (mem_listedInterfaces.mp (List.mem_reverse.mp listed))
    · exact working.pending_reached other (List.mem_cons_of_mem _ waits)
  covered _ type other isIn listed := by
    -- What the new interface lists waits now; all else was covered before.
    have old (isOld : type ∈ chain ∨ type ∈ found) : other ∈ found ∨ other = name ∨ other ∈ rest := by
      have before := working.covered new.1 type other isOld listed
      rwa [List.mem_cons] at before
    have lists : type = name → other ∈ listedInterfaces symbols name := fun same =>
      mem_listedInterfaces.mpr (same ▸ listed)
    simp only [List.mem_append, List.mem_singleton, List.mem_reverse] at isIn ⊢
    tauto

/-- A turn that drops a name, which is found already unless there is no room. -/
theorem turn_skip (working : Working symbols chain ⟨found, name :: rest⟩)
    (done : ¬ (found.length < depthLimit ∧ name ∉ found)) :
    Working symbols chain ⟨found, rest⟩ where
  nodup := working.nodup
  length_le := working.length_le
  found_reached := working.found_reached
  pending_reached other member := working.pending_reached other (List.mem_cons_of_mem _ member)
  covered room type other isIn listed := by
    have old : name ∈ found := by
      by_contra new
      exact done ⟨room, new⟩
    rcases working.covered room type other isIn listed with isFound | waits
    · exact .inl isFound
    · rcases List.mem_cons.mp waits with rfl | later
      · exact .inl old
      · exact .inr later

theorem turn (working : Working symbols chain work) :
    Working symbols chain (work.turn symbols) := by
  obtain ⟨found, pending⟩ := work
  cases pending with
  | nil => exact working
  | cons name rest =>
    by_cases new : found.length < depthLimit ∧ name ∉ found
    · rw [Worklist.turn_new new]
      exact working.turn_new new
    · rw [Worklist.turn_skip new]
      exact working.turn_skip new

theorem run (working : Working symbols chain work) (turns : Nat) :
    Working symbols chain ((Worklist.turn symbols)^[turns] work) := by
  induction turns generalizing work with
  | zero => exact working
  | succ turns ih =>
    rw [Function.iterate_succ_apply]
    exact ih working.turn

/-- When nothing waits and there is still room, nothing is left out. -/
theorem mem_found (working : Working symbols chain ⟨found, []⟩) (room : found.length < depthLimit)
    (reached : Reached symbols.type? chain name) : name ∈ found := by
  induction reached with
  | direct isIn listed =>
    exact (working.covered room _ _ (.inl isIn) listed).resolve_right List.not_mem_nil
  | further _ listed ih =>
    exact (working.covered room _ _ (.inr ih) listed).resolve_right List.not_mem_nil

/-- **At the end** the limit is reached, or all is found. -/
theorem finds (working : Working symbols chain ⟨found, []⟩) :
    Finds symbols.type? depthLimit chain found where
  nodup := working.nodup
  reached := working.found_reached
  length_eq := by
    have counted := encard_of_nodup working.nodup
    have within : (found.length : ℕ∞) ≤ {name | Reached symbols.type? chain name}.encard := by
      rw [← counted]
      exact Set.encard_le_encard working.found_reached
    by_cases room : found.length < depthLimit
    · have all : {name | name ∈ found} = {name | Reached symbols.type? chain name} :=
        Set.Subset.antisymm working.found_reached fun name reached => working.mem_found room reached
      rw [← all, counted, min_eq_right]
      exact_mod_cast room.le
    · have full : found.length = depthLimit := Nat.le_antisymm working.length_le (by omega)
      rw [← full, min_eq_left within]

end Working

/-! ### The interfaces -/

theorem finds_implementedInterfaces (symbols : Symbols) (chain : List String) :
    Finds symbols.type? depthLimit chain (implementedInterfaces symbols chain) := by
  have ended := (Working.initial symbols chain).run
    ((chain ++ implementedInterfaces symbols chain).flatMap (listedInterfaces symbols)).length
  rw [Worklist.iterate_turn_initial] at ended
  exact ended.finds

theorem finds_allInterfaces (resolver : Resolver) (name : String) :
    Finds resolver.lookup depthLimit (resolver.baseChain name) (resolver.allInterfaces name) := by
  have same : implementedInterfaces resolver.typesOnly (resolver.baseChain name) =
      resolver.allInterfaces name :=
    implementedInterfaces_eq_allInterfaces rfl name
  exact same ▸ finds_implementedInterfaces resolver.typesOnly (resolver.baseChain name)

/-- **The interfaces found are those reached.** For all symbols and every chain of types, such as that
of the type around a call: the loop ends, with a list of interfaces without repetition, each reached
from the chain by following what types list, whose length is the lesser of 64 and the number of
interfaces reached. So if at most 64 are reached, it has all of them. The same holds of the interfaces
that a resolver gives for a type. How many types are known does not matter: the number reached may even
be infinite. -/
theorem interfaces_reached (symbols : Symbols) (chain : List String) (resolver : Resolver)
    (name : String) :
    (∃ turns, (Worklist.turn symbols)^[turns] (Worklist.initial symbols chain) =
      ⟨implementedInterfaces symbols chain, []⟩) ∧
    (Finds symbols.type? 64 chain (implementedInterfaces symbols chain) ∧
      ({other | Reached symbols.type? chain other}.encard ≤ 64 →
        ∀ other, other ∈ implementedInterfaces symbols chain ↔
          Reached symbols.type? chain other)) ∧
    (Finds resolver.lookup 64 (resolver.baseChain name) (resolver.allInterfaces name) ∧
      ({other | Reached resolver.lookup (resolver.baseChain name) other}.encard ≤ 64 →
        ∀ other, other ∈ resolver.allInterfaces name ↔
          Reached resolver.lookup (resolver.baseChain name) other)) := by
  have implemented := finds_implementedInterfaces symbols chain
  have known := finds_allInterfaces resolver name
  exact ⟨⟨_, Worklist.iterate_turn_initial symbols chain⟩, ⟨implemented, implemented.mem_iff⟩,
    known, known.mem_iff⟩

/-- Of classes and interfaces that go round, the interfaces reached are the four that are found. -/
theorem interfaces_reached_looped :
    {other | Reached looped.resolver.lookup (looped.resolver.baseChain "Player") other}.encard ≤ 64 ∧
      ∀ other, other ∈ ["ITick", "IAge", "IShow", "IDraw"] ↔
        Reached looped.resolver.lookup (looped.resolver.baseChain "Player") other := by
  have found : looped.resolver.allInterfaces "Player" = ["ITick", "IAge", "IShow", "IDraw"] := by
    cbv
  obtain ⟨finds, all⟩ := (interfaces_reached looped.symbols [] looped.resolver "Player").2.2
  have few : {other |
      Reached looped.resolver.lookup (looped.resolver.baseChain "Player") other}.encard ≤ 64 := by
    by_contra many
    have full := finds.length_eq
    rw [found, Nat.cast_ofNat, min_eq_left (not_le.mp many).le] at full
    exact absurd (show (4 : ℕ∞) = 64 from full) (by decide)
  exact ⟨few, fun other => by rw [← found]; exact all few other⟩

end ScriptLint
