/-
**The chain of a type is as long as it can be.**

From a type one step leads to its base class, the next to the base class of that. The sequence ends at
a type whose base class is not known, or it comes back to one of its names and goes round. A walk along
it has to stop before a name is repeated and when it has `depthLimit` names, but not earlier.

* `ancestor?` — the name that a number of steps leads to; `IsStart` — a list of what the first steps
  lead to.
* `IsLongest` — of the starts without a repeated name and within a limit the longest.
* `Climbed` — what holds each time round the loop; `Climbed.step`, `Climbed.stop`, `Climbed.run` — one
  time round keeps it, where the loop ends nothing longer is possible, and so for the whole run.
* `IsLongest.isWhole` — so of a sequence that ends within the limit nothing is lost.
* `chains_longest` — all this of both walks, over any graph of types.
-/

import Mathlib.Data.List.Nodup
import ScriptLint.Proofs.Resolver.Hierarchy

namespace ScriptLint

/-! ### The sequence of base classes -/

section Sequence

variable {lookup : String → Option TypeSymbol} {name : String} {names others : List String}

/-- The name of the base class of a type, if the type is known and has one. -/
def baseBy (lookup : String → Option TypeSymbol) (name : String) : Option String :=
  (lookup name).bind (·.baseType)

/-- The name that `count` steps lead to, each from a type to its base class. -/
def ancestor? (lookup : String → Option TypeSymbol) (name : String) : Nat → Option String
  | 0 => some name
  | count + 1 => (ancestor? lookup name count).bind (baseBy lookup)

/-- Behind the end of the sequence there is nothing. -/
theorem ancestor?_eq_none {count later : Nat} (ended : ancestor? lookup name count = none)
    (behind : count ≤ later) : ancestor? lookup name later = none := by
  induction behind with
  | refl => exact ended
  | step _ ih => rw [ancestor?, ih, Option.bind_none]

/-- From a repeated name on the sequence repeats itself. -/
theorem ancestor?_add {first second : Nat}
    (same : ancestor? lookup name first = ancestor? lookup name second) (count : Nat) :
    ancestor? lookup name (first + count) = ancestor? lookup name (second + count) := by
  induction count with
  | zero => exact same
  | succ count ih =>
    show (ancestor? lookup name (first + count)).bind _ =
      (ancestor? lookup name (second + count)).bind _
    rw [ih]

/-- **A sequence that ends repeats no name.** Otherwise what leads from the second place of the name to
the end leads there from the first place as well, in the middle of the sequence. -/
theorem ancestor?_ne {first second ending : Nat} (earlier : first < second)
    (ended : ancestor? lookup name ending = none)
    (present : ancestor? lookup name second ≠ none) :
    ancestor? lookup name first ≠ ancestor? lookup name second := by
  intro same
  induction ending with
  | zero => cases ended
  | succ ending ih =>
    have before : second ≤ ending := by
      by_contra behind
      exact present (ancestor?_eq_none ended (by omega))
    have shifted := ancestor?_add same (ending + 1 - second)
    rw [show second + (ending + 1 - second) = ending + 1 by omega, ended] at shifted
    exact ih (ancestor?_eq_none shifted (by omega))

/-- A list of the names that the first steps lead to. -/
def IsStart (lookup : String → Option TypeSymbol) (name : String) (names : List String) : Prop :=
  ∀ n < names.length, names[n]? = ancestor? lookup name n

namespace IsStart

theorem concat {next : String} (start : IsStart lookup name names)
    (follows : ancestor? lookup name names.length = some next) :
    IsStart lookup name (names ++ [next]) := by
  intro n inside
  rw [List.length_append, List.length_singleton] at inside
  by_cases old : n < names.length
  · rw [List.getElem?_append_left old, start n old]
  · obtain rfl : n = names.length := by omega
    rw [List.getElem?_concat_length, follows]

/-- No start goes beyond the end of the sequence. -/
theorem length_le {count : Nat} (start : IsStart lookup name names)
    (ended : ancestor? lookup name count = none) : names.length ≤ count := by
  by_contra inside
  have missing := start count (by omega)
  rw [ended, List.getElem?_eq_none_iff] at missing
  omega

/-- The shorter of two starts begins the longer. -/
theorem prefix_of_length_le (start : IsStart lookup name names)
    (other : IsStart lookup name others) (shorter : names.length ≤ others.length) :
    names <+: others := by
  rw [List.prefix_iff_getElem?]
  intro n inside
  rw [other n (by omega), ← start n inside, List.getElem?_eq_getElem inside]

/-- A start without repeated names ends before the sequence comes back to one of its names. -/
theorem length_le_of_repeated {next : String} (start : IsStart lookup name names)
    (follows : ancestor? lookup name names.length = some next) (repeated : next ∈ names)
    (other : IsStart lookup name others) (nodup : others.Nodup) :
    others.length ≤ names.length := by
  by_contra longer
  obtain ⟨n, inside, found⟩ := List.getElem_of_mem repeated
  have here : others[n]? = some next := by
    rw [other n (by omega), ← start n inside, List.getElem?_eq_getElem inside, found]
  have again : others[names.length]? = some next := by
    rw [other names.length (by omega), follows]
  exact List.nodup_iff_getElem?_ne_getElem?.mp nodup n names.length inside (by omega)
    (here.trans again.symm)

end IsStart

/-- A start without repeated names and within a limit, such that every other one begins it. -/
structure IsLongest (lookup : String → Option TypeSymbol) (limit : Nat) (name : String)
    (names : List String) : Prop where
  start : IsStart lookup name names
  nodup : names.Nodup
  length_le : names.length ≤ limit
  longest : ∀ others, IsStart lookup name others → others.Nodup → others.length ≤ limit →
    others <+: names

/-- The whole sequence, which ends at the first type whose base class is not known. -/
structure IsWhole (lookup : String → Option TypeSymbol) (name : String) (names : List String) :
    Prop where
  all : ∀ n, names[n]? = ancestor? lookup name n
  last : ∀ n type, names[n]? = some type → (baseBy lookup type = none ↔ n + 1 = names.length)

theorem isWhole_of_ended (start : IsStart lookup name names)
    (ended : ancestor? lookup name names.length = none) : IsWhole lookup name names := by
  have all : ∀ n, names[n]? = ancestor? lookup name n := fun n => by
    by_cases inside : n < names.length
    · exact start n inside
    · rw [ancestor?_eq_none ended (by omega), List.getElem?_eq_none (by omega)]
  refine ⟨all, fun n type found => ?_⟩
  have inside : n < names.length := (List.getElem?_eq_some_iff.mp found).1
  have next : names[n + 1]? = baseBy lookup type := by
    rw [all, ancestor?, ← all, found, Option.bind_some]
  rw [← next, List.getElem?_eq_none_iff]
  omega

/-- **Nothing is lost of a sequence that ends within the limit.** -/
theorem IsLongest.isWhole {limit : Nat} (chain : IsLongest lookup limit name names)
    (ended : ancestor? lookup name limit = none) : IsWhole lookup name names := by
  refine isWhole_of_ended chain.start ?_
  by_contra goesOn
  obtain ⟨next, follows⟩ := Option.ne_none_iff_exists'.mp goesOn
  have room : names.length < limit := by
    by_contra full
    exact goesOn (ancestor?_eq_none ended (by omega))
  have new : next ∉ names := fun repeated => by
    obtain ⟨n, inside, found⟩ := List.getElem_of_mem repeated
    refine ancestor?_ne inside ended goesOn ?_
    rw [follows, ← chain.start n inside, List.getElem?_eq_getElem inside, found]
  have nodup : (names ++ [next]).Nodup :=
    chain.nodup.append (List.nodup_singleton next) (List.disjoint_singleton.mpr new)
  have longer := chain.longest (names ++ [next]) (chain.start.concat follows) nodup
    (by rw [List.length_append, List.length_singleton]; omega)
  have shorter := longer.length_le
  rw [List.length_append, List.length_singleton] at shorter
  omega

end Sequence

/-! ### The walk -/

/-- Each time round the loop the chain is a start without repeated names and within the limit, and
`next` is what follows it in the sequence. -/
structure Climbed (symbols : Symbols) (name : String) (chain : List String) (next : Option String) :
    Prop where
  start : IsStart symbols.type? name chain
  next_eq : ancestor? symbols.type? name chain.length = next
  nodup : chain.Nodup
  length_le : chain.length ≤ depthLimit

namespace Climbed

variable {symbols : Symbols} {name base : String} {chain : List String} {next : Option String}

theorem initial (symbols : Symbols) (name : String) : Climbed symbols name [] (some name) where
  start n inside := absurd inside (Nat.not_lt_zero n)
  next_eq := rfl
  nodup := List.nodup_nil
  length_le := Nat.zero_le _

theorem step (climbed : Climbed symbols name chain (some base)) (room : chain.length < depthLimit)
    (new : base ∉ chain) :
    Climbed symbols name (chain ++ [base]) ((symbols.type? base).bind (·.baseType)) where
  start := climbed.start.concat climbed.next_eq
  next_eq := by
    rw [List.length_append, List.length_singleton, ancestor?, climbed.next_eq, Option.bind_some,
      baseBy]
  nodup := climbed.nodup.append (List.nodup_singleton base) (List.disjoint_singleton.mpr new)
  length_le := by
    rw [List.length_append, List.length_singleton]
    omega

/-- **The three ways for the loop to end:** there is no next name, the chain is full, or the next name
is in it. Each bounds every other start. -/
theorem stop (climbed : Climbed symbols name chain next)
    (done : ∀ base, next = some base → ¬ (chain.length < depthLimit ∧ base ∉ chain)) :
    IsLongest symbols.type? depthLimit name chain where
  start := climbed.start
  nodup := climbed.nodup
  length_le := climbed.length_le
  longest others start nodup short := by
    refine start.prefix_of_length_le climbed.start ?_
    cases follows : next with
    | none => exact start.length_le (climbed.next_eq.trans follows)
    | some base =>
      by_cases room : chain.length < depthLimit
      · have repeated : base ∈ chain := by
          by_contra new
          exact done base follows ⟨room, new⟩
        exact climbed.start.length_le_of_repeated (climbed.next_eq.trans follows) repeated start nodup
      · omega

theorem run (climbed : Climbed symbols name chain next) :
    IsLongest symbols.type? depthLimit name (typeChainFrom symbols chain next) := by
  fun_induction typeChainFrom symbols chain next with
  | case1 chain =>
    refine climbed.stop fun base follows => ?_
    cases follows
  | case2 chain base new ih => exact ih (climbed.step new.1 new.2)
  | case3 chain base done =>
    refine climbed.stop fun other same => ?_
    cases same
    exact done

end Climbed

theorem isLongest_typeChain (symbols : Symbols) (name : String) :
    IsLongest symbols.type? depthLimit name (typeChain symbols (some name)) :=
  (Climbed.initial symbols name).run

/-- The types that a resolver knows, without calls and routines. -/
def Resolver.typesOnly (resolver : Resolver) : Symbols where
  target? _ := none
  routineAt? _ := none
  type? := resolver.lookup

theorem isLongest_baseChain (resolver : Resolver) (name : String) :
    IsLongest resolver.lookup depthLimit name (resolver.baseChain name) := by
  have same : typeChain resolver.typesOnly (some name) = resolver.baseChain name :=
    typeChain_eq_baseChain rfl name
  exact same ▸ isLongest_typeChain resolver.typesOnly name

/-- **Both walks return the longest chain.** Whatever the symbols say, and whatever a resolver knows,
the chain of a type is the longest start of the sequence of its base classes in which no name is
repeated and that has at most 64 names. So a hierarchy that ends after at most 64 types, and for this
reason goes through none twice, is returned whole, up to the first type whose base class is not known. -/
theorem chains_longest (symbols : Symbols) (resolver : Resolver) (name : String) :
    (IsLongest symbols.type? 64 name (typeChain symbols (some name)) ∧
      (ancestor? symbols.type? name 64 = none →
        IsWhole symbols.type? name (typeChain symbols (some name)))) ∧
    (IsLongest resolver.lookup 64 name (resolver.baseChain name) ∧
      (ancestor? resolver.lookup name 64 = none →
        IsWhole resolver.lookup name (resolver.baseChain name))) := by
  have typed := isLongest_typeChain symbols name
  have based := isLongest_baseChain resolver name
  exact ⟨⟨typed, typed.isWhole⟩, based, based.isWhole⟩

/-- A class whose base class has a base class that is not known. -/
def dangling : Resolver :=
  ⟨Catalog.empty, ⟨[projectType "Player" (some "Actor") [],
    projectType "Actor" (some "MonoBehaviour") []], [], []⟩⟩

theorem chains_longest_dangling :
    ancestor? dangling.lookup "Player" 64 = none ∧
      IsWhole dangling.lookup "Player" ["Player", "Actor", "MonoBehaviour"] := by
  have ended : ancestor? dangling.lookup "Player" 64 = none := by decide +kernel
  have chain : dangling.baseChain "Player" = ["Player", "Actor", "MonoBehaviour"] := by
    decide +kernel
  exact ⟨ended, chain ▸ (chains_longest dangling.typesOnly dangling "Player").2.2 ended⟩

end ScriptLint
