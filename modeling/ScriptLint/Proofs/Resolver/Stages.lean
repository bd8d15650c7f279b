/-
**A written name means its first known reading, and its meaning stays.**

A written name may stand for several qualified names. They are tried in stages: as written, inside the
types around, inside the namespaces around, by an alias, inside the imported namespaces. In a stage the
order is that of the scope, innermost or first imported first.

* `Stage`, `ReadAs` — a stage, and the qualified name that a stage offers at a place, said without the
  list of candidates; `candidates_eq`, `readAs_iff` — that list has these in the order of stages and
  places.
* `Knows` — a type of the project or of the catalog has the name; `lookup_of_knows` — then there is a
  symbol of this name.
* `find?_flatMap_first` — a search through stages ends at a stage and a place before which nothing is
  found.
* `resolve?_first` — so a name that is resolved means a known type, the first that a reading of it
  names, and is resolved no further; a name is not resolved only if no reading of it is known.
-/

import ScriptLint.Proofs.Resolver.Hierarchy
import ScriptLint.Proofs.Resolver.Readings

namespace ScriptLint

/-- A name falls into its first segment and what follows it. -/
theorem Name.exists_head (name : String) :
    ∃ head tail, name = head ++ tail ∧ '.' ∉ head.toList ∧ IsTail tail := by
  refine ⟨String.ofList (name.toList.takeWhile (· != '.')),
    String.ofList (name.toList.dropWhile (· != '.')), ?_, ?_, ?_⟩
  · rw [← String.ofList_append, List.takeWhile_append_dropWhile, String.ofList_toList]
  · rw [String.toList_ofList]
    intro member
    simpa using List.mem_takeWhile_imp member
  · rw [IsTail, String.toList_ofList]
    cases found : (name.toList.dropWhile (· != '.')).head? with
    | none => exact .inl rfl
    | some c =>
      have stops := List.head?_dropWhile_not (· != '.') name.toList
      rw [found] at stops
      exact .inr (by simpa using stops)

namespace Resolver

/-! ### Stages -/

/-- The ways to read a name. -/
inductive Stage where
  | written
  | inType
  | inNamespace
  | byAlias
  | imported
deriving Repr, DecidableEq, Inhabited

namespace Stage

/-- The place of a stage in the order in which they are tried. -/
def rank : Stage → Nat
  | written => 0
  | inType => 1
  | inNamespace => 2
  | byAlias => 3
  | imported => 4

/-- All stages in their order. -/
def all : List Stage :=
  [written, inType, inNamespace, byAlias, imported]

theorem mem_all (stage : Stage) : stage ∈ all := by
  cases stage <;> decide

theorem all_pairwise : all.Pairwise fun first second => first.rank < second.rank := by
  decide

/-- The names that a stage offers, in their order. -/
def offers (scope : Scope) (name : String) : Stage → List String
  | written => [name]
  | inType => scope.types.map (· ++ "." ++ name)
  | inNamespace => scope.namespaces.map (· ++ "." ++ name)
  | byAlias => (expandAlias? scope.usings name).toList
  | imported => scope.usings.namespaces.map (· ++ "." ++ name)

end Stage

/-- The qualified name that a stage offers for a normal name at a place. An alias stands for the first
segment of the name, and what follows it is kept. -/
inductive ReadAs (scope : Scope) (name : String) : Stage → Nat → String → Prop
  | written : ReadAs scope name .written 0 name
  | inType {place : Nat} {outer : String} :
      scope.types[place]? = some outer → ReadAs scope name .inType place (outer ++ "." ++ name)
  | inNamespace {place : Nat} {outer : String} :
      scope.namespaces[place]? = some outer →
        ReadAs scope name .inNamespace place (outer ++ "." ++ name)
  | byAlias {head tail target : String} :
      name = head ++ tail → '.' ∉ head.toList → Name.IsTail tail →
        scope.usings.meaning? head = some target → ReadAs scope name .byAlias 0 (target ++ tail)
  | imported {place : Nat} {outer : String} :
      scope.usings.namespaces[place]? = some outer →
        ReadAs scope name .imported place (outer ++ "." ++ name)

section Readings

variable {scope : Scope} {name candidate : String} {stage : Stage} {place : Nat}

theorem candidates_eq (scope : Scope) (name : String) :
    candidates scope name = Stage.all.flatMap (Stage.offers scope name) := by
  simp [candidates, Stage.all, Stage.offers]

theorem getElem?_inside_eq {outers : List String} :
    (outers.map (· ++ "." ++ name))[place]? = some candidate ↔
      ∃ outer, outers[place]? = some outer ∧ outer ++ "." ++ name = candidate := by
  rw [List.getElem?_map, Option.map_eq_some_iff]

/-- The alias stage offers one name at most. -/
theorem getElem?_expandAlias?_eq {head tail : String} (split : name = head ++ tail)
    (noDot : '.' ∉ head.toList) (isTail : Name.IsTail tail) :
    (expandAlias? scope.usings name).toList[place]? = some candidate ↔
      place = 0 ∧ ∃ target, scope.usings.meaning? head = some target ∧ target ++ tail = candidate := by
  rw [split, expandAlias?_head scope.usings noDot isTail]
  cases scope.usings.meaning? head with
  | none => simp
  | some target =>
    rw [Option.map_some, Option.toList_some, List.getElem?_singleton]
    split <;> simp_all

theorem getElem?_offers (reading : ReadAs scope name stage place candidate) :
    (stage.offers scope name)[place]? = some candidate := by
  cases reading with
  | written => rfl
  | inType found => exact getElem?_inside_eq.mpr ⟨_, found, rfl⟩
  | inNamespace found => exact getElem?_inside_eq.mpr ⟨_, found, rfl⟩
  | byAlias split noDot isTail means =>
    exact (getElem?_expandAlias?_eq split noDot isTail).mpr ⟨rfl, _, means, rfl⟩
  | imported found => exact getElem?_inside_eq.mpr ⟨_, found, rfl⟩

theorem readAs_of_offers (found : (stage.offers scope name)[place]? = some candidate) :
    ReadAs scope name stage place candidate := by
  cases stage with
  | written =>
    obtain ⟨inside, same⟩ := List.getElem?_eq_some_iff.mp found
    obtain rfl : place = 0 := by simpa [Stage.offers] using inside
    cases same
    exact .written
  | inType =>
    obtain ⟨outer, around, rfl⟩ := getElem?_inside_eq.mp found
    exact .inType around
  | inNamespace =>
    obtain ⟨outer, around, rfl⟩ := getElem?_inside_eq.mp found
    exact .inNamespace around
  | byAlias =>
    obtain ⟨head, tail, split, noDot, isTail⟩ := Name.exists_head name
    obtain ⟨rfl, target, means, rfl⟩ := (getElem?_expandAlias?_eq split noDot isTail).mp found
    exact .byAlias split noDot isTail means
  | imported =>
    obtain ⟨outer, around, rfl⟩ := getElem?_inside_eq.mp found
    exact .imported around

/-- **The candidates are the readings,** in the order of stages and places. -/
theorem readAs_iff :
    ReadAs scope name stage place candidate ↔ (stage.offers scope name)[place]? = some candidate :=
  ⟨getElem?_offers, readAs_of_offers⟩

theorem mem_candidates_iff :
    candidate ∈ candidates scope name ↔ ∃ stage place, ReadAs scope name stage place candidate := by
  rw [candidates_eq, List.mem_flatMap]
  refine exists_congr fun stage => ?_
  rw [and_iff_right (Stage.mem_all stage), List.mem_iff_getElem?]
  simp only [readAs_iff]

end Readings

/-- **A search through stages** ends at a stage and a place before which nothing is found. -/
theorem find?_flatMap_first {offers : Stage → List String} {known : String → Bool} {name : String}
    (found : (Stage.all.flatMap offers).find? known = some name) :
    ∃ stage place, (offers stage)[place]? = some name ∧
      ∀ (earlier : Stage) (before : Nat) (other : String),
        earlier.rank < stage.rank ∨ earlier = stage ∧ before < place →
          (offers earlier)[before]? = some other → known other = false := by
  rw [List.find?_flatMap, List.findSome?_eq_some_iff] at found
  obtain ⟨first, stage, last, order, here, nothing⟩ := found
  obtain ⟨-, place, inside, same, unknown⟩ := List.find?_eq_some_iff_getElem.mp here
  refine ⟨stage, place, List.getElem?_eq_some_iff.mpr ⟨inside, same⟩, ?_⟩
  rintro earlier before other (lower | ⟨rfl, lower⟩) offered
  · have isFirst : earlier ∈ first := by
      have member := Stage.mem_all earlier
      have sorted := Stage.all_pairwise
      rw [order, List.mem_append, List.mem_cons] at member
      rw [order, List.pairwise_append, List.pairwise_cons] at sorted
      rcases member with isFirst | rfl | isLast
      · exact isFirst
      · exact absurd lower (Nat.lt_irrefl _)
      · exact absurd lower (Nat.lt_asymm (sorted.2.1.1 earlier isLast))
    have missed := List.find?_eq_none.mp (nothing earlier isFirst) other
      (List.mem_iff_getElem?.mpr ⟨before, offered⟩)
    exact Bool.eq_false_iff.mpr missed
  · obtain ⟨inside, rfl⟩ := List.getElem?_eq_some_iff.mp offered
    simpa using unknown before lower

/-! ### Known types -/

variable {resolver : Resolver} {name : String}

/-- A type of the project or of the catalog has the name. -/
def Knows (resolver : Resolver) (name : String) : Prop :=
  (∃ type ∈ resolver.index.types, type.symbol.qualifiedName = name) ∨
    ∃ type ∈ resolver.catalog.types, type.name = name

theorem isKnown_iff : resolver.isKnown name = true ↔ resolver.Knows name := by
  simp [isKnown, Knows, Index.type?, Catalog.type?]

/-- Of a known type there is a symbol, which has its name. -/
theorem lookup_of_knows (known : resolver.Knows name) :
    ∃ symbol, resolver.lookup name = some symbol ∧ symbol.qualifiedName = name := by
  have isKnown := isKnown_iff.mpr known
  unfold Resolver.isKnown at isKnown
  unfold lookup
  cases inIndex : resolver.index.type? name with
  | some type => exact ⟨type.symbol, rfl, by simpa using List.find?_some inIndex⟩
  | none =>
    rw [inIndex, Option.isSome_none, Bool.false_or, Option.isSome_iff_exists] at isKnown
    obtain ⟨type, inCatalog⟩ := isKnown
    refine ⟨type.symbol, by rw [inCatalog, Option.map_some], ?_⟩
    have named := List.find?_some inCatalog
    exact beq_iff_eq.mp named

/-- The names of all types are normal and not empty. -/
structure HasNormalNames (resolver : Resolver) : Prop where
  project : ∀ type ∈ resolver.index.types,
    type.symbol.qualifiedName ≠ "" ∧ Name.normalize type.symbol.qualifiedName = type.symbol.qualifiedName
  catalog : ∀ type ∈ resolver.catalog.types, type.name ≠ "" ∧ Name.normalize type.name = type.name

theorem HasNormalNames.of_knows (normal : resolver.HasNormalNames) (known : resolver.Knows name) :
    name ≠ "" ∧ Name.normalize name = name := by
  rcases known with ⟨type, member, rfl⟩ | ⟨type, member, rfl⟩
  · exact normal.project type member
  · exact normal.catalog type member

/-! ### Meanings -/

/-- **A name means its first known reading, and its meaning stays.** Let all types have normal names, and
let the normal form of a written name not be empty. If the name is resolved, then to a known type, whose
symbol has its name, that means itself in every scope, and that a reading of the name in some stage
names, while no reading of an earlier stage, or of an earlier place in this stage, is known. It is not
resolved only if no reading in any stage is known. -/
theorem resolve?_first (resolver : Resolver) (normal : resolver.HasNormalNames) (scope : Scope)
    (written : String) (nonempty : Name.normalize written ≠ "") :
    (∀ name, resolver.resolve? written scope = some name →
      resolver.Knows name ∧
      (∃ symbol, resolver.lookup name = some symbol ∧ symbol.qualifiedName = name) ∧
      (∀ other : Scope, resolver.resolve? name other = some name) ∧
      ∃ stage place, ReadAs scope (Name.normalize written) stage place name ∧
        ∀ (earlier : Stage) (before : Nat) (candidate : String),
          earlier.rank < stage.rank ∨ earlier = stage ∧ before < place →
            ReadAs scope (Name.normalize written) earlier before candidate →
              ¬ resolver.Knows candidate) ∧
    (resolver.resolve? written scope = none ↔
      ∀ stage place candidate, ReadAs scope (Name.normalize written) stage place candidate →
        ¬ resolver.Knows candidate) := by
  rw [resolve?_eq rfl nonempty]
  constructor
  · intro name found
    have known : resolver.Knows name := isKnown_iff.mp (List.find?_some found)
    obtain ⟨notEmpty, isNormal⟩ := normal.of_knows known
    have stays (other : Scope) : resolver.resolve? name other = some name :=
      resolve?_of_known isNormal notEmpty (isKnown_iff.mpr known)
    rw [candidates_eq] at found
    obtain ⟨stage, place, offered, first⟩ := find?_flatMap_first found
    refine ⟨known, lookup_of_knows known, stays, stage, place, readAs_iff.mpr offered, ?_⟩
    intro earlier before candidate lower reading isKnown
    have unknown := first earlier before candidate lower (readAs_iff.mp reading)
    rw [isKnown_iff.mpr isKnown] at unknown
    cases unknown
  · rw [List.find?_eq_none]
    constructor
    · intro none stage place candidate reading isKnown
      exact none candidate (mem_candidates_iff.mpr ⟨stage, place, reading⟩) (isKnown_iff.mpr isKnown)
    · intro none candidate member isKnown
      obtain ⟨stage, place, reading⟩ := mem_candidates_iff.mp member
      exact none stage place candidate reading (isKnown_iff.mp isKnown)

/-- A reader with a type inside it, and a library with a workbook. -/
def library : Resolver :=
  ⟨⟨[{ name := "ClosedXML.Excel.XLWorkbook" }], [], []⟩,
    ⟨[projectType "Game.Io.Reader" none [], projectType "Game.Io.Reader.Cell" none []], [], []⟩⟩

/-- Inside the reader, where the library has an alias. -/
def insideReader : Scope where
  namespaces := ["Game.Io", "Game"]
  types := ["Game.Io.Reader"]
  usings := ⟨["System"], [("Xl", "ClosedXML.Excel")], []⟩

theorem resolve?_first_workbook :
    library.HasNormalNames ∧ Name.normalize "Xl.XLWorkbook<int>[]" ≠ "" ∧
      library.resolve? "Xl.XLWorkbook<int>[]" insideReader = some "ClosedXML.Excel.XLWorkbook" ∧
      ∀ other : Scope, library.resolve? "ClosedXML.Excel.XLWorkbook" other =
        some "ClosedXML.Excel.XLWorkbook" := by
  have normal : library.HasNormalNames := ⟨by decide +kernel, by decide +kernel⟩
  have nonempty : Name.normalize "Xl.XLWorkbook<int>[]" ≠ "" := by decide +kernel
  have found : library.resolve? "Xl.XLWorkbook<int>[]" insideReader =
      some "ClosedXML.Excel.XLWorkbook" := by
    decide +kernel
  exact ⟨normal, nonempty, found,
    ((resolve?_first library normal insideReader _ nonempty).1 _ found).2.2.1⟩

end Resolver

end ScriptLint
