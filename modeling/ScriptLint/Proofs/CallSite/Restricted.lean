/-
**What a restriction depends on.**

Whether a call stands in a routine that runs every frame is decided by five conditions on the routine
around it and on the hierarchy of its type. Two of them ask for a restricted name besides, which is
enough by itself, and so does half of a third. What is left is a condition on the surroundings of the
call, and on only three parts of them.

* `mem_sortedSet`, `sortedSet_increasing` — a set of names has the names of the list it was made of, in
  increasing order; so has a call its attributes (`CallSite.attributes_increasing`).
* `Restriction.Marks` — a name holds a mark, in words of its own.
* `Restriction.CoversSite` — the condition on the surroundings; `Restriction.covers_iff` — the five
  conditions come down to it.
* `typeChainFrom_congr`, `collectInterfaces_congr` — the walks over a hierarchy ask for types only;
  `CallSite.ofCall_withFlags` — so the flags of routines show in one place of the surroundings.
* `isRestricted_iff_coversSite` — the verdict is this condition on the surroundings.
* `isRestricted_of_site` — so neither the flags of the routine nor the base class of components has any
  influence on it.
-/

import ScriptLint.Proofs.Resolver.Hierarchy
import ScriptLint.Proofs.Text.Parts

namespace ScriptLint

/-! ### Sets of names -/

theorem mem_insertSorted {name other : String} {names : List String} :
    other ∈ insertSorted name names ↔ other = name ∨ other ∈ names := by
  induction names with
  | nil => simp [insertSorted]
  | cons first rest ih =>
    rw [insertSorted]
    split
    next same => simp [same]
    next =>
      split
      · exact List.mem_cons
      · rw [List.mem_cons, ih, List.mem_cons, or_left_comm]

theorem mem_sortedSet {name : String} {names : List String} :
    name ∈ sortedSet names ↔ name ∈ names := by
  induction names with
  | nil => rfl
  | cons first rest ih =>
    rw [sortedSet, List.foldr_cons, mem_insertSorted, ← sortedSet, ih, List.mem_cons]

theorem insertSorted_increasing {name : String} {names : List String}
    (increasing : names.Pairwise (· < ·)) : (insertSorted name names).Pairwise (· < ·) := by
  induction names with
  | nil => exact List.pairwise_singleton _ _
  | cons first rest ih =>
    obtain ⟨below, restIncreasing⟩ := List.pairwise_cons.mp increasing
    rw [insertSorted]
    split
    next => exact increasing
    next distinct =>
      split
      next before =>
        refine List.pairwise_cons.mpr ⟨fun other mem => ?_, increasing⟩
        rcases List.mem_cons.mp mem with rfl | mem
        · exact before
        · exact String.lt_trans before (below other mem)
      next notBefore =>
        have after : first < name := by grind
        refine List.pairwise_cons.mpr ⟨fun other mem => ?_, ih restIncreasing⟩
        rcases mem_insertSorted.mp mem with rfl | mem
        · exact after
        · exact below other mem

theorem sortedSet_increasing (names : List String) : (sortedSet names).Pairwise (· < ·) := by
  induction names with
  | nil => exact List.Pairwise.nil
  | cons first rest ih => exact insertSorted_increasing ih

/-! ### The condition -/

theorem Text.hasInfixIgnoringCase_iff {piece s : String} :
    hasInfixIgnoringCase piece s = true ↔
      piece ≠ "" ∧ lower piece.toList <:+: lower s.toList := by
  rw [hasInfixIgnoringCase, Bool.and_eq_true, hasInfix_iff]
  simp

namespace Restriction

/-- Some name holds a mark that is not empty, case aside. -/
def Marks (marks names : List String) : Prop :=
  ∃ name ∈ names, ∃ mark ∈ marks,
    mark ≠ "" ∧ Text.lower mark.toList <:+: Text.lower name.toList

/-- The surroundings are those of a call in a method that has a restricted name, ASCII case aside, or
an attribute with a mark, or `update` in its name, case aside, in a type with a marked interface. -/
def CoversSite (restriction : Restriction) (site : CallSite) : Prop :=
  ∃ method, site.method = some method ∧
    ((∃ name ∈ restriction.names, name.toList.map Char.toLower = method.toList.map Char.toLower) ∨
      Marks restriction.attributeMarks site.attributes ∨
      ("update".toList <:+: Text.lower method.toList ∧
        Marks restriction.interfaceMarks site.interfaces))

theorem marks_sortedSet {marks names : List String} :
    Marks marks (sortedSet names) ↔ Marks marks names := by
  simp only [Marks, mem_sortedSet]

theorem hasName_iff {restriction : Restriction} {method : String} :
    restriction.hasName method = true ↔
      ∃ name ∈ restriction.names,
        name.toList.map Char.toLower = method.toList.map Char.toLower := by
  simp only [hasName, Text.equalIgnoringAsciiCase, List.any_eq_true, beq_iff_eq]

theorem holdsMark_iff {marks names : List String} :
    holdsMark marks names = true ↔ Marks marks names := by
  simp only [holdsMark, Marks, List.any_eq_true, Text.hasInfixIgnoringCase_iff]

theorem hasUpdate_iff {method : String} :
    Text.hasInfixIgnoringCase "Update" method = true ↔
      "update".toList <:+: Text.lower method.toList := by
  have lowered : Text.lower "Update".toList = "update".toList := by decide
  rw [Text.hasInfixIgnoringCase_iff, lowered]
  exact and_iff_right (by decide)

/-- **Five conditions come down to three.** An override, an implementation and a message of a component
count only under a restricted name, which counts by itself. -/
theorem covers_iff {restriction : Restriction} {symbols : Symbols} {routine : Routine} :
    restriction.covers symbols routine = true ↔
      restriction.hasName routine.name = true ∨
        holdsMark restriction.attributeMarks routine.attributes = true ∨
        (Text.hasInfixIgnoringCase "Update" routine.name = true ∧
          holdsMark restriction.interfaceMarks
            (implementedInterfaces symbols (typeChain symbols routine.containingType)) = true) := by
  unfold covers
  simp only [Bool.or_eq_true, Bool.and_eq_true]
  by_cases named : restriction.hasName routine.name = true
  · simp only [named, true_or]
  · simp only [named, false_or, and_false, false_and, or_false, Bool.false_eq_true]

end Restriction

/-! ### Walks over the same types -/

section Types

variable {symbols others : Symbols} (types : others.type? = symbols.type?)
include types

theorem typeChainFrom_congr (chain : List String) (next : Option String) :
    typeChainFrom others chain next = typeChainFrom symbols chain next := by
  fun_induction typeChainFrom symbols chain next with
  | case1 chain => exact typeChainFrom_none others chain
  | case2 chain name new ih => rw [typeChainFrom_new new.1 new.2, types, ih]
  | case3 chain name done => exact typeChainFrom_end done

theorem listedInterfaces_congr : listedInterfaces others = listedInterfaces symbols := by
  funext name
  rw [listedInterfaces, listedInterfaces, types]

theorem collectInterfaces_congr (found pending : List String) :
    collectInterfaces others found pending = collectInterfaces symbols found pending := by
  fun_induction collectInterfaces symbols found pending with
  | case1 found => exact collectInterfaces_nil others found
  | case2 found name rest new ih =>
    rw [collectInterfaces_new new.1 new.2, listedInterfaces_congr types, ih]
  | case3 found name rest done ih => rw [collectInterfaces_skip done, ih]

theorem implementedInterfaces_congr (chain : List String) :
    implementedInterfaces others chain = implementedInterfaces symbols chain := by
  rw [implementedInterfaces, implementedInterfaces, listedInterfaces_congr types,
    collectInterfaces_congr types]

end Types

/-- The same symbols with other flags of the routine around each offset: whether it is an override, and
whether it implements a member of an interface. -/
def Symbols.withFlags (symbols : Symbols) (isOverride isInterfaceImpl : Nat → Bool) : Symbols where
  target? := symbols.target?
  routineAt? offset := (symbols.routineAt? offset).map fun routine =>
    { routine with
      isOverride := isOverride offset
      isInterfaceImpl := isInterfaceImpl offset }
  type? := symbols.type?

theorem Symbols.routineAt?_withFlags (symbols : Symbols) (isOverride isInterfaceImpl : Nat → Bool)
    (offset : Nat) :
    (symbols.withFlags isOverride isInterfaceImpl).routineAt? offset =
      (symbols.routineAt? offset).map fun routine =>
        { routine with
          isOverride := isOverride offset
          isInterfaceImpl := isInterfaceImpl offset } :=
  rfl

/-- The attributes around a call are in increasing order, each once. -/
theorem CallSite.attributes_increasing (symbols : Symbols) (call : Call) :
    (ofCall symbols call).attributes.Pairwise (· < ·) := by
  cases found : symbols.routineAt? call.span.start with
  | none =>
    rw [ofCall_outside found]
    exact List.Pairwise.nil
  | some routine =>
    rw [ofCall_inside found]
    exact sortedSet_increasing routine.attributes

/-- The flags of routines show in one place of the surroundings. -/
theorem CallSite.ofCall_withFlags (symbols : Symbols) (isOverride isInterfaceImpl : Nat → Bool)
    (call : Call) :
    ∃ flag, ofCall (symbols.withFlags isOverride isInterfaceImpl) call =
      { ofCall symbols call with isOverrideOrInterfaceImpl := flag } := by
  have types : (symbols.withFlags isOverride isInterfaceImpl).type? = symbols.type? := rfl
  cases found : symbols.routineAt? call.span.start with
  | none =>
    have outside : (symbols.withFlags isOverride isInterfaceImpl).routineAt? call.span.start =
        none := by
      rw [Symbols.routineAt?_withFlags, found, Option.map_none]
    exact ⟨false, by rw [ofCall_outside outside, ofCall_outside found]⟩
  | some routine =>
    have inside : (symbols.withFlags isOverride isInterfaceImpl).routineAt? call.span.start =
        some { routine with
          isOverride := isOverride call.span.start
          isInterfaceImpl := isInterfaceImpl call.span.start } := by
      rw [Symbols.routineAt?_withFlags, found, Option.map_some]
    refine ⟨isOverride call.span.start || isInterfaceImpl call.span.start, ?_⟩
    rw [ofCall_inside inside, ofCall_inside found, ScriptLint.typeChain, ScriptLint.typeChain,
      typeChainFrom_congr types, implementedInterfaces_congr types]

/-! ### The verdict -/

theorem isRestricted_iff_coversSite (symbols : Symbols) (restriction : Restriction) (call : Call) :
    isRestricted symbols restriction call = true ↔
      restriction.CoversSite (CallSite.ofCall symbols call) := by
  rw [isRestricted, Restriction.CoversSite]
  cases found : symbols.routineAt? call.span.start with
  | none =>
    rw [CallSite.ofCall_outside found]
    simp
  | some routine =>
    rw [CallSite.ofCall_inside found]
    simp only [Restriction.covers_iff, Restriction.hasName_iff, Restriction.holdsMark_iff,
      Restriction.hasUpdate_iff, Restriction.marks_sortedSet, Option.some.injEq, exists_eq_left']

/-- **A restriction depends on the surroundings of a call alone.** For all symbols, restrictions and
calls, the call stands in a routine that runs every frame exactly if its surroundings are covered. So
the verdict is the same whatever base class of components the restriction has, and whatever the flags
of the routine around the call are. -/
theorem isRestricted_of_site (symbols : Symbols) (restriction : Restriction) (call : Call) :
    (isRestricted symbols restriction call = true ↔
      restriction.CoversSite (CallSite.ofCall symbols call)) ∧
    ∀ (componentType : String) (isOverride isInterfaceImpl : Nat → Bool),
      isRestricted (symbols.withFlags isOverride isInterfaceImpl)
          { restriction with componentType } call =
        isRestricted symbols restriction call := by
  refine ⟨isRestricted_iff_coversSite symbols restriction call, ?_⟩
  intro componentType isOverride isInterfaceImpl
  obtain ⟨flag, site⟩ := CallSite.ofCall_withFlags symbols isOverride isInterfaceImpl call
  rw [Bool.eq_iff_iff, isRestricted_iff_coversSite, isRestricted_iff_coversSite, site]
  -- Neither the flag nor the base class of components occurs in the condition.
  exact Iff.rfl

end ScriptLint
