/-
**The walk, step by step.**

The walk through a tree enters its nodes one after the other, each in a context: the nodes around it,
the namespace and the type it stands in, and its place among statements.

* `Context.own?` — what the walk finds at a node itself; `Context.inside`, `Context.behind` — the context
  of the nodes below a node, and behind some of them.
* `visit_facts`, `visit_home` — the walk through a node is what is found at it and then the walk
  through the nodes below.
* `Enters` — the walk through a tree enters a node in a context.
* `Enters.source` — all that is found below an entered node is found at some entered node.
* `Paired`, `Enters.paired` — the calls that the walk finds and the shapes that it keeps are those of the
  same nodes, in the same order.
* `factsOf`, `types_ofTree` and so on — an outline holds what the walk finds.
-/

import Mathlib.Data.List.Basic
import Mathlib.Data.List.Induction
import Mathlib.Tactic.SplitIfs
import ScriptLint.Outline.Extract
import ScriptLint.Proofs.Source.Nesting

namespace ScriptLint.Outline

open Source

namespace Fact

/-- The part of the text that a finding is about. -/
def span : Fact → Span
  | directive found _ => found.span
  | call found => found.span
  | routine found => found.span
  | type found => found.span
  | scope found => found.span

def type? : Fact → Option TypeDecl
  | type found => some found
  | _ => none

def routine? : Fact → Option RoutineDecl
  | routine found => some found
  | _ => none

def scope? : Fact → Option NamespaceScope
  | scope found => some found
  | _ => none

def call? : Fact → Option Call
  | call found => some found
  | _ => none

variable {fact : Fact}

theorem span_of_type? {found : TypeDecl} (isType : fact.type? = some found) :
    fact.span = found.span := by
  cases fact <;> cases isType
  rfl

theorem span_of_scope? {found : NamespaceScope} (isScope : fact.scope? = some found) :
    fact.span = found.span := by
  cases fact <;> cases isScope
  rfl

end Fact

/-- Where the walk stands when it enters a node. -/
structure Context where
  /-- The nodes around, the nearest first. -/
  around : List Tree
  home : Option String
  owner : Option String
  place : Place

namespace Context

/-- Where the walk begins. -/
def start : Context :=
  ⟨[], none, none, .elsewhere⟩

/-- The walk through a node. -/
def visit (text : List Char) (context : Context) (tree : Tree) : Harvest :=
  Outline.visit text context.home context.owner context.place tree

/-- The walk through neighbouring nodes. -/
def visitAll (text : List Char) (context : Context) (trees : List Tree) : Harvest :=
  Outline.visitAll text context.home context.owner context.place trees

/-- Where the walk stands right below a node. -/
def inside (text : List Char) (context : Context) (tree : Tree) : Context where
  around := tree :: context.around
  home := if tree.kind.isNamespace then
      (scopeName? text context.home tree.children).or context.home
    else context.home
  owner := if tree.kind.isType then
      ((declaredName? text tree.children).map (Name.qualify (context.owner.or context.home))).or
        context.owner
    else context.owner
  place := context.place.below tree.kind tree.span

/-- Where the walk stands behind some neighbouring nodes. -/
def behind (text : List Char) (context : Context) (trees : List Tree) : Context :=
  { context with home := (context.visitAll text trees).home }

/-- What the walk finds at a node itself. -/
def own? (text : List Char) (context : Context) (tree : Tree) : Option Fact :=
  if tree.kind = .usingDirective then
    importFact? text tree.span tree.children
  else if tree.kind = .namespaceBlock then
    (scopeName? text context.home tree.children).map fun name => .scope ⟨name, tree.span⟩
  else if tree.kind = .namespaceLine then
    (scopeName? text context.home tree.children).map fun name =>
      .scope ⟨name, ⟨tree.span.start, Text.size text⟩⟩
  else if tree.kind.isType then
    (declaredName? text tree.children).map fun simple =>
      .type {
        name := Name.qualify (context.owner.or context.home) simple
        home := context.home
        span := tree.span
        isInterface := tree.kind == .interfaceDeclaration
        bases := basesOf text tree.children
        methods := ((context.inside text tree).visitAll text tree.children).methods }
  else if tree.kind = .routine then
    (routineDecl? text context.owner tree.span tree.children).map .routine
  else
    (callOf? text context.place tree.kind tree.span tree.children).map (.call ·.toCall)

variable {text : List Char} {context : Context} {tree : Tree}

theorem visit_facts (notUsing : tree.kind ≠ .usingDirective) :
    (context.visit text tree).facts = (context.own? text tree).toList ++
      ((context.inside text tree).visitAll text tree.children).facts := by
  obtain ⟨kind, span, children⟩ := tree
  cases kind
  case usingDirective => exact absurd rfl notUsing
  case namespaceBlock | namespaceLine =>
    cases named : scopeName? text context.home children <;>
      simp [visit, visitAll, inside, own?, Outline.visit, Kind.isNamespace, Kind.isType, named]
  case typeDeclaration | interfaceDeclaration =>
    cases named : declaredName? text children <;>
      simp [visit, visitAll, inside, own?, Outline.visit, Kind.isNamespace, Kind.isType, named]
  case routine =>
    cases named : routineDecl? text context.owner span children <;>
      simp [visit, visitAll, inside, own?, Outline.visit, Kind.isNamespace, Kind.isType, named]
  all_goals
    simp [visit, visitAll, inside, own?, Outline.visit, Kind.isNamespace, Kind.isType,
      Option.toList_map]

/-- The shape of the call at a node comes before those of the calls below it. -/
theorem visit_shapes (notUsing : tree.kind ≠ .usingDirective) :
    (context.visit text tree).shapes =
      ((callOf? text context.place tree.kind tree.span tree.children).map (·.shape)).toList ++
        ((context.inside text tree).visitAll text tree.children).shapes := by
  obtain ⟨kind, span, children⟩ := tree
  cases kind
  case usingDirective => exact absurd rfl notUsing
  case namespaceBlock | namespaceLine =>
    cases named : scopeName? text context.home children <;>
      simp [visit, visitAll, inside, callOf?, Outline.visit, Kind.isNamespace, Kind.isType, named]
  case typeDeclaration | interfaceDeclaration =>
    cases named : declaredName? text children <;>
      simp [visit, visitAll, inside, callOf?, Outline.visit, Kind.isNamespace, Kind.isType, named]
  case routine =>
    cases named : routineDecl? text context.owner span children <;>
      simp [visit, visitAll, inside, callOf?, Outline.visit, Kind.isNamespace, Kind.isType, named]
  all_goals
    simp [visit, visitAll, inside, Outline.visit, Kind.isNamespace, Kind.isType, Option.toList_map]

theorem visit_using (isUsing : tree.kind = .usingDirective) :
    (context.visit text tree).facts = (context.own? text tree).toList ∧
      (context.visit text tree).shapes = [] := by
  obtain ⟨kind, span, children⟩ := tree
  cases isUsing
  simp [visit, own?, Outline.visit]

/-- A namespace with a body is closed behind it; what stays open below any other node does so behind
it. -/
theorem visit_home : (context.visit text tree).home =
    if tree.kind = .usingDirective ∨ tree.kind = .namespaceBlock then context.home
    else ((context.inside text tree).visitAll text tree.children).home := by
  obtain ⟨kind, span, children⟩ := tree
  cases kind
  case namespaceBlock | namespaceLine =>
    cases named : scopeName? text context.home children <;>
      simp [visit, visitAll, inside, Outline.visit, Kind.isNamespace, Kind.isType, named]
  case typeDeclaration | interfaceDeclaration =>
    cases named : declaredName? text children <;>
      simp [visit, visitAll, inside, Outline.visit, Kind.isNamespace, Kind.isType, named]
  case routine =>
    cases named : routineDecl? text context.owner span children <;>
      simp [visit, visitAll, inside, Outline.visit, Kind.isNamespace, Kind.isType, named]
  all_goals
    simp [visit, visitAll, inside, Outline.visit, Kind.isNamespace, Kind.isType]

theorem visitAll_nil : context.visitAll text [] = ⟨[], [], [], context.home⟩ := by
  simp [visitAll, Outline.visitAll]

theorem visitAll_append_facts {earlier later : List Tree} :
    (context.visitAll text (earlier ++ later)).facts = (context.visitAll text earlier).facts ++
      ((context.behind text earlier).visitAll text later).facts := by
  induction earlier generalizing context with
  | nil => simp [visitAll, behind, Outline.visitAll]
  | cons tree more ih =>
    have step := @ih (context.behind text [tree])
    simp only [visitAll, behind, Outline.visitAll, List.cons_append, List.append_assoc] at step ⊢
    rw [step]

theorem visitAll_append_shapes {earlier later : List Tree} :
    (context.visitAll text (earlier ++ later)).shapes = (context.visitAll text earlier).shapes ++
      ((context.behind text earlier).visitAll text later).shapes := by
  induction earlier generalizing context with
  | nil => simp [visitAll, behind, Outline.visitAll]
  | cons tree more ih =>
    have step := @ih (context.behind text [tree])
    simp only [visitAll, behind, Outline.visitAll, List.cons_append, List.append_assoc] at step ⊢
    rw [step]

theorem visitAll_append_home {earlier later : List Tree} :
    (context.visitAll text (earlier ++ later)).home =
      ((context.behind text earlier).visitAll text later).home := by
  induction earlier generalizing context with
  | nil => simp [visitAll, behind, Outline.visitAll]
  | cons tree more ih =>
    have step := @ih (context.behind text [tree])
    simp only [visitAll, behind, Outline.visitAll, List.cons_append] at step ⊢
    rw [step]

theorem behind_append {earlier later : List Tree} :
    context.behind text (earlier ++ later) = (context.behind text earlier).behind text later := by
  unfold behind
  rw [visitAll_append_home]
  rfl

theorem visitAll_singleton : (context.visitAll text [tree]).facts = (context.visit text tree).facts ∧
    (context.visitAll text [tree]).shapes = (context.visit text tree).shapes ∧
    (context.visitAll text [tree]).home = (context.visit text tree).home := by
  simp [visitAll, visit, Outline.visitAll]

/-- What is found in neighbouring nodes is found in one of them. -/
theorem mem_visitAll_facts {trees : List Tree} {fact : Fact}
    (found : fact ∈ (context.visitAll text trees).facts) :
    ∃ earlier child later, trees = earlier ++ child :: later ∧
      fact ∈ ((context.behind text earlier).visit text child).facts := by
  induction trees using List.reverseRecOn with
  | nil =>
    rw [visitAll_nil] at found
    cases found
  | append_singleton trees last ih =>
    rw [visitAll_append_facts, visitAll_singleton.1] at found
    rcases List.mem_append.mp found with found | found
    · obtain ⟨earlier, child, later, split, found⟩ := ih found
      exact ⟨earlier, child, later ++ [last], by rw [split]; simp, found⟩
    · exact ⟨trees, last, [], rfl, found⟩

end Context

/-! ### What is found at a node -/

/-- What a finding at a node says of the node. -/
inductive Finding (text : List Char) (context : Context) (tree : Tree) : Fact → Prop
  | directive {found : Import} {isGlobal : Bool} (isUsing : tree.kind = .usingDirective)
      (spanned : found.span = tree.span) : Finding text context tree (.directive found isGlobal)
  | block {name : String} (isBlock : tree.kind = .namespaceBlock)
      (named : scopeName? text context.home tree.children = some name) :
      Finding text context tree (.scope ⟨name, tree.span⟩)
  | line {name : String} (isLine : tree.kind = .namespaceLine)
      (named : scopeName? text context.home tree.children = some name) :
      Finding text context tree (.scope ⟨name, ⟨tree.span.start, Text.size text⟩⟩)
  | type {found : TypeDecl} {simple : String} (isType : tree.kind.isType = true)
      (named : declaredName? text tree.children = some simple)
      (name_eq : found.name = Name.qualify (context.owner.or context.home) simple)
      (home_eq : found.home = context.home) (spanned : found.span = tree.span) :
      Finding text context tree (.type found)
  | routine {found : RoutineDecl} (isRoutine : tree.kind = .routine)
      (declared : routineDecl? text context.owner tree.span tree.children = some found) :
      Finding text context tree (.routine found)
  | call {found : Call} (isCall : tree.kind.isCall = true) (spanned : found.span = tree.span) :
      Finding text context tree (.call found)

variable {text : List Char} {context : Context} {tree : Tree} {fact : Fact}

theorem isCall_of_callOf? {place : Place} {kind : Kind} {span : Span} {children : List Tree}
    {found : ShapedCall} (isCall : callOf? text place kind span children = some found) :
    kind.isCall = true ∧ found.span = span := by
  unfold callOf? at isCall
  split at isCall
  all_goals
    cases isCall
  all_goals
    exact ⟨rfl, rfl⟩

theorem finding_of_own? (own : context.own? text tree = some fact) :
    Finding text context tree fact := by
  unfold Context.own? at own
  split_ifs at own with isUsing isBlock isLine isType isRoutine
  · obtain ⟨target, -, rest⟩ := Option.bind_eq_some_iff.mp own
    cases rest
    exact .directive isUsing rfl
  · obtain ⟨name, named, rfl⟩ := Option.map_eq_some_iff.mp own
    exact .block isBlock named
  · obtain ⟨name, named, rfl⟩ := Option.map_eq_some_iff.mp own
    exact .line isLine named
  · obtain ⟨simple, named, rfl⟩ := Option.map_eq_some_iff.mp own
    exact .type isType named rfl rfl rfl
  · obtain ⟨decl, declared, rfl⟩ := Option.map_eq_some_iff.mp own
    exact .routine isRoutine declared
  · obtain ⟨found, isCall, rfl⟩ := Option.map_eq_some_iff.mp own
    exact .call (isCall_of_callOf? isCall).1 (isCall_of_callOf? isCall).2

theorem span_of_routineDecl? {owner : Option String} {span : Span} {children : List Tree}
    {found : RoutineDecl} (declared : routineDecl? text owner span children = some found) :
    found.span = span ∧ found.containingType = owner := by
  obtain ⟨name, -, rest⟩ := Option.bind_eq_some_iff.mp declared
  cases rest
  exact ⟨rfl, rfl⟩

/-- The finding at a node is about its span; that of a namespace without a body reaches to the end of
the text. -/
theorem Finding.span_eq (finding : Finding text context tree fact) :
    fact.span = tree.span ∨ tree.kind = .namespaceLine ∧ fact.scope?.isSome = true ∧
      fact.span = ⟨tree.span.start, Text.size text⟩ := by
  cases finding with
  | directive _ spanned => exact .inl spanned
  | block => exact .inl rfl
  | line isLine => exact .inr ⟨isLine, rfl, rfl⟩
  | type _ _ _ _ spanned => exact .inl spanned
  | routine _ declared => exact .inl (span_of_routineDecl? declared).1
  | call _ spanned => exact .inl spanned

theorem Finding.start_eq (finding : Finding text context tree fact) :
    fact.span.start = tree.span.start := by
  rcases finding.span_eq with same | ⟨-, -, reaching⟩
  · rw [same]
  · rw [reaching]

/-- The span of the type that a node declares. -/
def typeSpan? (text : List Char) (tree : Tree) : Option Span :=
  if tree.kind.isType then (declaredName? text tree.children).map fun _ => tree.span else none

/-- The routine that a node declares, with its type left out. -/
def declaredRoutine? (text : List Char) (tree : Tree) : Option RoutineDecl :=
  if tree.kind = .routine then routineDecl? text none tree.span tree.children else none

/-- A routine with its type left out. -/
def withoutOwner (found : RoutineDecl) : RoutineDecl :=
  { found with containingType := none }

namespace Context

theorem importFact?_eq_some {span : Span} {children : List Tree}
    (own : importFact? text span children = some fact) :
    ∃ found isGlobal, fact = .directive found isGlobal := by
  obtain ⟨target, -, rest⟩ := Option.bind_eq_some_iff.mp own
  cases rest
  exact ⟨_, _, rfl⟩

theorem routineDecl?_withoutOwner {owner : Option String} {span : Span} {children : List Tree} :
    (routineDecl? text owner span children).map withoutOwner =
      routineDecl? text none span children := by
  unfold routineDecl?
  cases declaredName? text children <;> rfl

/-- What the finding at a node tells: the namespace and the type that the nodes below stand in, and the
type, the routine or the call that the node is. -/
structure Tells (text : List Char) (context : Context) (tree : Tree) (own : Option Fact) : Prop where
  home : (context.inside text tree).home = ((own.bind Fact.scope?).map (·.name)).or context.home
  owner : (context.inside text tree).owner = ((own.bind Fact.type?).map (·.name)).or context.owner
  type : (own.bind Fact.type?).map (·.span) = typeSpan? text tree
  routine : (own.bind Fact.routine?).map withoutOwner = declaredRoutine? text tree
  call : own.bind Fact.call? =
    (callOf? text context.place tree.kind tree.span tree.children).map (·.toCall)

theorem own?_tells : context.Tells text tree (context.own? text tree) := by
  unfold own?
  split_ifs with isUsing isBlock isLine isType isRoutine
  · cases own : importFact? text tree.span tree.children with
    | none => constructor <;> simp [inside, typeSpan?, declaredRoutine?, callOf?, Kind.isNamespace,
        Kind.isType, isUsing]
    | some fact =>
      obtain ⟨found, isGlobal, rfl⟩ := importFact?_eq_some own
      constructor <;> simp [inside, typeSpan?, declaredRoutine?, callOf?, Kind.isNamespace,
        Kind.isType, Fact.scope?, Fact.type?, Fact.routine?, Fact.call?, isUsing]
  · cases named : scopeName? text context.home tree.children <;> constructor <;>
      simp [inside, typeSpan?, declaredRoutine?, callOf?, Kind.isNamespace, Kind.isType, Fact.scope?,
        Fact.type?, Fact.routine?, Fact.call?, isBlock, named]
  · cases named : scopeName? text context.home tree.children <;> constructor <;>
      simp [inside, typeSpan?, declaredRoutine?, callOf?, Kind.isNamespace, Kind.isType, Fact.scope?,
        Fact.type?, Fact.routine?, Fact.call?, isLine, named]
  · have isKind : tree.kind = .typeDeclaration ∨ tree.kind = .interfaceDeclaration := by
      simpa [Kind.isType] using isType
    rcases isKind with isKind | isKind
    all_goals
      cases named : declaredName? text tree.children <;> constructor <;>
        simp [inside, typeSpan?, declaredRoutine?, callOf?, Kind.isNamespace, Kind.isType,
          Fact.scope?, Fact.type?, Fact.routine?, Fact.call?, isKind, named]
  · have same := @routineDecl?_withoutOwner text context.owner tree.span tree.children
    cases declared : routineDecl? text context.owner tree.span tree.children <;>
      rw [declared] at same <;> constructor <;>
      simp [inside, typeSpan?, declaredRoutine?, callOf?, Kind.isNamespace, Kind.isType, Fact.scope?,
        Fact.type?, Fact.routine?, Fact.call?, isRoutine, ← same]
  · cases isCall : callOf? text context.place tree.kind tree.span tree.children <;> constructor <;>
      simp [inside, typeSpan?, declaredRoutine?, Kind.isNamespace, Fact.scope?, Fact.type?,
        Fact.routine?, Fact.call?, isBlock, isLine, isType, isRoutine, isCall]

end Context

/-! ### Entered nodes -/

/-- The walk through a tree enters a node in a context. -/
inductive Enters (text : List Char) (root : Tree) : Context → Tree → Prop
  | root : Enters text root .start root
  | child {context : Context} {tree child : Tree} {earlier later : List Tree}
      (entered : Enters text root context tree) (notUsing : tree.kind ≠ .usingDirective)
      (split : tree.children = earlier ++ child :: later) :
      Enters text root ((context.inside text tree).behind text earlier) child

namespace Enters

variable {root : Tree}

/-- What is found below a node is found at some node that the walk enters there. -/
theorem source_below (entered : Enters text root context tree)
    (notUsing : tree.kind ≠ .usingDirective)
    (found : fact ∈ ((context.inside text tree).visitAll text tree.children).facts) :
    ∃ inner node, Enters text root inner node ∧ tree :: context.around <:+ inner.around ∧
      inner.own? text node = some fact := by
  induction tree using Tree.below_induction generalizing context with
  | step tree ih =>
    obtain ⟨earlier, child, later, split, found⟩ := Context.mem_visitAll_facts found
    have step := Enters.child entered notUsing split
    by_cases isUsing : child.kind = .usingDirective
    · rw [(Context.visit_using isUsing).1] at found
      exact ⟨_, child, step, List.suffix_refl _, Option.mem_toList.mp found⟩
    · rw [Context.visit_facts isUsing] at found
      rcases List.mem_append.mp found with found | found
      · exact ⟨_, child, step, List.suffix_refl _, Option.mem_toList.mp found⟩
      · obtain ⟨inner, node, enters, suffix, own⟩ := ih child (by simp [split]) step isUsing found
        exact ⟨inner, node, enters, (List.suffix_cons _ _).trans suffix, own⟩

/-- **What is found in a node** is found at the node or at a node that the walk enters below it. -/
theorem source (entered : Enters text root context tree)
    (found : fact ∈ (context.visit text tree).facts) :
    context.own? text tree = some fact ∨
      ∃ inner node, Enters text root inner node ∧ tree :: context.around <:+ inner.around ∧
        inner.own? text node = some fact := by
  by_cases isUsing : tree.kind = .usingDirective
  · rw [(Context.visit_using isUsing).1] at found
    exact .inl (Option.mem_toList.mp found)
  · rw [Context.visit_facts isUsing] at found
    exact (List.mem_append.mp found).imp Option.mem_toList.mp (entered.source_below isUsing)

/-- The calls and the shapes that the walk brings back are those of nodes it enters, in the same
order. -/
def Paired (text : List Char) (root : Tree) (harvest : Harvest) : Prop :=
  ∃ found : List ShapedCall, harvest.facts.filterMap Fact.call? = found.map (·.toCall) ∧
    harvest.shapes = found.map (·.shape) ∧
    ∀ call ∈ found, ∃ context tree, Enters text root context tree ∧
      callOf? text context.place tree.kind tree.span tree.children = some call

theorem paired_along (entered : Enters text root context tree) (notUsing : tree.kind ≠ .usingDirective)
    {earlier later : List Tree} (split : tree.children = earlier ++ later)
    (each : ∀ child ∈ earlier, ∀ inner, Enters text root inner child →
      Paired text root (inner.visit text child)) :
    Paired text root ((context.inside text tree).visitAll text earlier) := by
  induction earlier using List.reverseRecOn generalizing later with
  | nil => exact ⟨[], by simp [Context.visitAll_nil]⟩
  | append_singleton earlier child along =>
    have cut : tree.children = earlier ++ child :: later := by rw [split]; simp
    obtain ⟨before, calls, shapes, ofBefore⟩ :=
      along cut fun child member => each child (List.mem_append_left _ member)
    obtain ⟨last, lastCalls, lastShapes, ofLast⟩ :=
      each child (by simp) _ (.child entered notUsing cut)
    refine ⟨before ++ last, ?_, ?_, fun call member => ?_⟩
    · rw [Context.visitAll_append_facts, Context.visitAll_singleton.1, List.filterMap_append, calls,
        lastCalls, List.map_append]
    · rw [Context.visitAll_append_shapes, Context.visitAll_singleton.2.1, shapes, lastShapes,
        List.map_append]
    · exact (List.mem_append.mp member).elim (ofBefore call) (ofLast call)

/-- **The walk keeps a shape for every call it finds**: that of the same node, at the same place. -/
theorem paired (entered : Enters text root context tree) :
    Paired text root (context.visit text tree) := by
  induction tree using Tree.below_induction generalizing context with
  | step tree ih =>
    have own := (@Context.own?_tells text context tree).call
    by_cases isUsing : tree.kind = .usingDirective
    · refine ⟨[], ?_, (Context.visit_using isUsing).2, by simp⟩
      rw [isUsing] at own
      rw [(Context.visit_using isUsing).1]
      cases found : context.own? text tree <;> simp_all [callOf?]
    · obtain ⟨below, calls, shapes, each⟩ := entered.paired_along isUsing
        (List.append_nil tree.children).symm fun child below inner enters => ih child below enters
      refine ⟨(callOf? text context.place tree.kind tree.span tree.children).toList ++ below,
        ?_, ?_, fun call member => ?_⟩
      · rw [Context.visit_facts isUsing, List.filterMap_append, calls, List.map_append,
          ← Option.toList_map, ← own]
        cases found : context.own? text tree with
        | none => rfl
        | some fact => cases isCall : fact.call? <;> simp [isCall]
      · rw [Context.visit_shapes isUsing, shapes, Option.toList_map, List.map_append]
      · rcases List.mem_append.mp member with isOwn | isBelow
        · exact ⟨context, tree, entered, Option.mem_toList.mp isOwn⟩
        · exact each call isBelow

theorem visited (entered : Enters text root context tree) :
    ⟨context.around, tree⟩ ∈ root.visited [] := by
  induction entered with
  | root => exact Tree.mem_visited_self [] root
  | child entered notUsing split ih =>
    refine Tree.mem_visited_child ih notUsing ?_
    rw [split]
    exact List.mem_append_right _ List.mem_cons_self

end Enters

/-! ### Outlines -/

/-- All that the walk through a tree finds. -/
def factsOf (text : List Char) (root : Tree) : List Fact :=
  (Context.start.visit text root).facts

/-- Whatever is found is found at an entered node. -/
theorem Enters.exists_own {root : Tree} (found : fact ∈ factsOf text root) :
    ∃ context tree, Enters text root context tree ∧ context.own? text tree = some fact := by
  rcases Enters.root.source found with own | ⟨context, tree, entered, -, own⟩
  · exact ⟨_, _, .root, own⟩
  · exact ⟨context, tree, entered, own⟩

theorem types_ofTree (source : String) (root : Tree) :
    (ofTree source root).types = (factsOf source.toList root).filterMap Fact.type? := by
  refine List.filterMap_congr fun fact _ => ?_
  cases fact <;> rfl

theorem namespaces_ofTree (source : String) (root : Tree) :
    (ofTree source root).namespaces = (factsOf source.toList root).filterMap Fact.scope? := by
  refine List.filterMap_congr fun fact _ => ?_
  cases fact <;> rfl

/-- The calls that the walk through a tree finds. -/
def callsOf (text : List Char) (root : Tree) : List Call :=
  (factsOf text root).filterMap Fact.call?

/-- The shapes that the walk through a tree keeps. -/
def shapesOf (text : List Char) (root : Tree) : List CallShape :=
  (Context.start.visit text root).shapes

theorem calls_ofTree (source : String) (root : Tree) :
    (ofTree source root).calls =
      (callsOf source.toList root).zipWith ShapedCall.mk (shapesOf source.toList root) := by
  refine congrArg (List.zipWith ShapedCall.mk · _) (List.filterMap_congr fun fact _ => ?_)
  cases fact <;> rfl

/-- **No call and no shape is lost or moved**: an outline has all that the walk finds and keeps, each
call with the shape of its own node. -/
theorem calls_ofTree_paired (source : String) (root : Tree) :
    (ofTree source root).nodes.calls = callsOf source.toList root ∧
      (ofTree source root).calls.map (·.shape) = shapesOf source.toList root ∧
      ∀ call ∈ (ofTree source root).calls, ∃ context tree, Enters source.toList root context tree ∧
        callOf? source.toList context.place tree.kind tree.span tree.children = some call := by
  obtain ⟨found, calls, shapes, each⟩ := (@Enters.root source.toList root).paired
  have found_eq : (ofTree source root).calls = found := by
    rw [calls_ofTree, callsOf, factsOf, calls, shapesOf, shapes, List.zipWith_map]
    exact (List.zipWith_self ..).trans (List.map_id found)
  rw [nodes, found_eq]
  exact ⟨calls.symm, shapes.symm, each⟩

end ScriptLint.Outline
