/-
**How the nodes of a tree lie to each other.**

* `Tree.visited` — the nodes that a walk enters, each with the nodes around it. A using directive is
  not entered.
* `Occurrence.Nested` — children lie inside their parent and one after the other, and what opens a
  namespace or a type starts later than the namespaces and types around it.
* `Occurrence.Grammatical` — what the grammar adds to this: types, routines and calls are not empty, no
  routine starts with a type and no call with a routine, and a routine is not all there is in another.
* `Tree.Nested`, `Tree.Grammatical` — so for every node.
* `Tree.below_induction`, `Tree.mem_visited_iff` — from the nodes right below to a node.
-/

import Mathlib.Data.List.Basic
import ScriptLint.Source.Tree

namespace ScriptLint.Source

namespace Kind

/-- Classes, structs, records and interfaces. -/
def isType (kind : Kind) : Bool :=
  kind == typeDeclaration || kind == interfaceDeclaration

/-- Namespaces, with a body or without. -/
def isNamespace (kind : Kind) : Bool :=
  kind == namespaceBlock || kind == namespaceLine

/-- Calls, constructions and queries. -/
def isCall (kind : Kind) : Bool :=
  kind == invocation || kind == construction || kind == query

/-- Both open a namespace or a type. -/
def isApart (outer inner : Kind) : Bool :=
  (outer.isType || outer.isNamespace) && (inner.isType || inner.isNamespace)

/-- A type in a routine, or a routine in a call. -/
def isLed (outer inner : Kind) : Bool :=
  (outer == routine && inner.isType) || (outer.isCall && inner == routine)

/-- Kinds whose nodes hold at least one token. -/
def isSolid (kind : Kind) : Bool :=
  kind.isType || kind == routine || kind.isCall

end Kind

/-- A node of a tree, with the nodes around it, the nearest first. -/
structure Occurrence where
  around : List Tree
  node : Tree

/-- The spans at a node are nested and in order. -/
structure Occurrence.Nested (found : Occurrence) : Prop where
  ordered : found.node.span.start ≤ found.node.span.stop
  inside : ∀ child ∈ found.node.children, found.node.span.covers child.span = true
  inOrder : found.node.children.Pairwise fun a b => a.span.stop ≤ b.span.start
  apart : ∀ outer ∈ found.around, outer.kind.isApart found.node.kind = true →
    outer.span.start < found.node.span.start

/-- What holds at a node by the grammar. -/
structure Occurrence.Grammatical (found : Occurrence) : Prop where
  solid : found.node.kind.isSolid = true → found.node.span.start < found.node.span.stop
  led : ∀ outer ∈ found.around, outer.kind.isLed found.node.kind = true →
    outer.span.start < found.node.span.start
  proper : found.node.kind = .routine → ∀ outer ∈ found.around, outer.kind = .routine →
    found.node.span ≠ outer.span

instance (found : Occurrence) : Decidable found.Nested :=
  decidable_of_iff (found.node.span.start ≤ found.node.span.stop ∧
      (∀ child ∈ found.node.children, found.node.span.covers child.span = true) ∧
      (found.node.children.Pairwise fun a b => a.span.stop ≤ b.span.start) ∧
      ∀ outer ∈ found.around, outer.kind.isApart found.node.kind = true →
        outer.span.start < found.node.span.start)
    ⟨fun ⟨ordered, inside, inOrder, apart⟩ => ⟨ordered, inside, inOrder, apart⟩,
      fun ⟨ordered, inside, inOrder, apart⟩ => ⟨ordered, inside, inOrder, apart⟩⟩

instance (found : Occurrence) : Decidable found.Grammatical :=
  decidable_of_iff ((found.node.kind.isSolid = true → found.node.span.start < found.node.span.stop) ∧
      (∀ outer ∈ found.around, outer.kind.isLed found.node.kind = true →
        outer.span.start < found.node.span.start) ∧
      (found.node.kind = .routine → ∀ outer ∈ found.around, outer.kind = .routine →
        found.node.span ≠ outer.span))
    ⟨fun ⟨solid, led, proper⟩ => ⟨solid, led, proper⟩,
      fun ⟨solid, led, proper⟩ => ⟨solid, led, proper⟩⟩

namespace Tree

@[simp] theorem kind_node {kind : Kind} {span : Span} {children : List Tree} :
    (node kind span children).kind = kind := rfl

@[simp] theorem span_node {kind : Kind} {span : Span} {children : List Tree} :
    (node kind span children).span = span := rfl

@[simp] theorem children_node {kind : Kind} {span : Span} {children : List Tree} :
    (node kind span children).children = children := rfl

mutual

/-- The nodes that a walk enters, outer ones first. -/
def visited (around : List Tree) : Tree → List Occurrence
  | node kind span children =>
    ⟨around, node kind span children⟩ ::
      if kind = .usingDirective then [] else visitedAll (node kind span children :: around) children

/-- The nodes that a walk through neighbouring nodes enters. -/
def visitedAll (around : List Tree) : List Tree → List Occurrence
  | [] => []
  | tree :: more => tree.visited around ++ visitedAll around more

end

/-- The spans of the tree are nested and in order. -/
def Nested (tree : Tree) : Prop :=
  ∀ found ∈ tree.visited [], found.Nested

/-- The tree has the shape that the grammar gives. -/
def Grammatical (tree : Tree) : Prop :=
  ∀ found ∈ tree.visited [], found.Grammatical

/-- No namespace with a body holds one without. -/
def LinesOutside (tree : Tree) : Prop :=
  ∀ found ∈ tree.visited [], found.node.kind = .namespaceLine →
    ∀ outer ∈ found.around, outer.kind ≠ .namespaceBlock

instance (tree : Tree) : Decidable tree.Nested :=
  inferInstanceAs (Decidable (∀ found ∈ tree.visited [], found.Nested))

instance (tree : Tree) : Decidable tree.Grammatical :=
  inferInstanceAs (Decidable (∀ found ∈ tree.visited [], found.Grammatical))

instance (tree : Tree) : Decidable tree.LinesOutside :=
  inferInstanceAs (Decidable (∀ found ∈ tree.visited [], _ → ∀ outer ∈ found.around, _))

/-- Induction over trees: what passes from the nodes right below to a node holds of all trees. -/
theorem below_induction {P : Tree → Prop}
    (step : ∀ tree, (∀ child ∈ tree.children, P child) → P tree) (tree : Tree) : P tree := by
  refine @Tree.rec P (fun trees => ∀ child ∈ trees, P child) ?_ ?_ ?_ tree
  · intro kind span children below
    exact step (node kind span children) below
  · intro child member
    cases member
  · intro first more ofFirst ofMore child member
    rcases List.mem_cons.mp member with rfl | member
    · exact ofFirst
    · exact ofMore child member

theorem visitedAll_eq_flatMap (around trees : List Tree) :
    visitedAll around trees = trees.flatMap (visited around) := by
  induction trees with
  | nil => rfl
  | cons tree more ih => rw [visitedAll, ih, List.flatMap_cons]

theorem visited_eq (around : List Tree) (tree : Tree) :
    tree.visited around = ⟨around, tree⟩ ::
      if tree.kind = .usingDirective then []
      else tree.children.flatMap (visited (tree :: around)) := by
  cases tree
  rw [visited, visitedAll_eq_flatMap]
  rfl

theorem mem_visited_self (around : List Tree) (tree : Tree) :
    ⟨around, tree⟩ ∈ tree.visited around := by
  rw [visited_eq]
  exact List.mem_cons_self

/-- With a node, the nodes right below it are visited. -/
theorem mem_visited_child {root tree child : Tree} {base around : List Tree}
    (member : ⟨around, tree⟩ ∈ root.visited base) (notUsing : tree.kind ≠ .usingDirective)
    (below : child ∈ tree.children) : ⟨tree :: around, child⟩ ∈ root.visited base := by
  induction root using below_induction generalizing base with
  | step root ih =>
    rw [visited_eq] at member ⊢
    rcases List.mem_cons.mp member with same | deeper
    · cases same
      rw [if_neg notUsing]
      exact List.mem_cons_of_mem _
        (List.mem_flatMap.mpr ⟨child, below, mem_visited_self _ _⟩)
    · by_cases isUsing : root.kind = .usingDirective
      · rw [if_pos isUsing] at deeper
        cases deeper
      · rw [if_neg isUsing] at deeper ⊢
        obtain ⟨next, isNext, deeper⟩ := List.mem_flatMap.mp deeper
        exact List.mem_cons_of_mem _
          (List.mem_flatMap.mpr ⟨next, isNext, ih next isNext deeper⟩)

section Below

variable {tree child : Tree}

/-- What is around a tree comes behind what is around its nodes. -/
theorem visited_around (around : List Tree) (tree : Tree) :
    tree.visited around = (tree.visited []).map fun found => ⟨found.around ++ around, found.node⟩ := by
  induction tree using below_induction generalizing around with
  | step tree ih =>
    have below : ∀ around, tree.children.flatMap (visited (tree :: around)) =
        (tree.children.flatMap (visited [tree])).map
          fun found => ⟨found.around ++ around, found.node⟩ := by
      intro around
      rw [List.map_flatMap]
      refine List.flatMap_congr fun child member => ?_
      rw [ih child member (tree :: around), ih child member [tree], List.map_map]
      simp [Function.comp_def]
    rw [visited_eq, visited_eq [] tree, below around]
    split <;> rfl

theorem mem_visited_iff {found : Occurrence} : found ∈ tree.visited [] ↔
    found = ⟨[], tree⟩ ∨ tree.kind ≠ .usingDirective ∧
      ∃ child ∈ tree.children, ∃ inner ∈ child.visited [],
        found = ⟨inner.around ++ [tree], inner.node⟩ := by
  rw [visited_eq, List.mem_cons]
  by_cases isUsing : tree.kind = .usingDirective
  · simp [isUsing]
  · rw [if_neg isUsing, List.mem_flatMap]
    refine or_congr Iff.rfl ?_
    simp only [ne_eq, isUsing, not_false_eq_true, true_and]
    refine exists_congr fun child => and_congr Iff.rfl ?_
    rw [visited_around, List.mem_map]
    simp only [eq_comm]

theorem mem_visited_below (notUsing : tree.kind ≠ .usingDirective) (below : child ∈ tree.children)
    {found : Occurrence} (member : found ∈ child.visited []) :
    ⟨found.around ++ [tree], found.node⟩ ∈ tree.visited [] :=
  mem_visited_iff.mpr (.inr ⟨notUsing, child, below, found, member, rfl⟩)

end Below

end Tree

end ScriptLint.Source
