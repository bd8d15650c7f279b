/-
**The namespaces of an outline have names.**

* `stripGlobal_ne_nil` — what ends with no colon is not empty without `global::`.
* `textOf_eq` — the text of a node that stops behind some character ends with it.
* `namespaces_read_named` — no namespace in the outline of a text has an empty name.
-/

import Mathlib.Data.Option.Basic
import ScriptLint.Proofs.Outline.Walk
import ScriptLint.Proofs.Source.Names

namespace ScriptLint

namespace Source.Tree

/-- All nodes that a walk enters lie on the text, with those right below them. -/
theorem LiesOn.visited {text : List Char} {tree : Tree} (liesOn : tree.LiesOn text)
    {found : Occurrence} (member : found ∈ tree.visited []) : found.node.LiesOn text := by
  induction tree using below_induction generalizing found with
  | step tree ih =>
    rcases mem_visited_iff.mp member with rfl | ⟨-, child, below, inner, deeper, rfl⟩
    · exact liesOn
    · have inside : inner.node.LiesOn text :=
        ih child below (allLieOn_iff.mp liesOn.children child below) deeper
      exact inside

end Source.Tree

theorem Name.stripGlobal_ne_nil {s : List Char} {c : Char} (noColon : c ≠ ':') :
    Name.stripGlobal (s ++ [c]) ≠ [] := by
  unfold Name.stripGlobal
  cases found : List.isPrefixOf? Name.globalMark (s ++ [c]) with
  | none => simp
  | some after =>
    intro none
    have split := (List.append_eq_of_isPrefixOf?_eq_some found).symm
    rw [show after = [] from none, List.append_nil] at split
    have last := congrArg List.getLast? split
    rw [List.getLast?_concat] at last
    exact noColon (Option.some.inj last)

namespace Outline

open Source

/-- The text of a node that stops behind a character ends with it. -/
theorem textOf_eq {text before after : List Char} {c : Char} {span : Span}
    (place : Text.IsPlace text span.start) (solid : span.start < span.stop)
    (text_eq : text = before ++ [c] ++ after) (stop_eq : Text.size (before ++ [c]) = span.stop) :
    ∃ init, textOf text span = init ++ [c] := by
  obtain ⟨first, rest, split, start_eq⟩ := place
  obtain ⟨middle, upTo, rest_eq⟩ := Text.exists_append_of_size_le (split.symm.trans text_eq)
    (by omega)
  have nonempty : middle ≠ [] := by
    rintro rfl
    rw [List.append_nil] at upTo
    rw [upTo] at stop_eq
    omega
  obtain ⟨init, last, rfl⟩ := (List.eq_nil_or_concat' middle).resolve_left nonempty
  have same : last = c := by
    have ends := congrArg List.getLast? upTo
    rw [List.getLast?_concat, ← List.append_assoc, List.getLast?_concat] at ends
    exact (Option.some.inj ends).symm
  subst same
  have size_eq : Text.size (init ++ [last]) = span.stop - span.start := by
    rw [upTo, Text.size_append] at stop_eq
    omega
  refine ⟨init, ?_⟩
  rw [textOf, Text.slice?, Text.cut?_eq_some_iff.mpr ⟨split, start_eq⟩]
  have cut : Text.cut? (span.stop - span.start) rest = some (init ++ [last], after) :=
    Text.cut?_eq_some_iff.mpr ⟨rest_eq, size_eq⟩
  simp [Nat.le_of_lt solid, cut]

theorem qualify_ne_empty {outer : Option String} {name : String} (named : name ≠ "") :
    Name.qualify outer name ≠ "" := by
  intro none
  cases outer with
  | none => exact named none
  | some outer => simpa [Name.qualify] using congrArg String.toList none

/-- A namespace in the tree of a text has a name that is not empty. -/
theorem scopeName?_ne_empty {text : String} {found : Occurrence} {outer : Option String}
    (member : found ∈ (readTree text).visited []) (isNamespace : found.node.kind.isNamespace = true) :
    scopeName? text.toList outer found.node.children ≠ some "" := by
  obtain ⟨name, more, children, isName, before, c, after, text_eq, stop_eq, notBlank, noColon⟩ :=
    readTree_allNamed text found member isNamespace
  have below : name ∈ found.node.children := by simp [children]
  have notUsing : found.node.kind ≠ .usingDirective := by
    intro isUsing
    rw [isUsing] at isNamespace
    cases isNamespace
  have solid : name.span.start < name.span.stop := by
    rcases readTree_whole text with whole | ⟨stop, empty⟩
    · exact (whole _ (Tree.mem_visited_child member notUsing below)).solid
    · rw [empty] at member
      rcases Tree.mem_visited_iff.mp member with rfl | ⟨-, child, below, -⟩
      · cases isNamespace
      · cases below
  have around := (readTree_liesOn text).visited member
  have place := (Tree.allLieOn_iff.mp around.children name below).span.start
  obtain ⟨init, text_of⟩ := textOf_eq place solid text_eq stop_eq
  have compact_eq : (compact text.toList name).toList = init.filter (!Text.isBlank ·) ++ [c] := by
    rw [compact, String.toList_ofList, text_of, List.filter_append]
    simp [notBlank]
  have head : (ofKind .declaredName found.node.children).head? = some name := by
    simp [ofKind, children, isName]
  rw [scopeName?, head]
  show some (Name.qualify outer (String.ofList (Name.stripGlobal (compact text.toList name).toList))) ≠
    some ""
  rw [compact_eq]
  intro empty
  refine qualify_ne_empty ?_ (Option.some.inj empty)
  intro none
  exact Name.stripGlobal_ne_nil noColon (by simpa using congrArg String.toList none)

/-- **The namespaces of a text** have names that are not empty. -/
theorem namespaces_read_named (text : String) : ∀ found ∈ (read text).namespaces, found.name ≠ "" := by
  intro found member
  rw [read, namespaces_ofTree, List.mem_filterMap] at member
  obtain ⟨fact, isFact, isScope⟩ := member
  obtain ⟨context, tree, entered, own⟩ := Enters.exists_own isFact
  cases finding_of_own? own with
  | block isBlock named =>
    cases isScope
    rintro rfl
    exact scopeName?_ne_empty entered.visited (by rw [isBlock]; rfl) named
  | line isLine named =>
    cases isScope
    rintro rfl
    exact scopeName?_ne_empty entered.visited (by rw [isLine]; rfl) named
  | _ => cases isScope

end Outline

end ScriptLint
