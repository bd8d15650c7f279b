/-
**The nodes of an outline lie on characters.**

* `Outline.Placed` — the imports and calls of an outline, and the statements that calls are, lie on its
  text.
* `Fact.LiesOn`, `visit_liesOn` — what the walk through a tree finds lies where the tree does.
* `read_placed` — the outline of every text is placed.
-/

import ScriptLint.Proofs.Outline.Walk
import ScriptLint.Proofs.Source.Spans

namespace ScriptLint.Outline

open Source

/-- The nodes of the outline lie on its text. -/
structure Placed (outline : Outline) : Prop where
  imports : ∀ found ∈ outline.imports, found.span.LiesOn outline.text.toList
  calls : ∀ call ∈ outline.nodes.calls, call.span.LiesOn outline.text.toList
  statements : ∀ call ∈ outline.nodes.calls, ∀ statement, call.statement = some statement →
    statement.LiesOn outline.text.toList

/-- The node of a finding lies on the text. -/
def Fact.LiesOn (text : List Char) : Fact → Prop
  | directive found _ => found.span.LiesOn text
  | call found => found.span.LiesOn text ∧
      ∀ statement, found.statement = some statement → statement.LiesOn text
  | _ => True

/-- The statement around a place lies on the text. -/
def Place.LiesOn (text : List Char) (place : Place) : Prop :=
  ∀ statement, place.statement? = some statement → statement.LiesOn text

variable {text : List Char} {home owner : Option String} {place : Place}

theorem Place.below_liesOn (place : Place) (kind : Kind) {span : Span} (liesOn : span.LiesOn text) :
    (place.below kind span).LiesOn text := by
  intro statement isStatement
  unfold Place.below at isStatement
  split at isStatement
  all_goals
    cases isStatement
  exact liesOn

theorem importFact?_liesOn {span : Span} {children : List Tree} {fact : Fact}
    (liesOn : span.LiesOn text) (found : importFact? text span children = some fact) :
    fact.LiesOn text := by
  obtain ⟨target, -, rest⟩ := Option.bind_eq_some_iff.mp found
  cases rest
  exact liesOn

theorem callOf?_liesOn {kind : Kind} {span : Span} {children : List Tree} {call : ShapedCall}
    (liesOn : span.LiesOn text) (around : place.LiesOn text)
    (found : callOf? text place kind span children = some call) :
    (Fact.call call.toCall).LiesOn text := by
  unfold callOf? at found
  split at found
  · cases found
    exact ⟨liesOn, around⟩
  · cases found
    exact ⟨liesOn, fun statement none => by cases none⟩
  · cases found
    exact ⟨liesOn, fun statement none => by cases none⟩
  · cases found

mutual

/-- **What the walk finds in a tree lies on the text.** -/
theorem visit_liesOn : ∀ (home owner : Option String) (place : Place) (tree : Tree),
    tree.LiesOn text → place.LiesOn text →
      ∀ fact ∈ (visit text home owner place tree).facts, fact.LiesOn text
  | home, owner, place, .node kind span children => by
    intro liesOn around fact member
    obtain ⟨spanLiesOn, childrenLieOn⟩ := liesOn
    have inner := fun home owner => visitAll_liesOn home owner (place.below kind span) children
      childrenLieOn (place.below_liesOn kind spanLiesOn)
    have opened : ∀ {first : Fact} {home owner : Option String},
        fact ∈ first :: (visitAll text home owner (place.below kind span) children).facts →
          first.LiesOn text → fact.LiesOn text := by
      intro first home owner member firstLiesOn
      rcases List.mem_cons.mp member with rfl | member
      · exact firstLiesOn
      · exact inner home owner fact member
    unfold visit at member
    dsimp only at member
    split at member
    · exact importFact?_liesOn spanLiesOn (Option.mem_toList.mp member)
    · split at member
      · exact opened member trivial
      · exact inner _ _ fact member
    · split at member
      · exact opened member trivial
      · exact inner _ _ fact member
    · split at member
      · exact opened member trivial
      · exact inner _ _ fact member
    · split at member
      · exact opened member trivial
      · exact inner _ _ fact member
    · split at member
      · exact opened member trivial
      · exact inner _ _ fact member
    · rcases List.mem_append.mp member with member | member
      · obtain ⟨call, isCall, rfl⟩ := List.mem_map.mp member
        exact callOf?_liesOn spanLiesOn around (Option.mem_toList.mp isCall)
      · exact inner _ _ fact member

theorem visitAll_liesOn : ∀ (home owner : Option String) (place : Place) (trees : List Tree),
    Tree.AllLieOn text trees → place.LiesOn text →
      ∀ fact ∈ (visitAll text home owner place trees).facts, fact.LiesOn text
  | home, owner, place, [] => by
    intro _ _ fact member
    cases member
  | home, owner, place, tree :: more => by
    intro liesOn around fact member
    rw [visitAll] at member
    rcases List.mem_append.mp member with member | member
    · exact visit_liesOn home owner place tree liesOn.1 around fact member
    · exact visitAll_liesOn _ owner place more liesOn.2 around fact member

end

/-- **The outline of every text is placed.** -/
theorem read_placed (text : String) : (read text).Placed := by
  have facts := visit_liesOn none none .elsewhere (readTree text) (readTree_liesOn text)
    (fun statement none => by cases none)
  have calls : ∀ call ∈ (read text).nodes.calls, call.span.LiesOn text.toList ∧
      ∀ statement, call.statement = some statement → statement.LiesOn text.toList := by
    intro call member
    rw [read, (calls_ofTree_paired ..).1] at member
    obtain ⟨fact, isFact, isCall⟩ := List.mem_filterMap.mp member
    cases fact <;> cases isCall
    exact facts _ isFact
  refine ⟨fun found member => ?_, fun call member => (calls call member).1,
    fun call member => (calls call member).2⟩
  obtain ⟨fact, isFact, isDirective⟩ := List.mem_filterMap.mp member
  split at isDirective
  · cases isDirective
    exact facts _ isFact
  · cases isDirective

end ScriptLint.Outline
