/-
**A batch of annotations.**

An annotation takes nothing out of the text. So a batch of annotations is told by what it puts at each
offset: the comment of the first annotation there, in the order of the batch, and nothing from the
others there.

* `weave inserted text` — the text with `inserted offset` put at every offset.
* `weaveFrom_append`, `weaveFrom_eq_self_append` — what a woven text looks like up to an offset.
* `chosen_filter_start` — of insertions that start at one offset, the first one is performed.
* `filter_start_mergeSort` — the order of performance keeps such insertions as they were.
* `applyAll?_annotations` — the outcome of a batch of annotations.
-/

import ScriptLint.Proofs.Edit.Choice

namespace ScriptLint

namespace Text

/-- A text that begins at `offset`, with `inserted` put at every offset of it. -/
def weaveFrom (inserted : Nat → List Char) (offset : Nat) : List Char → List Char
  | [] => inserted offset
  | c :: rest => inserted offset ++ c :: weaveFrom inserted (offset + c.utf8Size) rest

/-- A text with `inserted` put at every offset, its start and its end included. -/
def weave (inserted : Nat → List Char) (text : List Char) : List Char :=
  weaveFrom inserted 0 text

variable {inserted : Nat → List Char}

/-- What has been woven up to an offset is not changed by what follows, and some text follows. -/
theorem weaveFrom_append (inserted : Nat → List Char) (offset : Nat) (s t : List Char) :
    ∃ tail, weaveFrom inserted offset (s ++ t) = weaveFrom inserted offset s ++ tail ∧
      (t ≠ [] → tail ≠ []) := by
  induction s generalizing offset with
  | nil =>
    cases t with
    | nil => exact ⟨[], by simp, fun absurd => (absurd rfl).elim⟩
    | cons c rest =>
      exact ⟨c :: weaveFrom inserted (offset + c.utf8Size) rest, rfl, fun _ => by simp⟩
  | cons c rest ih =>
    obtain ⟨tail, woven, more⟩ := ih (offset + c.utf8Size)
    refine ⟨tail, ?_, more⟩
    rw [List.cons_append, weaveFrom, weaveFrom, woven]
    simp

/-- Weaving takes nothing out. -/
theorem size_le_size_weaveFrom (inserted : Nat → List Char) (offset : Nat) (s : List Char) :
    size s ≤ size (weaveFrom inserted offset s) := by
  induction s generalizing offset with
  | nil => exact Nat.zero_le _
  | cons c rest ih =>
    have := ih (offset + c.utf8Size)
    rw [weaveFrom, size_append, size_cons, size_cons]
    omega

/-- When nothing is put before its end, a woven text is the text and what is put at its end. -/
theorem weaveFrom_eq_self_append {offset : Nat} {s : List Char}
    (none : ∀ place < offset + size s, inserted place = []) :
    weaveFrom inserted offset s = s ++ inserted (offset + size s) := by
  induction s generalizing offset with
  | nil => rfl
  | cons c rest ih =>
    have positive := c.utf8Size_pos
    rw [size_cons] at none ⊢
    rw [weaveFrom, none offset (by omega), ih fun place lt => none place (by omega)]
    simp [Nat.add_assoc]

end Text

namespace Replacement

variable {replacements : List Replacement}

/-- Insertions leave every character. -/
theorem spliceFrom_insertions
    (insertions : ∀ r ∈ replacements, r.span.stop = r.span.start) (offset : Nat) (s : List Char) :
    spliceFrom replacements offset s = Text.weaveFrom (insertedAt replacements) offset s := by
  induction s generalizing offset with
  | nil => rfl
  | cons c rest ih =>
    have outside : (replacements.any fun r => r.span.contains offset) = false := by
      rw [List.any_eq_false]
      intro r member
      have := insertions r member
      simp only [Span.contains, Bool.and_eq_true, decide_eq_true_eq]
      omega
    rw [spliceFrom, Text.weaveFrom, outside, ih]
    simp

/-- **Of insertions at one offset** the first is performed, unless one has been performed there
already. -/
theorem chosen_filter_start
    (insertions : ∀ r ∈ replacements, r.span.stop = r.span.start)
    (falling : replacements.Pairwise fun a b => b.span.start ≤ a.span.start)
    {floor : Option Nat} (below : ∀ r ∈ replacements, ∀ f, floor = some f → r.span.start ≤ f)
    (offset : Nat) :
    (chosen floor replacements).filter (·.span.start == offset) =
      if floor = some offset then [] else
        (replacements.filter (·.span.start == offset)).take 1 := by
  induction replacements generalizing floor with
  | nil => simp [chosen_nil]
  | cons r rest ih =>
    obtain ⟨first, falling⟩ := List.pairwise_cons.mp falling
    have insertionsRest : ∀ s ∈ rest, s.span.stop = s.span.start :=
      fun s member => insertions s (List.mem_cons_of_mem r member)
    have empty := insertions r List.mem_cons_self
    have clash_iff : r.clashes floor = true ↔ floor = some r.span.start := by
      cases floor with
      | none => simp [clashes]
      | some f =>
        have := below r List.mem_cons_self f rfl
        simp only [clashes, Span.isEmpty, Bool.or_eq_true, Bool.and_eq_true, decide_eq_true_eq,
          beq_iff_eq, Option.some.injEq]
        omega
    rw [chosen_cons]
    by_cases clash : r.clashes floor = true
    · have isFloor := clash_iff.mp clash
      rw [if_pos clash, ih insertionsRest falling fun s member =>
        below s (List.mem_cons_of_mem r member)]
      by_cases here : floor = some offset
      · rw [if_pos here, if_pos here]
      · have elsewhere : r.span.start ≠ offset := fun same => here (same ▸ isFloor)
        rw [if_neg here, if_neg here, List.filter_cons_of_neg (by simpa using elsewhere)]
    · have notFloor : floor ≠ some r.span.start := fun isFloor => clash (clash_iff.mpr isFloor)
      have belowRest : ∀ s ∈ rest, ∀ f, some r.span.start = some f → s.span.start ≤ f := by
        rintro s member f ⟨⟩
        exact first s member
      rw [if_neg clash]
      by_cases here : r.span.start = offset
      · rw [List.filter_cons_of_pos (by simpa using here), ih insertionsRest falling belowRest,
          if_pos (by rw [here]), if_neg (by rwa [← here]),
          List.filter_cons_of_pos (by simpa using here), List.take_succ_cons, List.take_zero]
      · rw [List.filter_cons_of_neg (by simpa using here), ih insertionsRest falling belowRest,
          if_neg (by simpa using here), List.filter_cons_of_neg (by simpa using here)]
        by_cases atFloor : floor = some offset
        · -- All that is left starts before the floor.
          have none : rest.filter (·.span.start == offset) = [] := by
            rw [List.filter_eq_nil_iff]
            intro s member same
            have := first s member
            have := below r List.mem_cons_self offset atFloor
            simp only [beq_iff_eq] at same
            omega
          rw [if_pos atFloor, none]
          rfl
        · rw [if_neg atFloor]

/-- **The order of performance is stable**: insertions at one offset stay in the order of the
batch. -/
theorem filter_start_mergeSort
    (insertions : ∀ r ∈ replacements, r.span.stop = r.span.start) (offset : Nat) :
    (replacements.mergeSort performedBefore).filter (·.span.start == offset) =
      replacements.filter (·.span.start == offset) := by
  set here := replacements.filter (·.span.start == offset) with here_eq
  have alike : here.Pairwise fun a b => performedBefore a b = true := by
    refine List.pairwise_of_forall_mem_list fun a isFirst b isSecond => ?_
    rw [here_eq, List.mem_filter, beq_iff_eq] at isFirst isSecond
    have := insertions a isFirst.1
    have := insertions b isSecond.1
    simp only [performedBefore, Bool.or_eq_true, Bool.and_eq_true, decide_eq_true_eq, beq_iff_eq]
    omega
  have kept : here.Sublist (replacements.mergeSort performedBefore) :=
    List.sublist_mergeSort performedBefore_trans performedBefore_total alike List.filter_sublist
  have filtered := kept.filter (·.span.start == offset)
  simp only [here_eq, List.filter_filter, Bool.and_self] at filtered
  refine (filtered.eq_of_length ?_).symm
  exact ((List.mergeSort_perm replacements performedBefore).filter _).length_eq.symm

/-- **What a batch of insertions puts at an offset**: the new text of the first insertion there. -/
theorem insertedAt_chosen
    (insertions : ∀ r ∈ replacements, r.span.stop = r.span.start) (offset : Nat) :
    insertedAt (chosen none (replacements.mergeSort performedBefore)) offset =
      ((replacements.filter (·.span.start == offset)).take 1).flatMap (·.newText.toList) := by
  have sorted := List.mergeSort_perm replacements performedBefore
  rw [insertedAt, chosen_filter_start (fun r member => insertions r (sorted.mem_iff.mp member))
    (pairwise_start_mergeSort replacements) (by simp), if_neg (by simp),
    filter_start_mergeSort insertions]

end Replacement

namespace Edit

open Replacement

/-- The edit takes nothing out of the text. -/
def IsAnnotation : Edit → Prop
  | .remove _ => False
  | .annotate _ _ => True

/-- The text that annotations put at an offset: the comment of the first one there, and a space. -/
def insertedBy (edits : List Edit) (offset : Nat) : List Char :=
  match edits.find? (·.target.start == offset) with
  | some (.annotate _ comment) => (comment ++ " ").toList
  | _ => []

theorem insertedBy_eq_nil {edits : List Edit} {offset : Nat}
    (none : ∀ edit ∈ edits, edit.target.start ≠ offset) : insertedBy edits offset = [] := by
  have : edits.find? (·.target.start == offset) = Option.none := by
    simpa using none
  rw [insertedBy, this]

theorem insertedBy_eq {edits : List Edit} {offset : Nat} {comment : String} {edit : Edit}
    (member : edit ∈ edits) (here : edit.target.start = offset)
    (same : ∀ edit ∈ edits, edit.target.start = offset →
      ∃ target, edit = .annotate target comment) :
    insertedBy edits offset = (comment ++ " ").toList := by
  have found : (edits.find? (·.target.start == offset)).isSome = true := by
    rw [List.find?_isSome]
    exact ⟨edit, member, by simpa using here⟩
  obtain ⟨first, isFirst⟩ := Option.isSome_iff_exists.mp found
  obtain ⟨target, rfl⟩ := same first (List.mem_of_find?_eq_some isFirst)
    (by simpa using List.find?_some isFirst)
  rw [insertedBy, isFirst]

/-- The replacements of annotations. -/
theorem mapM_replacement?_annotations {text : List Char} {edits : List Edit}
    (annotations : ∀ edit ∈ edits, edit.IsAnnotation) :
    ∃ replacements, edits.mapM (replacement? text) = some replacements ∧
      (∀ r ∈ replacements, ∃ edit ∈ edits, r.span = ⟨edit.target.start, edit.target.start⟩) ∧
      ∀ offset, ((replacements.filter (·.span.start == offset)).take 1).flatMap
        (·.newText.toList) = insertedBy edits offset := by
  induction edits with
  | nil => exact ⟨[], rfl, by simp, fun _ => rfl⟩
  | cons edit rest ih =>
    obtain ⟨others, found, spans, texts⟩ :=
      ih fun edit member => annotations edit (List.mem_cons_of_mem _ member)
    cases edit with
    | remove target => exact (annotations _ List.mem_cons_self).elim
    | annotate target comment =>
      refine ⟨⟨⟨target.start, target.start⟩, comment ++ " "⟩ :: others, ?_, ?_, fun offset => ?_⟩
      · rw [List.mapM_cons, found]
        rfl
      · intro r member
        rcases List.mem_cons.mp member with rfl | member
        · exact ⟨_, List.mem_cons_self, rfl⟩
        · obtain ⟨edit, isEdit, span⟩ := spans r member
          exact ⟨edit, List.mem_cons_of_mem _ isEdit, span⟩
      · by_cases here : target.start = offset
        · rw [List.filter_cons_of_pos (by simpa using here), insertedBy,
            List.find?_cons_of_pos (by simpa [Edit.target] using here)]
          simp
        · rw [List.filter_cons_of_neg (by simpa using here), texts offset, insertedBy, insertedBy,
            List.find?_cons_of_neg (by simpa [Edit.target] using here)]

/-- **A batch of annotations** at places of the text does not fail, and weaves the comment of the
first annotation at each place into the text. -/
theorem applyAll?_annotations {text : String} {edits : List Edit}
    (annotations : ∀ edit ∈ edits, edit.IsAnnotation)
    (placed : ∀ edit ∈ edits, Text.IsPlace text.toList edit.target.start) :
    ∃ outcome, applyAll? text edits = some outcome ∧
      outcome.text.toList = Text.weave (insertedBy edits) text.toList := by
  obtain ⟨replacements, found, spans, texts⟩ := mapM_replacement?_annotations annotations
  have insertions : ∀ r ∈ replacements, r.span.stop = r.span.start := by
    intro r member
    obtain ⟨edit, -, span⟩ := spans r member
    rw [span]
  have fits : ∀ r ∈ replacements, r.Fits text.toList := by
    intro r member
    obtain ⟨edit, isEdit, span⟩ := spans r member
    obtain ⟨before, after, text_eq, place⟩ := placed edit isEdit
    exact ⟨before, [], after, by rw [text_eq, List.append_nil], by rw [span, place],
      by rw [span, place, Text.size_nil, Nat.add_zero]⟩
  obtain ⟨outcome, done, spliced, -, -⟩ := applyAll?_chosen found fits
  refine ⟨outcome, done, ?_⟩
  have performed : ∀ r ∈ chosen none (replacements.mergeSort performedBefore),
      r.span.stop = r.span.start := fun r member =>
    insertions r ((List.mergeSort_perm _ _).mem_iff.mp (chosen_subset _ _ member))
  have inserted : insertedAt (chosen none (replacements.mergeSort performedBefore)) =
      insertedBy edits := by
    funext offset
    rw [insertedAt_chosen insertions, texts]
  rw [spliced, splice, spliceFrom_insertions performed, inserted]
  rfl

end Edit

end ScriptLint
