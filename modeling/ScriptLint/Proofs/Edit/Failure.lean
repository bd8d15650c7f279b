/-
**When a batch of edits fails.**

A removal cuts the text as it was, before anything is performed; an annotation cuts the text only when
it is performed, and by then the text has been rewritten. So a misplaced annotation might be saved by
being skipped, or by the rewriting. Neither happens: an annotation is skipped only at the start of a
replacement that has been performed, which is a place of the text, and what is below that start is
still as it was.

* `Misplaced` — an edit whose target is no place of the text.
* `Stage.step`, `Stage.isPlace_of_step` — a step that does not fail leads to a stage, and shows that
  an insertion starts at a place of the text as it was.
* `Stage.isPlace_of_run` — so does a run, of all the insertions in it.
* `fits_of_applyAll?` — in a batch that does not fail every replacement fits the text, whether it is
  performed or skipped.
* `not_misplaced_iff` — an edit that is not misplaced has a replacement that fits.
* `applyAll?_eq_none_iff` — a batch fails exactly if one of its edits is misplaced.
-/

import ScriptLint.Proofs.Edit.Choice

namespace ScriptLint.Edit

open Replacement

/-- The text cannot be cut at an end of the node that is to be removed, or where the comment is to be
put. Only a removal brings its target into the text before. -/
def Misplaced (text : List Char) : Edit → Prop
  | remove target =>
    ¬ Text.IsPlace text (clamp (Text.size text) target).start ∨
      ¬ Text.IsPlace text (clamp (Text.size text) target).stop
  | annotate target _ => Text.size text < target.start ∨ ¬ Text.IsPlace text target.start

instance (text : List Char) (edit : Edit) : Decidable (edit.Misplaced text) :=
  match edit with
  | remove _ => inferInstanceAs (Decidable (_ ∨ _))
  | annotate _ _ => inferInstanceAs (Decidable (_ ∨ _))

/-! ### Steps and runs that do not fail -/

section Step

variable {original before after : List Char} {progress next : Progress}
  {kept skipped : List Replacement} {r : Replacement}

/-- **A step that does not fail** keeps its replacement or skips it. -/
theorem Stage.step (stage : Stage original progress before after kept skipped)
    (ordered : r.span.start ≤ r.span.stop) (behind : ∀ k ∈ kept, r.span.start ≤ k.span.start)
    (stepped : progress.step? r = some next) :
    ∃ before' after' kept' skipped', Stage original next before' after' kept' skipped' ∧
      (kept' = kept ∨ kept' = r :: kept) := by
  unfold Progress.step? at stepped
  cases clash : r.clashes progress.floor with
  | true =>
    rw [clash, if_pos rfl, Option.some.injEq] at stepped
    subst stepped
    exact ⟨before, after, kept, r :: skipped, stage.skip clash behind, .inl rfl⟩
  | false =>
    simp only [clash, Bool.false_eq_true, if_false, Option.bind_eq_bind, Option.bind_eq_some_iff,
      Option.pure_def, Option.some.injEq] at stepped
    obtain ⟨text, performed, rfl⟩ := stepped
    obtain ⟨head, tail, performing⟩ := stage.perform clash ordered performed
    exact ⟨head, tail, r :: kept, skipped, performing, .inr rfl⟩

/-- **An insertion** that a step skips starts where the last replacement performed does; one that it
performs has cut what is still untouched. -/
theorem Stage.isPlace_of_step (stage : Stage original progress before after kept skipped)
    (insertion : r.span.stop = r.span.start) (behind : ∀ k ∈ kept, r.span.start ≤ k.span.start)
    (stepped : progress.step? r = some next) : Text.IsPlace original r.span.start := by
  unfold Progress.step? at stepped
  cases clash : r.clashes progress.floor with
  | true =>
    cases isFloor : progress.floor with
    | none => simp [clashes, isFloor] at clash
    | some floor =>
      obtain ⟨floor_eq, k, isKept, start⟩ := stage.floor_some floor isFloor
      have below := behind k isKept
      simp only [clashes, isFloor, Bool.or_eq_true, Bool.and_eq_true, decide_eq_true_eq,
        beq_iff_eq] at clash
      exact ⟨before, after, stage.original_eq, by omega⟩
  | false =>
    simp only [clash, Bool.false_eq_true, if_false, Option.bind_eq_bind, Option.bind_eq_some_iff,
      Option.pure_def, Option.some.injEq] at stepped
    obtain ⟨text, performed, -⟩ := stepped
    obtain ⟨head, rest, untilStop, tail, cutStart, cutStop, start, stop, -⟩ :=
      perform?_eq_some_iff.mp performed
    obtain ⟨below, -⟩ := stage.room clash (Nat.le_of_eq insertion.symm) cutStop stop
    obtain ⟨gap, before_eq, -⟩ :=
      Text.exists_append_of_size_le (cutStart.symm.trans stage.text_eq) (by omega)
    exact ⟨head, gap ++ after, by rw [stage.original_eq, before_eq, List.append_assoc], start⟩

end Step

/-- **A run that does not fail** shows of every insertion in it that it starts at a place of the text
as it was. -/
theorem Stage.isPlace_of_run {original : List Char} {remaining : List Replacement} {last : Progress}
    (falling : remaining.Pairwise fun a b => b.span.start ≤ a.span.start)
    (ordered : ∀ r ∈ remaining, r.span.start ≤ r.span.stop) :
    ∀ {progress : Progress} {before after : List Char} {kept skipped : List Replacement},
      Stage original progress before after kept skipped →
      (∀ k ∈ kept, ∀ r ∈ remaining, r.span.start ≤ k.span.start) →
      remaining.foldlM Progress.step? progress = some last →
      ∀ r ∈ remaining, r.span.stop = r.span.start → Text.IsPlace original r.span.start := by
  induction remaining with
  | nil => simp
  | cons first rest ih =>
    intro progress before after kept skipped stage behind ran r member insertion
    obtain ⟨below, falling⟩ := List.pairwise_cons.mp falling
    simp only [List.foldlM_cons, Option.bind_eq_bind, Option.bind_eq_some_iff] at ran
    obtain ⟨next, stepped, ran⟩ := ran
    have firstBehind : ∀ k ∈ kept, first.span.start ≤ k.span.start :=
      fun k isKept => behind k isKept first List.mem_cons_self
    rcases List.mem_cons.mp member with rfl | member
    · exact stage.isPlace_of_step insertion firstBehind stepped
    · obtain ⟨before', after', kept', skipped', stage', keeps⟩ :=
        stage.step (ordered first List.mem_cons_self) firstBehind stepped
      have behind' : ∀ k ∈ kept', ∀ s ∈ rest, s.span.start ≤ k.span.start := by
        intro k isKept s isLater
        rcases keeps with rfl | rfl
        · exact behind k isKept s (List.mem_cons_of_mem first isLater)
        · rcases List.mem_cons.mp isKept with rfl | isKept
          · exact below s isLater
          · exact behind k isKept s (List.mem_cons_of_mem first isLater)
      exact ih falling (fun s isLater => ordered s (List.mem_cons_of_mem first isLater)) stage'
        behind' ran r member insertion

/-! ### Batches that do not fail -/

/-- **In a batch that does not fail** every edit has its replacement, and every replacement fits the
text. -/
theorem fits_of_applyAll? {text : String} {edits : List Edit} {outcome : Outcome}
    (done : applyAll? text edits = some outcome) :
    ∃ replacements, edits.mapM (replacement? text.toList) = some replacements ∧
      ∀ r ∈ replacements, r.Fits text.toList := by
  simp only [applyAll?, Option.bind_eq_bind, Option.bind_eq_some_iff, Option.pure_def,
    Option.some.injEq] at done
  obtain ⟨replacements, found, last, ran, -⟩ := done
  refine ⟨replacements, found, fun r member => ?_⟩
  have sorted := List.mergeSort_perm replacements performedBefore
  have ordered := (replacements_of_mapM found).2
  obtain ⟨edit, -, isReplacement⟩ := exists_of_mem_mapM found member
  cases edit with
  | remove target => exact fits_of_removal isReplacement
  | annotate target comment =>
    obtain rfl := Option.some.inj isReplacement
    obtain ⟨before, after, text_eq, place⟩ :=
      Stage.isPlace_of_run (pairwise_start_mergeSort replacements)
        (fun r member => ordered r (sorted.mem_iff.mp member)) (Stage.start text.toList) (by simp)
        ran _ (sorted.mem_iff.mpr member) rfl
    exact fits_annotation comment text_eq place

/-- **An edit is in place** if it has a replacement and this fits the text. -/
theorem not_misplaced_iff {text : List Char} {edit : Edit} :
    ¬ edit.Misplaced text ↔ ∃ r, edit.replacement? text = some r ∧ r.Fits text := by
  cases edit with
  | remove target =>
    simp only [Misplaced, not_or, not_not]
    constructor
    · rintro ⟨⟨before, rest, cutStart, start⟩, untilStop, after, cutStop, stop⟩
      have found : (Edit.remove target).replacement? text =
          some ⟨removalSpan before after (clamp (Text.size text) target), ""⟩ := by
        rw [replacement?, removalSpan?, Text.cut?_eq_some_iff.mpr ⟨cutStart, start⟩,
          Text.cut?_eq_some_iff.mpr ⟨cutStop, stop⟩]
        rfl
      exact ⟨_, found, fits_of_removal found⟩
    · rintro ⟨r, found, -⟩
      obtain ⟨-, earlier, head, node, tail, ending, later, removal⟩ := exists_isRemoval found
      rw [removal.target_eq]
      refine ⟨⟨earlier ++ head, node ++ tail ++ ending ++ later, ?_, rfl⟩,
        earlier ++ head ++ node, tail ++ ending ++ later, ?_, rfl⟩
      · rw [removal.text_eq]
        simp only [List.append_assoc]
      · rw [removal.text_eq]
        simp only [List.append_assoc]
  | annotate target comment =>
    simp only [Misplaced, not_or, not_not]
    constructor
    · rintro ⟨-, before, after, text_eq, place⟩
      exact ⟨_, rfl, fits_annotation comment text_eq place⟩
    · rintro ⟨r, found, fits⟩
      obtain rfl := Option.some.inj found
      obtain ⟨before, middle, after, text_eq, start, -⟩ := fits
      have place : Text.IsPlace text target.start :=
        ⟨before, middle ++ after, by rw [text_eq, List.append_assoc], start.symm⟩
      exact ⟨Nat.not_lt.mpr place.le_size, place⟩

/-- **A batch fails exactly if one of its edits is misplaced**, be it one that would be performed or
one that would be skipped. -/
theorem applyAll?_eq_none_iff (text : String) (edits : List Edit) :
    applyAll? text edits = none ↔ ∃ edit ∈ edits, edit.Misplaced text.toList := by
  constructor
  · intro failed
    by_contra placed
    have fitting : ∀ edit ∈ edits, ∃ r, edit.replacement? text.toList = some r ∧
        r.Fits text.toList := fun edit member =>
      not_misplaced_iff.mp fun misplaced => placed ⟨edit, member, misplaced⟩
    obtain ⟨replacements, found⟩ := exists_mapM fun edit member =>
      (fitting edit member).imp fun _ both => both.1
    have fits : ∀ r ∈ replacements, r.Fits text.toList := by
      intro r member
      obtain ⟨edit, isEdit, isReplacement⟩ := exists_of_mem_mapM found member
      obtain ⟨s, isOther, fits⟩ := fitting edit isEdit
      rwa [Option.some.inj (isReplacement.symm.trans isOther)]
    obtain ⟨outcome, done, -⟩ := applyAll?_of_fits found fits
    rw [failed] at done
    cases done
  · rintro ⟨edit, member, misplaced⟩
    by_contra succeeds
    obtain ⟨outcome, done⟩ := Option.ne_none_iff_exists'.mp succeeds
    obtain ⟨replacements, found, fits⟩ := fits_of_applyAll? done
    obtain ⟨r, isReplacement, isFound⟩ := exists_result_of_mapM found member
    exact not_misplaced_iff.mpr ⟨r, isFound, fits r isReplacement⟩ misplaced

/-- Beyond the end an annotation is misplaced, but a removal is not, which then removes nothing. -/
example :
    (annotate ⟨6, 7⟩ "/* a */").Misplaced "aé;\n".toList ∧
      ¬ (remove ⟨6, 7⟩).Misplaced "aé;\n".toList ∧ (remove ⟨0, 2⟩).Misplaced "aé;\n".toList := by
  decide

end ScriptLint.Edit
