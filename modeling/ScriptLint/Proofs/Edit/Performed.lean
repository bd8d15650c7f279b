/-
**A batch performs as many of its edits as can be performed together.**

Of edits that meet each other only one can be performed. A batch goes backwards and takes what does
not meet the one it has taken last, and so it gets most out of its edits: what starts last leaves the
most room before it, and where two start at one offset it does not matter which is taken.

* `performed` — the edits of a batch that are performed, each with its replacement.
* `applyAll?_performed` — the outcome of a batch, told by the edits performed.
* `Above` — how two replacements that are performed one after the other lie to each other.
* `length_le_length_chosen` — the choice is as long as any other: the first of another choice makes
  way for the first one chosen.
* `isGreatest_applied` — the number of edits performed is the greatest number of edits of the batch
  that go together.
-/

import Mathlib.Order.Bounds.Basic
import ScriptLint.Proofs.Edit.Failure

namespace ScriptLint

/-! ### The best choice -/

namespace Replacement

/-- The first replacement starts behind the start of the second, and not before this one stops. -/
def Above (a b : Replacement) : Prop :=
  b.span.start < a.span.start ∧ b.span.stop ≤ a.span.start

theorem Above.not_conflicts {a b : Replacement} (above : Above a b) : ¬ Conflicts a b := by
  unfold Above at above
  unfold Conflicts
  omega

theorem Conflicts.symm {a b : Replacement} (conflicts : Conflicts a b) : Conflicts b a := by
  unfold Conflicts at conflicts ⊢
  omega

variable {replacements : List Replacement}

/-- All that is chosen lies below the floor. -/
theorem below_of_mem_chosen (ordered : ∀ r ∈ replacements, r.span.start ≤ r.span.stop)
    {floor : Nat} {r : Replacement} (member : r ∈ chosen (some floor) replacements) :
    r.span.start < floor ∧ r.span.stop ≤ floor := by
  induction replacements generalizing floor with
  | nil => cases member
  | cons first rest ih =>
    have orderedRest : ∀ s ∈ rest, s.span.start ≤ s.span.stop :=
      fun s isLater => ordered s (List.mem_cons_of_mem first isLater)
    rw [chosen_cons] at member
    split at member
    · exact ih orderedRest member
    next free =>
      have below : first.span.start < floor ∧ first.span.stop ≤ floor := by
        have := ordered first List.mem_cons_self
        simp only [clashes, Span.isEmpty, Bool.or_eq_true, Bool.and_eq_true, decide_eq_true_eq,
          beq_iff_eq] at free
        omega
      rcases List.mem_cons.mp member with rfl | member
      · exact below
      · have := ih orderedRest member
        omega

theorem chosen_pairwise (ordered : ∀ r ∈ replacements, r.span.start ≤ r.span.stop)
    (floor : Option Nat) : (chosen floor replacements).Pairwise Above := by
  induction replacements generalizing floor with
  | nil => exact .nil
  | cons first rest ih =>
    have orderedRest : ∀ s ∈ rest, s.span.start ≤ s.span.stop :=
      fun s isLater => ordered s (List.mem_cons_of_mem first isLater)
    rw [chosen_cons]
    split
    · exact ih orderedRest floor
    · refine List.pairwise_cons.mpr ⟨fun s member => ?_, ih orderedRest _⟩
      exact below_of_mem_chosen orderedRest member

/-- **The choice is the longest.** Replacements that lie one below the other, and do not meet the
one performed last, are not more than those chosen. -/
theorem length_le_length_chosen
    (falling : replacements.Pairwise fun a b => b.span.start ≤ a.span.start)
    {others : List Replacement} (among : others ⊆ replacements) (apart : others.Pairwise Above)
    {floor : Option Nat} (free : ∀ r ∈ others, r.clashes floor = false) :
    others.length ≤ (chosen floor replacements).length := by
  induction replacements generalizing others floor with
  | nil => simp [List.subset_nil.mp among]
  | cons first rest ih =>
    obtain ⟨highest, falling⟩ := List.pairwise_cons.mp falling
    rw [chosen_cons]
    split
    next clash =>
      -- What is skipped is not among the others either.
      refine ih falling (fun r member => ?_) apart free
      refine (List.mem_cons.mp (among member)).resolve_left ?_
      rintro rfl
      rw [free r member] at clash
      cases clash
    next =>
      cases others with
      | nil => exact Nat.zero_le _
      | cons top lower =>
        -- The first one chosen starts no earlier than `top`, so it leaves all of `lower` room.
        have notLater : top.span.start ≤ first.span.start := by
          rcases List.mem_cons.mp (among List.mem_cons_self) with rfl | member
          · exact Nat.le_refl _
          · exact highest top member
        obtain ⟨above, apart⟩ := List.pairwise_cons.mp apart
        have below : ∀ r ∈ lower, r.span.start < first.span.start ∧
            r.span.stop ≤ first.span.start := fun r member => by
          have := above r member
          unfold Above at this
          omega
        refine Nat.succ_le_succ (ih falling (fun r member => ?_) apart fun r member => ?_)
        · refine (List.mem_cons.mp (among (List.mem_cons_of_mem top member))).resolve_left ?_
          rintro rfl
          exact Nat.lt_irrefl _ (below r member).1
        · have := below r member
          simp only [clashes, Bool.or_eq_false_iff, Bool.and_eq_false_iff, decide_eq_false_iff_not,
            beq_eq_false_iff_ne]
          omega

/-- Replacements without a conflict lie one below the other in their order of performance. -/
theorem pairwise_above_mergeSort (apart : replacements.Pairwise fun a b => ¬ Conflicts a b) :
    (replacements.mergeSort performedBefore).Pairwise Above := by
  have sorted := List.mergeSort_perm replacements performedBefore
  have symmetric {a b : Replacement} (none : ¬ Conflicts a b) : ¬ Conflicts b a :=
    fun conflicts => none conflicts.symm
  have stillApart := (sorted.pairwise_iff symmetric).mpr apart
  refine ((pairwise_start_mergeSort replacements).and stillApart).imp fun {a b} both => ?_
  obtain ⟨falling, none⟩ := both
  unfold Conflicts at none
  unfold Above
  omega

end Replacement

/-! ### The edits performed -/

namespace Edit

open Replacement

/-- The edits that have a replacement on the text, each with this one. -/
def withReplacements (text : List Char) (edits : List Edit) : List (Edit × Replacement) :=
  edits.filterMap fun edit => (edit.replacement? text).map (edit, ·)

/-- The edits of a batch that are performed on a text, each with its replacement. -/
def performed (text : List Char) (edits : List Edit) : List (Edit × Replacement) :=
  chosenBy Prod.snd none
    ((withReplacements text edits).mergeSort fun a b => performedBefore a.2 b.2)

variable {text : List Char} {edits : List Edit}

theorem withReplacements_of_mapM {replacements : List Replacement}
    (found : edits.mapM (replacement? text) = some replacements) :
    (withReplacements text edits).map Prod.fst = edits ∧
      (withReplacements text edits).map Prod.snd = replacements := by
  induction mapM_eq_some_iff.mp found with
  | nil => exact ⟨rfl, rfl⟩
  | cons first others ih =>
    obtain ⟨isEdits, isReplacements⟩ := ih (mapM_eq_some_iff.mpr others)
    unfold withReplacements at isEdits isReplacements ⊢
    rw [List.filterMap_cons, first]
    exact ⟨congrArg _ isEdits, congrArg _ isReplacements⟩

theorem map_snd_performed {replacements : List Replacement}
    (found : edits.mapM (replacement? text) = some replacements) :
    (performed text edits).map Prod.snd =
      chosen none (replacements.mergeSort performedBefore) := by
  rw [performed, map_chosenBy, List.map_mergeSort (s := performedBefore) fun _ _ _ _ => rfl,
    (withReplacements_of_mapM found).2]

theorem of_mem_withReplacements {pair : Edit × Replacement}
    (member : pair ∈ withReplacements text edits) :
    pair.1 ∈ edits ∧ pair.1.replacement? text = some pair.2 := by
  rw [withReplacements, List.mem_filterMap] at member
  obtain ⟨edit, isIn, isPair⟩ := member
  obtain ⟨r, found, rfl⟩ := Option.map_eq_some_iff.mp isPair
  exact ⟨isIn, found⟩

theorem of_mem_performed {pair : Edit × Replacement} (member : pair ∈ performed text edits) :
    pair.1 ∈ edits ∧ pair.1.replacement? text = some pair.2 :=
  of_mem_withReplacements (List.mem_mergeSort.mp ((chosenBy_sublist _ _ _).subset member))

theorem performed_subperm {replacements : List Replacement}
    (found : edits.mapM (replacement? text) = some replacements) :
    ((performed text edits).map Prod.fst).Subperm edits := by
  have sorted := (List.mergeSort_perm (withReplacements text edits)
    fun a b => performedBefore a.2 b.2).map Prod.fst
  rw [(withReplacements_of_mapM found).1] at sorted
  exact ((chosenBy_sublist _ _ _).map Prod.fst).subperm.trans sorted.subperm

/-- **The outcome of a batch** is the splice of the replacements of the edits performed, which fit
the text. -/
theorem applyAll?_performed {text : String} {outcome : Outcome}
    (done : applyAll? text edits = some outcome) :
    outcome.text.toList = splice ((performed text.toList edits).map Prod.snd) text.toList ∧
      outcome.applied = (performed text.toList edits).length ∧
      ((performed text.toList edits).map Prod.snd).Pairwise Above ∧
      ∀ pair ∈ performed text.toList edits, pair.2.Fits text.toList := by
  obtain ⟨replacements, found, fits⟩ := fits_of_applyAll? done
  obtain ⟨same, isSame, spliced, applied, -⟩ := applyAll?_chosen found fits
  obtain rfl := Option.some.inj (done.symm.trans isSame)
  have sorted := List.mergeSort_perm replacements performedBefore
  have chosen_eq := map_snd_performed found
  refine ⟨chosen_eq ▸ spliced, ?_, ?_, fun pair member => ?_⟩
  · rw [applied, ← chosen_eq, List.length_map]
  · rw [chosen_eq]
    exact chosen_pairwise (fun r member => (replacements_of_mapM found).2 r
      (sorted.mem_iff.mp member)) none
  · have isChosen := List.mem_map_of_mem (f := Prod.snd) member
    rw [chosen_eq] at isChosen
    exact fits _ (sorted.mem_iff.mp (chosen_subset _ _ isChosen))

/-- The replacements of the two edits start at different offsets, and the one that starts earlier does
not reach past the start of the other. -/
def GoTogether (text : List Char) (a b : Edit) : Prop :=
  ∃ r s, a.replacement? text = some r ∧ b.replacement? text = some s ∧ ¬ r.Conflicts s

theorem GoTogether.symm {a b : Edit} (together : GoTogether text a b) : GoTogether text b a := by
  obtain ⟨r, s, first, second, none⟩ := together
  exact ⟨s, r, second, first, fun conflicts => none conflicts.symm⟩

/-- **The edits performed go together.** -/
theorem performed_goTogether {text : String} {outcome : Outcome}
    (done : applyAll? text edits = some outcome) :
    ((performed text.toList edits).map Prod.fst).Pairwise (GoTogether text.toList) := by
  obtain ⟨-, -, apart, -⟩ := applyAll?_performed done
  rw [List.pairwise_map] at apart ⊢
  refine apart.imp_of_mem fun {a b} isFirst isSecond above => ?_
  exact ⟨a.2, b.2, (of_mem_performed isFirst).2, (of_mem_performed isSecond).2,
    above.not_conflicts⟩

/-- **Edits that go together** are not more than those performed. -/
theorem length_le_performed {text : String} {outcome : Outcome}
    (done : applyAll? text edits = some outcome) {picked : List Edit} (among : picked.Sublist edits)
    (together : picked.Pairwise (GoTogether text.toList)) :
    picked.length ≤ (performed text.toList edits).length := by
  obtain ⟨replacements, found, fits⟩ := fits_of_applyAll? done
  obtain ⟨others, othersFound⟩ := exists_mapM fun edit member => by
    obtain ⟨r, -, isReplacement⟩ := exists_result_of_mapM found (among.subset member)
    exact ⟨r, isReplacement⟩
  obtain ⟨isPicked, isOthers⟩ := withReplacements_of_mapM othersFound
  have isIn : others ⊆ replacements := by
    rw [← isOthers, ← (withReplacements_of_mapM found).2]
    exact ((among.filterMap _).map Prod.snd).subset
  have apart : others.Pairwise fun a b => ¬ Conflicts a b := by
    rw [← isPicked, List.pairwise_map] at together
    rw [← isOthers, List.pairwise_map]
    refine together.imp_of_mem fun {a b} isFirst isSecond both => ?_
    obtain ⟨r, s, first, second, none⟩ := both
    obtain rfl := Option.some.inj (first.symm.trans (of_mem_withReplacements isFirst).2)
    obtain rfl := Option.some.inj (second.symm.trans (of_mem_withReplacements isSecond).2)
    exact none
  calc picked.length = (others.mergeSort performedBefore).length := by
        rw [List.length_mergeSort, (mapM_eq_some_iff.mp othersFound).length_eq]
    _ ≤ (chosen none (replacements.mergeSort performedBefore)).length := by
        refine length_le_length_chosen (pairwise_start_mergeSort replacements) (fun r member => ?_)
          (pairwise_above_mergeSort apart) fun _ _ => rfl
        exact List.mem_mergeSort.mpr (isIn (List.mem_mergeSort.mp member))
    _ = (performed text.toList edits).length := by
        rw [← map_snd_performed found, List.length_map]

/-- **A batch skips no more than it has to.** The number of edits performed is the greatest number of
edits of the batch that go together. -/
theorem isGreatest_applied {text : String} {outcome : Outcome}
    (done : applyAll? text edits = some outcome) :
    IsGreatest {n | ∃ picked : List Edit, picked.Sublist edits ∧
      picked.Pairwise (GoTogether text.toList) ∧ picked.length = n} outcome.applied := by
  obtain ⟨replacements, found, -⟩ := fits_of_applyAll? done
  obtain ⟨-, applied, -, -⟩ := applyAll?_performed done
  constructor
  · obtain ⟨picked, same, among⟩ := performed_subperm found
    refine ⟨picked, among, ?_, ?_⟩
    · exact (same.pairwise_iff GoTogether.symm).mpr (performed_goTogether done)
    · rw [same.length_eq, List.length_map, applied]
  · rintro n ⟨picked, among, together, rfl⟩
    rw [applied]
    exact length_le_performed done among together

/-- Two lines removed each by itself, and both at once: the long removal gives way to the short
ones. -/
theorem isGreatest_applied_lines :
    applyAll? "F();\nG();\n" [.remove ⟨0, 9⟩, .remove ⟨0, 4⟩, .remove ⟨5, 9⟩] =
        some ⟨"", 2, 1⟩ ∧
      IsGreatest {n | ∃ picked : List Edit,
        picked.Sublist [.remove ⟨0, 9⟩, .remove ⟨0, 4⟩, .remove ⟨5, 9⟩] ∧
        picked.Pairwise (GoTogether "F();\nG();\n".toList) ∧ picked.length = n} 2 := by
  have done : applyAll? "F();\nG();\n" [.remove ⟨0, 9⟩, .remove ⟨0, 4⟩, .remove ⟨5, 9⟩] =
      some ⟨"", 2, 1⟩ := by
    have parts : [remove ⟨0, 9⟩, remove ⟨0, 4⟩, remove ⟨5, 9⟩].mapM
        (replacement? "F();\nG();\n".toList) =
        some [⟨⟨0, 10⟩, ""⟩, ⟨⟨0, 5⟩, ""⟩, ⟨⟨5, 10⟩, ""⟩] := by decide +kernel
    have sorted : [⟨⟨0, 10⟩, ""⟩, ⟨⟨0, 5⟩, ""⟩, ⟨⟨5, 10⟩, ""⟩].mergeSort performedBefore =
        [⟨⟨5, 10⟩, ""⟩, ⟨⟨0, 10⟩, ""⟩, ⟨⟨0, 5⟩, ""⟩] := by
      simp [List.mergeSort, List.MergeSort.Internal.splitInTwo, performedBefore]
    rw [applyAll?, parts, Option.bind_eq_bind, Option.bind_some, sorted]
    decide +kernel
  exact ⟨done, isGreatest_applied done⟩

end Edit

end ScriptLint
