/-
**Which replacements a batch performs.**

A batch fails only where a text would be cut at a wrong place. When every replacement fits the text at
first, no cut is wrong, whatever has been performed before: all that comes later lies below the last
start, and there the text is still as it was.

* `mapM_eq_some_iff` — a list of computations that all have a result.
* `chosenBy`, `chosen` — of items in their order of performance, and of replacements, those that do not
  meet the one performed last.
* `Stage.perform?_isSome`, `Stage.run_chosen` — one step, and a run, over replacements that fit.
* `IsRemoval` — what goes with a removed node, told by the parts of the text around it.
* `fits_of_removal`, `fits_annotation` — the replacements of edits fit the text.
* `applyAll?_chosen` — the outcome of a batch of replacements that fit.
* `applyAll?_of_fits` — such a batch does not fail, counts every edit, and performs at least one.
-/

import Mathlib.Data.List.Forall2
import ScriptLint.Proofs.Edit.Splice

namespace ScriptLint

/-! ### Computations that all have a result -/

theorem mapM_eq_some_iff {α β : Type} {f : α → Option β} {l : List α} {results : List β} :
    l.mapM f = some results ↔ List.Forall₂ (fun a b => f a = some b) l results := by
  induction l generalizing results with
  | nil => simp [eq_comm]
  | cons a rest ih =>
    simp only [List.mapM_cons, Option.bind_eq_bind, Option.bind_eq_some_iff, Option.pure_def,
      Option.some.injEq, List.forall₂_cons_left_iff, ih]
    constructor
    · rintro ⟨b, first, others, related, rfl⟩
      exact ⟨b, others, first, related, rfl⟩
    · rintro ⟨b, others, first, related, rfl⟩
      exact ⟨b, first, others, related, rfl⟩

theorem mapM_map_eq_some {α β γ : Type} {f : β → Option γ} {g : α → β} {l : List α} (result : α → γ)
    (all : ∀ a ∈ l, f (g a) = some (result a)) : (l.map g).mapM f = some (l.map result) := by
  rw [mapM_eq_some_iff, List.forall₂_map_left_iff, List.forall₂_map_right_iff, List.forall₂_same]
  exact all

theorem exists_mapM {α β : Type} {f : α → Option β} {l : List α}
    (all : ∀ a ∈ l, ∃ b, f a = some b) : ∃ results, l.mapM f = some results := by
  induction l with
  | nil => exact ⟨[], rfl⟩
  | cons a rest ih =>
    obtain ⟨b, first⟩ := all a List.mem_cons_self
    obtain ⟨others, done⟩ := ih fun a member => all a (List.mem_cons_of_mem _ member)
    refine ⟨b :: others, ?_⟩
    rw [List.mapM_cons, first, done]
    rfl

theorem exists_of_mem_mapM {α β : Type} {f : α → Option β} {l : List α} {results : List β}
    (all : l.mapM f = some results) {b : β} (member : b ∈ results) : ∃ a ∈ l, f a = some b := by
  induction mapM_eq_some_iff.mp all with
  | nil => cases member
  | cons first others ih =>
    rcases List.mem_cons.mp member with rfl | member
    · exact ⟨_, List.mem_cons_self, first⟩
    · obtain ⟨a, isIn, found⟩ := ih (mapM_eq_some_iff.mpr others) member
      exact ⟨a, List.mem_cons_of_mem _ isIn, found⟩

theorem exists_result_of_mapM {α β : Type} {f : α → Option β} {l : List α} {results : List β}
    (all : l.mapM f = some results) {a : α} (member : a ∈ l) : ∃ b ∈ results, f a = some b := by
  induction mapM_eq_some_iff.mp all with
  | nil => cases member
  | cons first others ih =>
    rcases List.mem_cons.mp member with rfl | member
    · exact ⟨_, List.mem_cons_self, first⟩
    · obtain ⟨b, isIn, found⟩ := ih (mapM_eq_some_iff.mpr others) member
      exact ⟨b, List.mem_cons_of_mem _ isIn, found⟩

/-! ### The choice -/

namespace Replacement

/-- Of items with replacements, in their order of performance, those that are performed when the last
one before them starts at `floor`. -/
def chosenBy {α : Type} (of : α → Replacement) (floor : Option Nat) : List α → List α
  | [] => []
  | item :: rest =>
    if (of item).clashes floor then chosenBy of floor rest
    else item :: chosenBy of (some (of item).span.start) rest

/-- The same of replacements themselves. -/
def chosen (floor : Option Nat) (replacements : List Replacement) : List Replacement :=
  chosenBy id floor replacements

theorem chosen_nil (floor : Option Nat) : chosen floor [] = [] :=
  rfl

theorem chosen_cons (floor : Option Nat) (r : Replacement) (rest : List Replacement) :
    chosen floor (r :: rest) =
      if r.clashes floor then chosen floor rest else r :: chosen (some r.span.start) rest :=
  rfl

theorem map_chosenBy {α : Type} (of : α → Replacement) (floor : Option Nat) (items : List α) :
    (chosenBy of floor items).map of = chosen floor (items.map of) := by
  induction items generalizing floor with
  | nil => rfl
  | cons item rest ih =>
    rw [chosenBy, List.map_cons, chosen_cons]
    split
    · exact ih floor
    · rw [List.map_cons, ih]

theorem chosenBy_sublist {α : Type} (of : α → Replacement) (floor : Option Nat) (items : List α) :
    (chosenBy of floor items).Sublist items := by
  fun_induction chosenBy of floor items with
  | case1 => exact List.Sublist.refl _
  | case2 floor item rest clash ih => exact ih.cons item
  | case3 floor item rest free ih => exact ih.cons_cons item

theorem chosen_subset (floor : Option Nat) (replacements : List Replacement) :
    chosen floor replacements ⊆ replacements :=
  (chosenBy_sublist id floor replacements).subset

/-- The first replacement is always performed. -/
theorem chosen_none_eq_nil_iff {replacements : List Replacement} :
    chosen none replacements = [] ↔ replacements = [] := by
  cases replacements with
  | nil => simp [chosen_nil]
  | cons r rest => simp [chosen_cons, clashes]

end Replacement

namespace Edit

open Replacement

/-! ### Steps and runs -/

section Step

variable {original before after : List Char} {progress : Progress}
  {kept skipped : List Replacement} {r : Replacement}

/-- **A replacement that fits and does not clash** can be performed: it lies where the text is still
as it was. -/
theorem Stage.perform?_isSome (stage : Stage original progress before after kept skipped)
    (free : r.clashes progress.floor = false) (fits : r.Fits original) :
    ∃ text, r.perform? progress.text = some text := by
  obtain ⟨head, middle, tail, original_eq, start, stop⟩ := fits
  have below : r.span.stop ≤ Text.size before := by
    cases isFloor : progress.floor with
    | none =>
      obtain ⟨rfl, -⟩ := stage.floor_none isFloor
      have whole := congrArg Text.size (stage.original_eq.symm.trans original_eq)
      simp only [Text.size_append, Text.size_nil] at whole
      omega
    | some floor =>
      obtain ⟨rfl, -⟩ := stage.floor_some floor isFloor
      simp only [clashes, isFloor, Bool.or_eq_false_iff, decide_eq_false_iff_not] at free
      omega
  obtain ⟨gap, before_eq, -⟩ := Text.exists_append_of_size_le
    (original_eq.symm.trans stage.original_eq) (by rw [Text.size_append]; omega)
  obtain ⟨above, text_eq⟩ : ∃ above, progress.text = head ++ middle ++ above := by
    refine ⟨gap ++ spliceFrom kept (Text.size before) after, ?_⟩
    rw [stage.text_eq, before_eq]
    simp only [List.append_assoc]
  refine ⟨_, perform?_eq_some_iff.mpr ⟨head, middle ++ above, head ++ middle, above, ?_, text_eq,
    start.symm, ?_, rfl⟩⟩
  · rw [text_eq, List.append_assoc]
  · rw [Text.size_append]
    omega

end Step

/-- **A run over replacements that fit** performs those that are chosen. -/
theorem Stage.run_chosen {original : List Char} {remaining : List Replacement}
    (falling : remaining.Pairwise fun a b => b.span.start ≤ a.span.start)
    (fits : ∀ r ∈ remaining, r.Fits original) :
    ∀ {progress : Progress} {before after : List Char} {kept skipped : List Replacement},
      Stage original progress before after kept skipped →
      (∀ k ∈ kept, ∀ r ∈ remaining, r.span.start ≤ k.span.start) →
      ∃ last before' after' skipped', remaining.foldlM Progress.step? progress = some last ∧
        Stage original last before' after' ((chosen progress.floor remaining).reverse ++ kept)
          skipped' ∧
        (chosen progress.floor remaining).length + skipped'.length =
          remaining.length + skipped.length := by
  induction remaining with
  | nil =>
    intro progress before after kept skipped stage _
    exact ⟨progress, before, after, skipped, rfl, stage, rfl⟩
  | cons r rest ih =>
    intro progress before after kept skipped stage behind
    obtain ⟨first, falling⟩ := List.pairwise_cons.mp falling
    have fitsRest : ∀ s ∈ rest, s.Fits original :=
      fun s member => fits s (List.mem_cons_of_mem r member)
    have behindRest : ∀ k ∈ kept, ∀ s ∈ rest, s.span.start ≤ k.span.start :=
      fun k isKept s member => behind k isKept s (List.mem_cons_of_mem r member)
    rw [List.foldlM_cons, Progress.step?, chosen_cons]
    cases clash : r.clashes progress.floor with
    | true =>
      have skip := stage.skip clash fun k isKept => behind k isKept r List.mem_cons_self
      obtain ⟨last, before', after', skipped', ran, stage', count⟩ :=
        ih falling fitsRest skip behindRest
      refine ⟨last, before', after', skipped', ran, stage', ?_⟩
      simp only [if_true, List.length_cons] at count ⊢
      omega
    | false =>
      have rFits := fits r List.mem_cons_self
      have ordered : r.span.start ≤ r.span.stop := by
        obtain ⟨head, middle, tail, -, start, stop⟩ := rFits
        omega
      obtain ⟨text, performed⟩ := stage.perform?_isSome clash rFits
      obtain ⟨head, tail, performing⟩ := stage.perform clash ordered performed
      have behind' : ∀ k ∈ r :: kept, ∀ s ∈ rest, s.span.start ≤ k.span.start := by
        intro k isKept s member
        rcases List.mem_cons.mp isKept with rfl | isKept
        · exact first s member
        · exact behindRest k isKept s member
      obtain ⟨last, before', after', skipped', ran, stage', count⟩ :=
        ih falling fitsRest performing behind'
      refine ⟨last, before', after', skipped', ?_, ?_, ?_⟩
      · simpa [performed] using ran
      · simpa using stage'
      · simp only [Bool.false_eq_true, if_false, List.length_cons] at count ⊢
        omega

/-! ### The replacements of edits -/

/-- What a removal takes out of a text: the node, blanks of its line on both sides of it, and at most
one newline. -/
structure IsRemoval (text : List Char) (target span : Span)
    (earlier head node tail ending later : List Char) : Prop where
  text_eq : text = earlier ++ head ++ node ++ tail ++ ending ++ later
  target_eq : clamp (Text.size text) target =
    ⟨Text.size (earlier ++ head), Text.size (earlier ++ head ++ node)⟩
  span_eq : span = ⟨Text.size earlier, Text.size (earlier ++ head ++ node ++ tail ++ ending)⟩
  head_blank : ∀ c ∈ head, Text.isBlank c = true ∧ c ≠ '\n'
  tail_blank : ∀ c ∈ tail, Text.isBlank c = true ∧ c ≠ '\n'
  ending_eq : ending = [] ∨ ending = ['\n']
  /-- It takes whole lines, or nothing but the node and blanks behind it. -/
  shape : Text.WholeLines earlier ∨ (head = [] ∧ ending = [])

/-- **A removal** has cut the text around its node. -/
theorem exists_isRemoval {text : List Char} {target : Span} {r : Replacement}
    (found : (Edit.remove target).replacement? text = some r) :
    r.newText = "" ∧ ∃ earlier head node tail ending later,
      IsRemoval text target r.span earlier head node tail ending later := by
  simp only [replacement?, removalSpan?, Option.bind_eq_bind, Option.bind_eq_some_iff,
    Option.pure_def, Option.some.injEq, Prod.exists, Text.cut?_eq_some_iff] at found
  obtain ⟨span, ⟨before, rest, ⟨cutStart, start⟩, untilStop, after, ⟨cutStop, stop⟩, rfl⟩, rfl⟩ :=
    found
  refine ⟨rfl, ?_⟩
  have ordered : (clamp (Text.size text) target).start ≤ (clamp (Text.size text) target).stop :=
    Nat.le_max_left _ _
  obtain ⟨node, rfl, -⟩ :=
    Text.exists_append_of_size_le (cutStart.symm.trans cutStop) (by omega)
  have target_eq : clamp (Text.size text) target =
      ⟨Text.size before, Text.size (before ++ node)⟩ := by
    rw [start, stop]
  rw [target_eq]
  unfold removalSpan
  dsimp only
  split
  next alone =>
    obtain ⟨headBlank, tailBlank⟩ := (Bool.and_eq_true _ _).mp alone
    obtain ⟨earlier, before_eq, whole⟩ := Text.exists_lastLine before
    obtain ⟨ending, later, after_eq, ending_eq, ending_size⟩ := Text.exists_firstLine after
    set lineHead := before.reverse.takeWhile (· != '\n')
    set lineTail := after.takeWhile (· != '\n')
    refine ⟨earlier, lineHead.reverse, node, lineTail, ending, later, ?_⟩
    have inHead : ∀ c ∈ lineHead.reverse, Text.isBlank c = true ∧ c ≠ '\n' := by
      intro c member
      rw [List.mem_reverse] at member
      exact ⟨List.all_eq_true.mp headBlank c member, by
        simpa using List.all_eq_true.mp List.all_takeWhile c member⟩
    have inTail : ∀ c ∈ lineTail, Text.isBlank c = true ∧ c ≠ '\n' := by
      intro c member
      exact ⟨List.all_eq_true.mp tailBlank c member, by
        simpa using List.all_eq_true.mp List.all_takeWhile c member⟩
    have sizes := congrArg Text.size before_eq
    rw [Text.size_append, Text.size_reverse] at sizes
    refine ⟨?_, by rw [target_eq, ← before_eq], ?_, inHead, inTail, ending_eq, .inl whole⟩
    · rw [cutStop, ← before_eq]
      nth_rewrite 1 [after_eq]
      simp only [List.append_assoc]
    · rw [← before_eq, ← ending_size]
      simp only [Text.size_append, Span.mk.injEq, and_true]
      omega
  next =>
    set blanks := after.takeWhile fun c => c == ' ' || c == '\t'
    refine ⟨before, [], node, blanks, [], after.dropWhile fun c => c == ' ' || c == '\t', ?_⟩
    have inBlanks : ∀ c ∈ blanks, Text.isBlank c = true ∧ c ≠ '\n' := by
      intro c member
      have isBlank := List.all_eq_true.mp List.all_takeWhile c member
      rcases (Bool.or_eq_true _ _).mp isBlank with space | tab
      · obtain rfl := beq_iff_eq.mp space
        decide
      · obtain rfl := beq_iff_eq.mp tab
        decide
    refine ⟨?_, by rw [target_eq, List.append_nil], ?_, by simp, inBlanks, .inl rfl,
      .inr ⟨rfl, rfl⟩⟩
    · rw [cutStop, List.append_nil, List.append_nil, List.append_assoc _ blanks,
        List.takeWhile_append_dropWhile]
    · rw [List.append_nil, List.append_nil, Text.size_append _ blanks]

theorem IsRemoval.fits {text : List Char} {target : Span} {r : Replacement}
    {earlier head node tail ending later : List Char}
    (removal : IsRemoval text target r.span earlier head node tail ending later) : r.Fits text := by
  refine ⟨earlier, head ++ node ++ tail ++ ending, later, ?_, by rw [removal.span_eq], ?_⟩
  · rw [removal.text_eq]
    simp only [List.append_assoc]
  · rw [removal.span_eq]
    simp only [Text.size_append]
    omega

/-- **A removal** fits the text wherever it has a replacement. -/
theorem fits_of_removal {text : List Char} {target : Span} {r : Replacement}
    (found : (Edit.remove target).replacement? text = some r) : r.Fits text := by
  obtain ⟨-, _, _, _, _, _, _, removal⟩ := exists_isRemoval found
  exact removal.fits

/-- **An annotation** fits the text wherever its place is one to cut the text at. -/
theorem fits_annotation {text before after : List Char} {target : Span} (comment : String)
    (text_eq : text = before ++ after) (place : Text.size before = target.start) :
    Replacement.Fits text ⟨⟨target.start, target.start⟩, comment ++ " "⟩ :=
  ⟨before, [], after, by rw [text_eq, List.append_nil], place.symm, place.symm⟩

/-! ### Batches -/

/-- **A batch of replacements that fit** performs those that are chosen, and counts the others. -/
theorem applyAll?_chosen {text : String} {edits : List Edit} {replacements : List Replacement}
    (found : edits.mapM (replacement? text.toList) = some replacements)
    (fits : ∀ r ∈ replacements, r.Fits text.toList) :
    ∃ outcome, applyAll? text edits = some outcome ∧
      outcome.text.toList =
        splice (chosen none (replacements.mergeSort performedBefore)) text.toList ∧
      outcome.applied = (chosen none (replacements.mergeSort performedBefore)).length ∧
      outcome.applied + outcome.skipped = edits.length := by
  have sorted := List.mergeSort_perm replacements performedBefore
  obtain ⟨last, before, after, skipped, ran, stage, count⟩ :=
    Stage.run_chosen (pairwise_start_mergeSort replacements)
      (fun r member => fits r (sorted.mem_iff.mp member)) (Stage.start text.toList) (by simp)
  rw [List.append_nil] at stage
  refine ⟨⟨String.ofList last.text, last.applied, last.skipped⟩, ?_, ?_, ?_, ?_⟩
  · rw [applyAll?, found]
    simp [ran]
  · have apart : (chosen none (replacements.mergeSort performedBefore)).reverse.Pairwise
        fun a b => a.span.start ≠ b.span.start :=
      stage.compatible.imp fun pair => pair.1
    rw [String.toList_ofList, ← splice_perm (List.reverse_perm _) apart, splice, stage.text_eq,
      stage.original_eq, spliceFrom_append before after fun k member => by
        have := stage.above k member
        omega, Nat.zero_add]
  · rw [stage.applied_eq, List.length_reverse]
  · have lengths := (replacements_of_mapM found).1
    rw [stage.applied_eq, stage.skipped_eq, List.length_reverse, count, List.length_mergeSort,
      lengths]
    rfl

/-- **A batch of edits that fit** does not fail. It counts every edit, and performs one unless there
is none. -/
theorem applyAll?_of_fits {text : String} {edits : List Edit} {replacements : List Replacement}
    (found : edits.mapM (replacement? text.toList) = some replacements)
    (fits : ∀ r ∈ replacements, r.Fits text.toList) :
    ∃ outcome, applyAll? text edits = some outcome ∧
      outcome.applied + outcome.skipped = edits.length ∧ (outcome.applied = 0 ↔ edits = []) := by
  obtain ⟨outcome, done, -, applied, count⟩ := applyAll?_chosen found fits
  refine ⟨outcome, done, count, ?_⟩
  have lengths := (replacements_of_mapM found).1
  rw [applied, List.length_eq_zero_iff, chosen_none_eq_nil_iff, ← List.length_eq_zero_iff,
    List.length_mergeSort, lengths, List.length_eq_zero_iff]

end Edit

end ScriptLint
