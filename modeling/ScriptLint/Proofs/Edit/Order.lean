/-
**The order in which a batch gets its edits does not matter.**

A batch sorts its replacements before it performs them. Edits that tie keep the order in which they
came, and the first of them may push the others aside. But edits tie only if their replacements have
one span, so where one span always gets one text they are the same replacement.

* `exists_perm_mapM` — computations in another order have their results in another order.
* `Alike` — edits of a batch whose replacements have one span put one text there.
* `span_eq_of_performedBefore` — replacements that tie have one span.
* `mergeSort_eq_of_perm` — so the order of performance is the same for every order of the batch.
* `applyAll?_perm` — and so is the outcome.
-/

import Mathlib.Data.List.Perm.Basic
import ScriptLint.Proofs.Edit.Choice

namespace ScriptLint

theorem exists_perm_mapM {α β : Type} {f : α → Option β} {l other : List α} {results : List β}
    (same : l.Perm other) (all : l.mapM f = some results) :
    ∃ others, other.mapM f = some others ∧ others.Perm results := by
  obtain ⟨others, related, perm⟩ :=
    List.perm_comp_forall₂ same.symm (mapM_eq_some_iff.mp all)
  exact ⟨others, mapM_eq_some_iff.mpr related, perm⟩

namespace Replacement

theorem span_eq_of_performedBefore {a b : Replacement} (first : performedBefore a b = true)
    (second : performedBefore b a = true) : a.span = b.span := by
  simp only [performedBefore, Bool.or_eq_true, Bool.and_eq_true, decide_eq_true_eq, beq_iff_eq]
    at first second
  have start : a.span.start = b.span.start := by omega
  have stop : a.span.stop = b.span.stop := by omega
  calc a.span = ⟨a.span.start, a.span.stop⟩ := rfl
    _ = ⟨b.span.start, b.span.stop⟩ := by rw [start, stop]

/-- **The order of performance** is the same for every order of the replacements, if one span gets one
text. -/
theorem mergeSort_eq_of_perm {replacements others : List Replacement}
    (same : replacements.Perm others)
    (alike : ∀ a ∈ replacements, ∀ b ∈ replacements, a.span = b.span → a.newText = b.newText) :
    replacements.mergeSort performedBefore = others.mergeSort performedBefore := by
  have sorted := List.mergeSort_perm replacements performedBefore
  have sortedOthers := List.mergeSort_perm others performedBefore
  have antisymm : ∀ a b, a ∈ replacements.mergeSort performedBefore →
      b ∈ others.mergeSort performedBefore → performedBefore a b = true →
      performedBefore b a = true → a = b := by
    intro a b isFirst isSecond before behind
    have isFirst := sorted.mem_iff.mp isFirst
    have isSecond := same.mem_iff.mpr (sortedOthers.mem_iff.mp isSecond)
    have span_eq := span_eq_of_performedBefore before behind
    have text_eq := alike a isFirst b isSecond span_eq
    calc a = ⟨a.span, a.newText⟩ := rfl
      _ = ⟨b.span, b.newText⟩ := by rw [span_eq, text_eq]
  exact List.Perm.eq_of_pairwise antisymm
    (List.pairwise_mergeSort performedBefore_trans performedBefore_total replacements)
    (List.pairwise_mergeSort performedBefore_trans performedBefore_total others)
    (sorted.trans (same.trans sortedOthers.symm))

end Replacement

namespace Edit

open Replacement

/-- Edits of the batch whose replacements have one span put one text there. -/
def Alike (text : List Char) (edits : List Edit) : Prop :=
  ∀ a ∈ edits, ∀ b ∈ edits, ∀ r ∈ a.replacement? text, ∀ s ∈ b.replacement? text,
    r.span = s.span → r.newText = s.newText

instance (text : List Char) (edits : List Edit) : Decidable (Alike text edits) :=
  inferInstanceAs (Decidable (∀ _ ∈ _, ∀ _ ∈ _, ∀ _ ∈ _, ∀ _ ∈ _, _ → _))

/-- **The outcome does not depend on the order of the batch**: neither the text, nor the number of
edits performed or skipped, nor whether the batch fails. -/
theorem applyAll?_perm (text : String) {edits others : List Edit} (same : edits.Perm others)
    (alike : Alike text.toList edits) : applyAll? text edits = applyAll? text others := by
  cases found : edits.mapM (replacement? text.toList) with
  | none =>
    have missing : others.mapM (replacement? text.toList) = none := by
      by_contra present
      obtain ⟨results, all⟩ := Option.ne_none_iff_exists'.mp present
      obtain ⟨_, all, -⟩ := exists_perm_mapM same.symm all
      rw [found] at all
      cases all
    rw [applyAll?, applyAll?, found, missing]
  | some replacements =>
    obtain ⟨results, all, perm⟩ := exists_perm_mapM same found
    have oneText : ∀ a ∈ replacements, ∀ b ∈ replacements, a.span = b.span →
        a.newText = b.newText := by
      intro a isFirst b isSecond
      obtain ⟨edit, isEdit, isReplacement⟩ := exists_of_mem_mapM found isFirst
      obtain ⟨other, isOther, isReplacement'⟩ := exists_of_mem_mapM found isSecond
      exact alike edit isEdit other isOther a isReplacement b isReplacement'
    rw [applyAll?, applyAll?, found, all, Option.bind_eq_bind, Option.bind_some,
      Option.bind_eq_bind, Option.bind_some, mergeSort_eq_of_perm perm.symm oneText]

/-- Two ways to remove one line, and two calls with one start that get one comment. -/
theorem applyAll?_perm_tied :
    let edits := [remove ⟨2, 6⟩, annotate ⟨7, 10⟩ "/* a */", remove ⟨0, 6⟩,
      annotate ⟨7, 20⟩ "/* a */"]
    Alike "  F();\nG().H();\n".toList edits ∧
      applyAll? "  F();\nG().H();\n" edits = some ⟨"/* a */ G().H();\n", 2, 2⟩ ∧
      applyAll? "  F();\nG().H();\n" edits.reverse = some ⟨"/* a */ G().H();\n", 2, 2⟩ := by
  intro edits
  have alike : Alike "  F();\nG().H();\n".toList edits := by decide +kernel
  have done : applyAll? "  F();\nG().H();\n" edits = some ⟨"/* a */ G().H();\n", 2, 2⟩ := by
    have parts : edits.mapM (replacement? "  F();\nG().H();\n".toList) =
        some [⟨⟨0, 7⟩, ""⟩, ⟨⟨7, 7⟩, "/* a */ "⟩, ⟨⟨0, 7⟩, ""⟩, ⟨⟨7, 7⟩, "/* a */ "⟩] := by
      decide +kernel
    have sorted : [⟨⟨0, 7⟩, ""⟩, ⟨⟨7, 7⟩, "/* a */ "⟩, ⟨⟨0, 7⟩, ""⟩,
        ⟨⟨7, 7⟩, "/* a */ "⟩].mergeSort performedBefore =
        [⟨⟨7, 7⟩, "/* a */ "⟩, ⟨⟨7, 7⟩, "/* a */ "⟩, ⟨⟨0, 7⟩, ""⟩, ⟨⟨0, 7⟩, ""⟩] := by
      simp [List.mergeSort, List.MergeSort.Internal.splitInTwo, performedBefore]
    rw [applyAll?, parts, Option.bind_eq_bind, Option.bind_some, sorted]
    decide +kernel
  refine ⟨alike, done, ?_⟩
  rw [← applyAll?_perm "  F();\nG().H();\n" edits.reverse_perm.symm alike, done]

end Edit

end ScriptLint
