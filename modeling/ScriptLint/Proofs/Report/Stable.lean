/-
**Sorting a report is stable.**

Findings that tie, by file, offset and code, keep the order in which they were found. A list in order is
determined by its ties, and so whatever respects the ties may be done before sorting or after it.

* `Violation.ties` — neither of two findings has to stand before the other.
* `eq_of_inOrder` — two lists in order with the same ties are the same list.
* `Report.filter_ties_sort` — sorting keeps findings that tie as they were.
* `Report.sort_keep` — to sort a part of the findings is to take that part of the sorted ones.
-/

import Mathlib.Data.List.Basic
import ScriptLint.Proofs.Report.Order

namespace ScriptLint

namespace Violation

/-- Neither finding has to stand before the other. -/
def ties (a b : Violation) : Bool :=
  a.compare b == .eq

theorem ties_self (a : Violation) : a.ties a = true :=
  beq_iff_eq.mpr Std.ReflCmp.compare_self

theorem ties_of_inOrder {a b : Violation} (before : a.InOrder b) (behind : b.InOrder a) :
    a.ties b = true := by
  have swap : b.compare a = (a.compare b).swap := Std.OrientedCmp.eq_swap
  rw [← isLE_compare_iff] at before behind
  rw [swap] at behind
  rw [ties]
  cases order : a.compare b with
  | lt =>
    rw [order] at behind
    cases behind
  | eq => rfl
  | gt =>
    rw [order] at before
    cases before

/-- Two findings that tie with a third may stand in either order. -/
theorem inOrder_of_ties {a b c : Violation} (first : a.ties b = true) (second : a.ties c = true) :
    b.InOrder c := by
  rw [ties, beq_iff_eq] at first second
  have swap : b.compare a = (a.compare b).swap := Std.OrientedCmp.eq_swap
  have back : (b.compare a).isLE = true := by
    rw [swap, first]
    rfl
  have forth : (a.compare c).isLE = true := by
    rw [second]
    rfl
  exact isLE_compare_iff.mp (Std.TransCmp.isLE_trans back forth)

end Violation

/-- Lists with the same ties have the same members. -/
theorem mem_iff_of_ties {found other : List Violation}
    (same : ∀ a : Violation, found.filter a.ties = other.filter a.ties) (a : Violation) :
    a ∈ found ↔ a ∈ other := by
  have tied : ∀ l : List Violation, a ∈ l ↔ a ∈ l.filter a.ties := by
    intro l
    rw [List.mem_filter, and_iff_left a.ties_self]
  rw [tied found, same a, ← tied other]

/-- **A list in order is determined by its ties.** -/
theorem eq_of_inOrder {found other : List Violation} (sorted : found.Pairwise Violation.InOrder)
    (sorted' : other.Pairwise Violation.InOrder)
    (same : ∀ a : Violation, found.filter a.ties = other.filter a.ties) : found = other := by
  induction found generalizing other with
  | nil =>
    refine (List.eq_nil_iff_forall_not_mem.mpr fun a member => ?_).symm
    cases (mem_iff_of_ties same a).mpr member
  | cons a rest ih =>
    cases other with
    | nil => cases (mem_iff_of_ties same a).mp List.mem_cons_self
    | cons b rest' =>
      obtain ⟨first, sortedRest⟩ := List.pairwise_cons.mp sorted
      obtain ⟨first', sortedRest'⟩ := List.pairwise_cons.mp sorted'
      -- Each head is a member of the other list, and so they tie; then they head the same ties.
      have tied : a.ties b = true := by
        rcases List.mem_cons.mp ((mem_iff_of_ties same a).mp List.mem_cons_self) with rfl | behind
        · exact a.ties_self
        · rcases List.mem_cons.mp ((mem_iff_of_ties same b).mpr List.mem_cons_self) with
            rfl | behind'
          · exact b.ties_self
          · exact Violation.ties_of_inOrder (first b behind') (first' a behind)
      have heads := same a
      rw [List.filter_cons_of_pos a.ties_self, List.filter_cons_of_pos tied] at heads
      obtain ⟨rfl, -⟩ := List.cons.inj heads
      congr 1
      refine ih sortedRest sortedRest' fun c => ?_
      have both := same c
      rw [List.filter_cons, List.filter_cons] at both
      split at both
      · exact (List.cons.inj both).2
      · exact both

namespace Report

/-- **Sorting is stable**: findings that tie stay as they were. -/
theorem filter_ties_sort (report : Report) (a : Violation) :
    report.sort.violations.filter a.ties = report.violations.filter a.ties := by
  have alike : (report.violations.filter a.ties).Pairwise
      fun b c => (b.compare c).isLE = true := by
    refine List.pairwise_of_forall_mem_list fun b isFirst c isSecond => ?_
    exact Violation.isLE_compare_iff.mpr (Violation.inOrder_of_ties
      (List.mem_filter.mp isFirst).2 (List.mem_filter.mp isSecond).2)
  have kept : (report.violations.filter a.ties).Sublist report.sort.violations :=
    List.sublist_mergeSort (fun _ _ _ => Std.TransCmp.isLE_trans) Violation.isLE_total alike
      List.filter_sublist
  have filtered := kept.filter a.ties
  rw [List.filter_filter] at filtered
  simp only [Bool.and_self] at filtered
  refine (filtered.eq_of_length ?_).symm
  exact ((sort_perm report).filter _).length_eq.symm

/-- The report with only those findings that are wanted. -/
def keep (report : Report) (wanted : Violation → Bool) : Report :=
  { report with violations := report.violations.filter wanted }

/-- **A part of the findings may be taken before sorting or after it.** -/
theorem sort_keep (report : Report) (wanted : Violation → Bool) :
    (report.keep wanted).sort = report.sort.keep wanted := by
  have same : (report.keep wanted).sort.violations = report.sort.violations.filter wanted := by
    refine eq_of_inOrder (sort_inOrder _) ((sort_inOrder report).filter _) fun a => ?_
    calc (report.keep wanted).sort.violations.filter a.ties
        = (report.violations.filter wanted).filter a.ties := filter_ties_sort _ a
      _ = (report.violations.filter a.ties).filter wanted := List.filter_comm _ _ _
      _ = (report.sort.violations.filter a.ties).filter wanted := by rw [filter_ties_sort]
      _ = (report.sort.violations.filter wanted).filter a.ties := List.filter_comm _ _ _
  exact congrArg (Report.mk · report.filesChecked) same

end Report

end ScriptLint
