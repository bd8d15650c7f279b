/-
**The order of findings.**

Findings are compared by the path of their file, component by component, then by offset, then by code.
Each of these comparisons is one of the library's: lexicographic on lists, or on a key. So the whole is
a total preorder, and sorting by it works.

* `Path.compareText_eq`, `Path.compareComponents_eq` — the comparisons of texts and of component lists
  are lexicographic.
* `Violation.compare_eq` — the comparison of findings, put together from comparisons of keys.
* `Violation.InOrder` — one finding may stand before another.
* `Report.sort_perm`, `Report.sort_inOrder` — a sorted report has the same findings, in order.
-/

import ScriptLint.Report

namespace ScriptLint

namespace Path

theorem compareText_eq :
    compareText = List.compareLex (compareOn Char.toNat) := by
  funext s t
  induction s generalizing t with
  | nil => cases t <;> rfl
  | cons a s ih =>
    cases t with
    | nil => rfl
    | cons b t =>
      rw [compareText, ih, List.compareLex_cons_cons]
      rfl

theorem compareComponents_eq : compareComponents = List.compareLex Component.compare := by
  funext s t
  induction s generalizing t with
  | nil => cases t <;> rfl
  | cons a s ih =>
    cases t with
    | nil => rfl
    | cons b t =>
      rw [compareComponents, ih, List.compareLex_cons_cons]

instance : Std.TransCmp compareText := by
  rw [compareText_eq]
  infer_instance

/-- The text of a name; no other component has one. -/
def Component.text : Component → List Char
  | name text => text
  | _ => []

theorem Component.compare_eq :
    Component.compare =
      compareLex (compareOn Component.rank) fun a b => compareText a.text b.text := by
  funext a b
  cases a <;> cases b <;> rfl

end Path

/-- A comparison of keys is as good as the comparison that it takes. -/
theorem transCmp_on {α β : Type} (key : α → β) (cmp : β → β → Ordering) [Std.TransCmp cmp] :
    Std.TransCmp fun a b => cmp (key a) (key b) where
  eq_swap := Std.OrientedCmp.eq_swap
  isLE_trans := Std.TransCmp.isLE_trans

namespace Path

instance : Std.TransCmp Component.compare := by
  have byText : Std.TransCmp fun a b : Component => compareText a.text b.text :=
    transCmp_on Component.text compareText
  rw [Component.compare_eq]
  infer_instance

instance : Std.TransCmp compareComponents := by
  rw [compareComponents_eq]
  infer_instance

instance : Std.TransCmp Path.compare :=
  transCmp_on components compareComponents

end Path

namespace Violation

theorem compare_eq :
    Violation.compare =
      compareLex (fun a b => Path.compare a.location.file b.location.file)
        (compareLex (compareOn (·.location.offset))
          fun a b => Path.compareText a.code.toList b.code.toList) :=
  rfl

instance : Std.TransCmp Violation.compare := by
  have byFile := transCmp_on (fun a : Violation => a.location.file) Path.compare
  have byCode := transCmp_on (fun a : Violation => a.code.toList) Path.compareText
  rw [compare_eq]
  infer_instance

/-- Of two findings one may stand before the other. -/
theorem isLE_total (a b : Violation) : ((a.compare b).isLE || (b.compare a).isLE) = true := by
  have swap : b.compare a = (a.compare b).swap := Std.OrientedCmp.eq_swap
  rw [swap]
  cases a.compare b <;> rfl

/-- The finding may stand before the other: its file comes first or, in one file, its offset, or, at
one offset, its code comes first or is the same. -/
def InOrder (a b : Violation) : Prop :=
  Path.compare a.location.file b.location.file = .lt ∨
    Path.compare a.location.file b.location.file = .eq ∧
      (a.location.offset < b.location.offset ∨
        a.location.offset = b.location.offset ∧
          Path.compareText a.code.toList b.code.toList ≠ .gt)

theorem isLE_compare_iff {a b : Violation} : (a.compare b).isLE = true ↔ a.InOrder b := by
  unfold Violation.compare InOrder
  cases Path.compare a.location.file b.location.file with
  | lt => simp
  | gt => simp
  | eq =>
    rw [Ordering.eq_then]
    rcases Nat.lt_trichotomy a.location.offset b.location.offset with earlier | same | later
    · rw [Nat.compare_eq_lt.mpr earlier]
      simp [earlier]
    · rw [Nat.compare_eq_eq.mpr same]
      simp [same, Ordering.isLE_iff_ne_gt]
    · rw [Nat.compare_eq_gt.mpr later]
      have := Nat.lt_asymm later
      simp [this, Nat.ne_of_gt later]

end Violation

namespace Report

theorem sort_perm (report : Report) : report.sort.violations.Perm report.violations :=
  List.mergeSort_perm _ _

/-- **A sorted report is in order.** -/
theorem sort_inOrder (report : Report) :
    report.sort.violations.Pairwise Violation.InOrder := by
  have sorted : report.sort.violations.Pairwise fun a b => (a.compare b).isLE = true :=
    List.pairwise_mergeSort (fun _ _ _ => Std.TransCmp.isLE_trans) Violation.isLE_total
      report.violations
  exact sorted.imp Violation.isLE_compare_iff.mp

end Report

end ScriptLint
