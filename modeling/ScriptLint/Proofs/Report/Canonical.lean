/-
**The canonical order of a report.**

The files of findings are compared as paths, so two spellings of one path come to the same. Findings that
tie are those with the same key: the components of the path, the offset and the code. Sorting brings the
findings into an order that depends on nothing but the keys, as far as these differ, and it changes
nothing that is counted.

* `Path.compare_eq_iff` — paths tie exactly if they have the same components.
* `Violation.key`, `Violation.ties_iff` — the key of a finding, and ties as equal keys.
* `Violation.inOrder_trans`, `Violation.inOrder_total`, `Violation.inOrder_antisymm_iff` — the order of
  findings is a total preorder, up to equal keys.
* `Report.sort_sort`, `Report.sort_eq_of_perm` — a sorted report stays as it is, and all orders of
  findings with different keys are sorted into one.
* `Report.sort_canonical` — all this, and what sorting leaves alone.
-/

import Mathlib.Data.List.Nodup
import ScriptLint.Proofs.Report.Stable

namespace ScriptLint

/-! ### Paths that tie -/

namespace Path

instance : Std.LawfulEqCmp compareText := by
  have byCode : Std.LawfulEqCmp (compareOn Char.toNat) :=
    ⟨fun same => Char.toNat_inj.mp (Nat.compare_eq_eq.mp same)⟩
  rw [compareText_eq]
  infer_instance

theorem Component.eq_of_text {a b : Component} (rank : a.rank = b.rank) (text : a.text = b.text) :
    a = b := by
  cases a <;> cases b <;> simp_all [Component.rank, Component.text]

instance : Std.LawfulEqCmp Component.compare where
  eq_of_compare := by
    intro a b same
    rw [Component.compare_eq, compareLex, Ordering.then_eq_eq] at same
    exact Component.eq_of_text (Nat.compare_eq_eq.mp same.1)
      (Std.LawfulEqCmp.eq_of_compare same.2)

instance : Std.LawfulEqCmp compareComponents := by
  rw [compareComponents_eq]
  infer_instance

/-- **Paths tie** exactly if they have the same components. -/
theorem compare_eq_iff {a b : String} : Path.compare a b = .eq ↔ components a = components b := by
  show compareComponents (components a) (components b) = .eq ↔ _
  exact Std.LawfulEqCmp.compare_eq_iff_eq

end Path

/-! ### Keys of findings -/

namespace Violation

variable {a b c : Violation}

/-- What a finding is sorted by. -/
def key (violation : Violation) : List Path.Component × Nat × String :=
  (Path.components violation.location.file, violation.location.offset, violation.code)

/-- **Findings tie** exactly if they have the same key. -/
theorem ties_iff : a.ties b = true ↔ a.key = b.key := by
  have codes : Path.compareText a.code.toList b.code.toList = .eq ↔ a.code = b.code := by
    rw [Std.LawfulEqCmp.compare_eq_iff_eq, String.toList_inj]
  rw [ties, beq_iff_eq, Violation.compare, Ordering.then_eq_eq, Ordering.then_eq_eq,
    Path.compare_eq_iff, Nat.compare_eq_eq, codes, key, key, Prod.mk.injEq, Prod.mk.injEq]

theorem inOrder_trans (first : a.InOrder b) (second : b.InOrder c) : a.InOrder c := by
  rw [← isLE_compare_iff] at first second ⊢
  exact Std.TransCmp.isLE_trans first second

theorem inOrder_total (a b : Violation) : a.InOrder b ∨ b.InOrder a := by
  rw [← isLE_compare_iff, ← isLE_compare_iff, ← Bool.or_eq_true]
  exact isLE_total a b

/-- Each of two findings may stand before the other exactly if they have the same key. -/
theorem inOrder_antisymm_iff : a.InOrder b ∧ b.InOrder a ↔ a.key = b.key := by
  constructor
  · rintro ⟨before, behind⟩
    exact ties_iff.mp (ties_of_inOrder before behind)
  · intro same
    have tied : a.ties b = true := ties_iff.mpr same
    exact ⟨inOrder_of_ties a.ties_self tied, inOrder_of_ties tied a.ties_self⟩

end Violation

/-! ### Sorted reports -/

namespace Report

/-- Findings with the same key stay as they were. -/
theorem filter_key_sort (report : Report) (a : Violation) :
    report.sort.violations.filter (fun b => a.key = b.key) =
      report.violations.filter (fun b => a.key = b.key) := by
  have tied : (fun b : Violation => decide (a.key = b.key)) = a.ties := by
    funext b
    rw [Bool.eq_iff_iff, decide_eq_true_eq, Violation.ties_iff]
  rw [tied]
  exact filter_ties_sort report a

theorem sort_sort (report : Report) : report.sort.sort = report.sort := by
  have same : report.sort.sort.violations = report.sort.violations :=
    eq_of_inOrder (sort_inOrder _) (sort_inOrder _) (filter_ties_sort report.sort)
  exact congrArg (Report.mk · report.filesChecked) same

/-- **All orders of findings with different keys** are sorted into one. -/
theorem sort_eq_of_perm {report other : Report} (perm : other.violations.Perm report.violations)
    (distinct : report.violations.Pairwise fun a b => a.key ≠ b.key) :
    other.sort.violations = report.sort.violations := by
  have nodup : (report.violations.map Violation.key).Nodup := List.pairwise_map.mpr distinct
  have mixed : other.sort.violations.Perm report.sort.violations :=
    ((sort_perm other).trans perm).trans (sort_perm report).symm
  refine List.Perm.eq_of_pairwise ?_ (sort_inOrder other) (sort_inOrder report) mixed
  intro a b isFirst isSecond before behind
  have found : a ∈ report.violations := perm.mem_iff.mp ((sort_perm other).mem_iff.mp isFirst)
  have found' : b ∈ report.violations := (sort_perm report).mem_iff.mp isSecond
  exact List.inj_on_of_nodup_map nodup found found'
    (Violation.inOrder_antisymm_iff.mp ⟨before, behind⟩)

/-- **Sorting gives a report its canonical order.** Findings are compared by the components of their
file, then by offset, then by code. This is a total preorder, in which findings are alike exactly if all
three are the same. A sorted report has the findings of the report, in order, and those that are alike as
they were. To sort it once more changes nothing. Any two orders of findings of which no two are alike are
sorted into the same. And the findings with a code, up to their order, the numbers of findings of each
severity, and whether there are errors, or findings of some severity at least, are what they were. -/
theorem sort_canonical (report : Report) :
    ((∀ a b : Violation, (a.compare b).isLE = true ↔ a.InOrder b) ∧
      (∀ a : Violation, a.InOrder a) ∧
      (∀ a b c : Violation, a.InOrder b → b.InOrder c → a.InOrder c) ∧
      (∀ a b : Violation, a.InOrder b ∨ b.InOrder a) ∧
      ∀ a b : Violation, a.InOrder b ∧ b.InOrder a ↔ a.key = b.key) ∧
    (report.sort.violations.Perm report.violations ∧
      report.sort.violations.Pairwise Violation.InOrder ∧
      ∀ a : Violation, report.sort.violations.filter (fun b => a.key = b.key) =
        report.violations.filter (fun b => a.key = b.key)) ∧
    report.sort.sort = report.sort ∧
    (∀ other : Report, other.violations.Perm report.violations →
      (report.violations.Pairwise fun a b => a.key ≠ b.key) →
      other.sort.violations = report.sort.violations) ∧
    (∀ code : String, (report.sort.byCode code).Perm (report.byCode code)) ∧
    (∀ severity : Severity, report.sort.count severity = report.count severity) ∧
    report.sort.hasErrors = report.hasErrors ∧
    ∀ severity : Severity, report.sort.hasAt severity = report.hasAt severity := by
  have perm := sort_perm report
  refine ⟨⟨fun a b => Violation.isLE_compare_iff, fun a => (Violation.inOrder_total a a).elim id id,
      fun a b c => Violation.inOrder_trans, Violation.inOrder_total,
      fun a b => Violation.inOrder_antisymm_iff⟩,
    ⟨perm, sort_inOrder report, filter_key_sort report⟩, sort_sort report,
    fun other => sort_eq_of_perm, fun code => perm.filter _, fun severity => perm.countP_eq _,
    perm.any_eq, fun severity => perm.any_eq⟩

/-- A finding of the rule with the given code. -/
def foundAt (file : String) (offset : Nat) (code : String) : Violation where
  code := code
  rule := "linq-in-update"
  severity := .warning
  location := ⟨file, 1, 1, offset, 0⟩
  message := ""
  suggestion := none

/-- Findings in two files, one of which is spelled in two ways. -/
def scattered : Report :=
  ⟨[foundAt "a-b.cs" 0 "UL004", foundAt "a//b.cs" 9 "UL004", foundAt "a/b.cs" 3 "UL001"], 2⟩

/-- Components decide, although a hyphen comes before a slash. -/
theorem sort_canonical_scattered :
    (foundAt "a//b.cs" 9 "UL004").key = (foundAt "a/./b.cs" 9 "UL004").key ∧
      (foundAt "a//b.cs" 9 "UL004").InOrder (foundAt "a-b.cs" 0 "UL004") ∧
      (scattered.violations.Pairwise fun a b => a.key ≠ b.key) ∧
      (Report.sort ⟨scattered.violations.reverse, 2⟩).violations = scattered.sort.violations := by
  obtain ⟨⟨order, -⟩, -, -, same, -⟩ := sort_canonical scattered
  have distinct : scattered.violations.Pairwise fun a b => a.key ≠ b.key := by decide
  exact ⟨by decide, (order _ _).mp (by decide), distinct, same _ (List.reverse_perm _) distinct⟩

end Report

end ScriptLint
