/-
**Checking and fixing agree.**

A report says which replacement would repair a finding; a fixing run performs edits. Both come from
one inspection of the scripts, and so the one is a promise of the other.

* `Inspected.replacements` — the replacements that the findings in a script carry.
* `Inspected.Sound`, `inspect_sound` — these are the replacements of the script's edits, and all of
  them fit its text.
* `FixedScript.IsFixOf` — the script that the edits of an inspected one make of it.
* `fixed?_of_sound`, `mapM_fixed?_of_sound` — sound edits do not fail, in one script and in all.
* `fix_agrees` — a fixing run has the report of a checking run, and performs what that report shows.
-/

import Mathlib.Algebra.GroupWithZero.Nat
import ScriptLint.Ban.Selection
import ScriptLint.Proofs.Linter.Inspect

namespace ScriptLint

/-- The replacements that the findings in a script carry. -/
def Inspected.replacements (result : Inspected) : List Replacement :=
  result.violations.filterMap Violation.replacement?

/-- The findings in a script carry the replacements of its edits, and these fit its text. -/
structure Inspected.Sound (result : Inspected) : Prop where
  edits : result.edits.mapM (Edit.replacement? result.text.toList) = some result.replacements
  fits : ∀ r ∈ result.replacements, r.Fits result.text.toList

/-- The script is what its edits make of an inspected one. -/
structure FixedScript.IsFixOf (file : FixedScript) (result : Inspected) : Prop where
  path : file.path = result.path
  outcome : Edit.applyAll? result.text result.edits =
    some ⟨file.text, file.applied, file.skipped⟩
  changed : 0 < file.applied
  count : file.applied + file.skipped = result.replacements.length

namespace Linter

variable {linter : Linter} {bans : List Ban}

/-- **What bans find in a script is sound**, whenever the flag gets set. -/
theorem inspect_sound {path : String} {script : Script} {watch : Watch} {result : Inspected}
    (inspected : ((linter.withBans bans).inspect path script watch).1 = some result) :
    result.Sound := by
  unfold inspect at inspected
  dsimp only at inspected
  split at inspected
  · cases inspected
    exact ⟨rfl, by simp [Inspected.replacements]⟩
  · obtain ⟨reported, concluded, rfl⟩ := Option.map_eq_some_iff.mp inspected
    have attached : ∀ r ∈ reported, Attached script.outline.text.toList r := by
      intro r member
      obtain ⟨⟨rule, violation⟩, found, done⟩ := exists_of_mem_mapM concluded member
      obtain ⟨isRule, watch', checked⟩ := mem_findings found
      obtain ⟨ban, -, rfl⟩ := List.mem_map.mp isRule
      exact conclude?_attached (Ban.replacement?_of_mem_check checked) done
    obtain ⟨edits, fits⟩ := mapM_replacement?_of_attached attached
    exact ⟨edits, fits⟩

theorem run_sound {schedule : Schedule} {sources : List Source} {results : List Inspected}
    (ran : (linter.withBans bans).run schedule sources = .ok results) :
    ∀ result ∈ results, result.Sound := by
  intro result member
  obtain ⟨-, -, -, all⟩ := run_eq_ok_iff.mp ran
  obtain ⟨inspected, isInspected, found⟩ := exists_of_mem_mapM all member
  rw [inspectAll, List.mem_map] at isInspected
  obtain ⟨⟨⟨path, outline⟩, place⟩, -, rfl⟩ := isInspected
  exact inspect_sound found

/-! ### Fixing -/

/-- **Sound edits do not fail**, and change the script unless there is none. -/
theorem fixed?_of_sound {result : Inspected} (sound : result.Sound) :
    ∃ file, fixed? result = .ok file ∧
      (result.replacements = [] → file = none) ∧
      (result.replacements ≠ [] → ∃ script, file = some script ∧ script.IsFixOf result) := by
  obtain ⟨outcome, done, count, none_iff⟩ := Edit.applyAll?_of_fits sound.edits sound.fits
  have length_eq := (Edit.replacements_of_mapM sound.edits).1
  rw [← List.length_eq_zero_iff, ← length_eq, List.length_eq_zero_iff] at none_iff
  rw [← length_eq] at count
  unfold fixed?
  rw [done]
  refine ⟨_, rfl, fun empty => if_pos (none_iff.mpr empty), fun some => ?_⟩
  have changed : outcome.applied ≠ 0 := fun none => some (none_iff.mp none)
  exact ⟨_, if_neg changed, ⟨rfl, done, Nat.pos_of_ne_zero changed, count⟩⟩

theorem mapM_fixed?_of_sound {results : List Inspected} (sound : ∀ r ∈ results, r.Sound) :
    ∃ files, results.mapM fixed? = .ok files ∧
      List.Forall₂ FixedScript.IsFixOf (files.filterMap id)
        (results.filter (·.replacements ≠ [])) := by
  induction results with
  | nil => exact ⟨[], rfl, .nil⟩
  | cons result rest ih =>
    obtain ⟨file, fixed, unchanged, changed⟩ := fixed?_of_sound (sound result List.mem_cons_self)
    obtain ⟨files, others, related⟩ := ih fun r member => sound r (List.mem_cons_of_mem _ member)
    refine ⟨file :: files, ?_, ?_⟩
    · rw [List.mapM_cons, fixed, others]
      rfl
    · by_cases empty : result.replacements = []
      · rw [unchanged empty, List.filter_cons_of_neg (by simpa using empty)]
        exact related
      · obtain ⟨script, rfl, isFix⟩ := changed empty
        rw [List.filter_cons_of_pos (by simpa using empty)]
        exact .cons isFix related

theorem applied_eq_sum (fixed : FixReport) :
    fixed.applied = (fixed.files.map (·.applied)).sum := by
  unfold FixReport.applied
  rw [List.sum_eq_foldl, List.foldl_map]

/-- **Checking and fixing agree**, for every flag and every list of sources. A fixing run fails when
a checking run does, in the same way. When it does not fail it has the same report; its edits in a
script have the replacements that the findings in this script carry; and the scripts that it changes
are those with such a finding, each edit being either applied or skipped. -/
theorem fix_agrees (linter : Linter) (bans : List Ban) (schedule : Schedule)
    (sources : List Source) :
    (∀ error, (linter.withBans bans).fix schedule sources = .error error ↔
      (linter.withBans bans).check schedule sources = .error error) ∧
    ∀ fixed, (linter.withBans bans).fix schedule sources = .ok fixed →
      (linter.withBans bans).check schedule sources = .ok fixed.report ∧
      ∃ results, (linter.withBans bans).run schedule sources = .ok results ∧
        fixed.report = reportOf results ∧
        results.map (fun result => (result.path, result.text)) =
          (loaded sources).map (fun script => (script.1, script.2.text)) ∧
        (∀ result ∈ results, result.edits.mapM (Edit.replacement? result.text.toList) =
          some result.replacements) ∧
        List.Forall₂ FixedScript.IsFixOf fixed.files (results.filter (·.replacements ≠ [])) ∧
        fixed.applied = (fixed.files.map (·.applied)).sum := by
  cases ran : (linter.withBans bans).run schedule sources with
  | error cause =>
    have fails : (linter.withBans bans).fix schedule sources = .error cause := by
      rw [fix, ran]
      rfl
    have failsToo : (linter.withBans bans).check schedule sources = .error cause := by
      rw [check, ran]
      rfl
    rw [fails, failsToo]
    exact ⟨fun error => by simp, fun fixed isFixed => by cases isFixed⟩
  | ok results =>
    have sound := run_sound ran
    obtain ⟨files, done, related⟩ := mapM_fixed?_of_sound sound
    have fixes : (linter.withBans bans).fix schedule sources =
        .ok ⟨files.filterMap id, reportOf results⟩ := by
      rw [fix, ran]
      show (results.mapM fixed?).bind _ = _
      rw [done]
      rfl
    have checks : (linter.withBans bans).check schedule sources = .ok (reportOf results) := by
      rw [check, ran]
      rfl
    rw [fixes, checks]
    refine ⟨fun error => by simp, fun fixed isFixed => ?_⟩
    cases isFixed
    exact ⟨rfl, results, rfl, rfl, map_script_of_run ran, fun result member =>
      (sound result member).edits, related, applied_eq_sum _⟩

/-- A script that imports two libraries on one line. -/
def importing : Source :=
  ⟨"/project/Assets/Tool.cs", .ok {
    text := "using UnityEditor; using NPOI;\nclass Tool {}\n"
    directives := []
    imports := [⟨⟨0, 18⟩, "UnityEditor", none, false⟩, ⟨⟨19, 30⟩, "NPOI", none, false⟩]
    globalUsings := [], calls := [], routines := [], types := [], namespaces := []
    hasErrors := false }⟩

theorem fix_agrees_importing :
    ∃ fixed, (barest.withBans Preset.minimal.bans).fix .undisturbed [importing] = .ok fixed ∧
      (barest.withBans Preset.minimal.bans).check .undisturbed [importing] = .ok fixed.report ∧
      fixed.files.map (fun file => file.applied + file.skipped) = [2] := by
  obtain ⟨failing, succeeding⟩ :=
    fix_agrees barest Preset.minimal.bans .undisturbed [importing]
  have counts : ((barest.withBans Preset.minimal.bans).run .undisturbed [importing]).map
      (·.map (·.replacements.length)) = .ok [2] := by
    decide +kernel
  cases fixes : (barest.withBans Preset.minimal.bans).fix .undisturbed [importing] with
  | error error =>
    have checks := (failing error).mp fixes
    rw [check] at checks
    cases ran : (barest.withBans Preset.minimal.bans).run .undisturbed [importing] with
    | error other =>
      rw [ran] at counts
      cases counts
    | ok results =>
      rw [ran] at checks
      cases checks
  | ok fixed =>
    obtain ⟨checks, results, ran, -, -, -, related, -⟩ := succeeding fixed fixes
    refine ⟨fixed, rfl, checks, ?_⟩
    rw [ran] at counts
    obtain ⟨result, rfl, length_eq⟩ : ∃ result, results = [result] ∧
        result.replacements.length = 2 := by
      simpa [Except.map] using counts
    have some : result.replacements ≠ [] := by
      rw [← List.length_pos_iff, length_eq]
      decide
    rw [List.filter_cons_of_pos (by simpa using some), List.filter_nil] at related
    obtain ⟨file, none, isFix, rest, files_eq⟩ := List.forall₂_cons_right_iff.mp related
    rw [List.forall₂_nil_right_iff.mp rest] at files_eq
    rw [files_eq, List.map_singleton, isFix.count, length_eq]

end Linter

end ScriptLint
