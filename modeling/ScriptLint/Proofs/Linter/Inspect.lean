/-
**What a run finds, script by script.**

* `scan_eq_some`, `scan_quiet` — the findings in a list of nodes.
* `Ban.mem_check`, `Linter.mem_findings` — where a finding comes from, whenever the flag gets set.
* `Linter.withBans` — a linter whose rules are bans.
* `Linter.Attached`, `Linter.conclude?_attached` — a reported finding carries the replacement of its
  edit, and this replacement fits the text.
* `Linter.run_eq_ok_iff`, `Linter.map_script_of_run` — the runs that have a result, and which scripts it
  is about.
-/

import ScriptLint.Ban
import ScriptLint.Linter
import ScriptLint.Proofs.Edit.Choice

namespace ScriptLint

theorem map_zipIdx_fst {α β : Type} (f : α → β) (l : List α) :
    (l.zipIdx.map fun pair => f pair.1) = l.map f := by
  nth_rewrite 2 [← List.zipIdx_map_fst 0 l]
  rw [List.map_map]
  rfl

/-! ### Findings of a rule -/

section Scan

variable {Node : Type} {report : Node → Option Violation} {binds : Node → Bool}

/-- A scan that comes to its end has found all there is. -/
theorem scan_eq_some {nodes : List Node} {watch : Watch} {found : List Violation}
    (done : (scan report binds nodes watch).1 = some found) : found = nodes.filterMap report := by
  induction nodes generalizing watch found with
  | nil =>
    cases done
    rfl
  | cons node more ih =>
    rw [scan] at done
    split at done
    · cases done
    · obtain ⟨rest, restFound, rfl⟩ := Option.map_eq_some_iff.mp done
      rw [ih restFound]
      cases reported : report node <;> simp [reported]

theorem scan_quiet (nodes : List Node) :
    scan report binds nodes .quiet = (some (nodes.filterMap report), .quiet) := by
  induction nodes with
  | nil => rfl
  | cons node more ih =>
    rw [scan, if_neg (by simp [Watch.isSet])]
    have seen : (if binds node then Watch.quiet.afterRead.bind else Watch.quiet.afterRead) =
        .quiet := by
      split <;> rfl
    simp only [seen, ih, Option.map_some]
    cases reported : report node <;> simp [reported]

end Scan

/-- A finding of a ban is about one of the nodes that the ban looks at. -/
theorem Ban.mem_check {ban : Ban} {subject : Subject} {watch : Watch} {violation : Violation}
    (found : violation ∈ (ban.check subject watch).1) :
    (∃ node ∈ ban.imports subject, ban.importFinding? subject node = some violation) ∨
      ∃ node ∈ ban.calls subject, ban.callFinding? subject node = some violation := by
  rw [Ban.check] at found
  split at found
  · cases found
  · split at found
    · cases found
    next ofImports left scanned =>
      split at found
      · cases found
      next ofCalls left' scanned' =>
        rcases List.mem_append.mp found with found | found
        · rw [scan_eq_some (congrArg Prod.fst scanned)] at found
          exact .inl (List.mem_filterMap.mp found)
        · rw [scan_eq_some (congrArg Prod.fst scanned')] at found
          exact .inr (List.mem_filterMap.mp found)

/-- The replacement that a finding carries. -/
def Violation.replacement? (violation : Violation) : Option Replacement :=
  violation.suggestion.bind (·.replacement)

theorem Violation.replacement?_withFix {violation : Violation}
    (bare : violation.replacement? = none) (title : String) (replacement : Replacement) :
    (violation.withFix title replacement).replacement? = some replacement := by
  rw [replacement?, withFix]
  cases advice : violation.suggestion with
  | none => rfl
  | some advice =>
    rw [replacement?, advice, Option.bind_some] at bare
    simp [bare]

/-- A ban finds; it does not fix. -/
theorem Ban.replacement?_of_mem_check {ban : Ban} {subject : Subject} {watch : Watch}
    {violation : Violation} (found : violation ∈ (ban.check subject watch).1) :
    violation.replacement? = none := by
  rcases ban.mem_check found with ⟨node, -, reported⟩ | ⟨node, -, reported⟩
  · rw [importFinding?] at reported
    split at reported
    · cases reported
      rfl
    · cases reported
  · rw [callFinding?] at reported
    split at reported
    · cases reported
      rfl
    · cases reported

/-! ### The edit of a finding -/

/-- The replacement of a proposed edit fits the text. -/
theorem Remedy.fits_of_edit? {remedy : Remedy} {text : String} {nodes : Nodes} {target : Span}
    {edit : Edit} (proposed : remedy.edit? text nodes target = some edit)
    {replacement : Replacement} (found : edit.replacement? text.toList = some replacement) :
    replacement.Fits text.toList := by
  have removal : (∃ target, edit = .remove target) → replacement.Fits text.toList := by
    rintro ⟨target, rfl⟩
    exact Edit.fits_of_removal found
  rw [edit?] at proposed
  split at proposed
  · refine removal ?_
    rw [removal?] at proposed
    split at proposed
    · cases proposed
      exact ⟨_, rfl⟩
    · split at proposed
      · cases proposed
        exact ⟨_, rfl⟩
      · cases proposed
  next comment _ =>
    rw [mark?] at proposed
    split at proposed
    · split at proposed
      next before after cut =>
        split at proposed
        · cases proposed
        · cases proposed
          obtain ⟨text_eq, place⟩ := Text.cut?_eq_some_iff.mp cut
          cases found
          exact Edit.fits_annotation comment text_eq place
      · cases proposed
    · cases proposed

namespace Linter

/-- A linter whose rules are bans. -/
def withBans (linter : Linter) (bans : List Ban) : Linter :=
  { linter with rules := bans.map Ban.rule }

/-- A linter without rules, with the default settings. -/
def barest : Linter :=
  ⟨"/project", [], {}, .empty, [], false⟩

variable {linter : Linter}

/-- A finding of a run is a finding of one of the rules. -/
theorem mem_findings {subject : Subject} {rules : List Rule} {watch : Watch} {rule : Rule}
    {violation : Violation} (found : (rule, violation) ∈ (linter.findings subject rules watch).1) :
    rule ∈ rules ∧ ∃ watch', violation ∈ (rule.check subject watch').1 := by
  induction rules generalizing watch with
  | nil => cases found
  | cons first more ih =>
    rw [findings] at found
    split at found
    · obtain ⟨member, checked⟩ := ih found
      exact ⟨List.mem_cons_of_mem first member, checked⟩
    · split at found
      · cases found
      · rcases List.mem_append.mp found with found | found
        · obtain ⟨other, checked, pair⟩ := List.mem_map.mp found
          cases pair
          exact ⟨List.mem_cons_self, watch.afterRead, checked⟩
        · obtain ⟨member, checked⟩ := ih found
          exact ⟨List.mem_cons_of_mem first member, checked⟩

/-- A reported finding and its edit belong together: the finding carries the replacement of the edit,
and this replacement fits the text. -/
structure Attached (text : List Char) (reported : Violation × Option Edit) : Prop where
  replacement_eq : reported.1.replacement? = reported.2.bind (Edit.replacement? text)
  fits : ∀ edit, reported.2 = some edit → ∃ r, edit.replacement? text = some r ∧ r.Fits text

/-- The edit of a reported finding has a replacement, and this fits the text. -/
theorem conclude?_fits {outline : Outline} {rule : Rule} {violation : Violation}
    {reported : Violation × Option Edit}
    (done : linter.conclude? outline rule violation = some reported) {edit : Edit}
    (isEdit : reported.2 = some edit) :
    ∃ r, edit.replacement? outline.text.toList = some r ∧ r.Fits outline.text.toList := by
  unfold conclude? at done
  dsimp only at done
  split at done
  · cases done
    cases isEdit
  next title edit' proposed =>
    obtain ⟨replacement, found, rfl⟩ := Option.map_eq_some_iff.mp done
    obtain ⟨remedy, -, proposed⟩ := Option.bind_eq_some_iff.mp proposed
    obtain ⟨other, proposed, pair⟩ := Option.bind_eq_some_iff.mp proposed
    cases pair
    cases isEdit
    exact ⟨replacement, found, Remedy.fits_of_edit? proposed found⟩

theorem conclude?_attached {outline : Outline} {rule : Rule} {violation : Violation}
    {reported : Violation × Option Edit} (bare : violation.replacement? = none)
    (done : linter.conclude? outline rule violation = some reported) :
    Attached outline.text.toList reported := by
  refine ⟨?_, fun edit isEdit => conclude?_fits done isEdit⟩
  unfold conclude? at done
  dsimp only at done
  split at done
  · cases done
    exact bare
  next title edit proposed =>
    obtain ⟨replacement, found, rfl⟩ := Option.map_eq_some_iff.mp done
    have bare : (linter.regrade rule violation).replacement? = none := bare
    exact (Violation.replacement?_withFix bare _ _).trans found.symm

/-- The edits of findings have the replacements that the findings carry. -/
theorem mapM_replacement?_of_attached {text : List Char}
    {reported : List (Violation × Option Edit)} (attached : ∀ r ∈ reported, Attached text r) :
    (reported.filterMap (·.2)).mapM (Edit.replacement? text) =
        some ((reported.map (·.1)).filterMap Violation.replacement?) ∧
      ∀ r ∈ (reported.map (·.1)).filterMap Violation.replacement?, r.Fits text := by
  induction reported with
  | nil => exact ⟨rfl, by simp⟩
  | cons first rest ih =>
    obtain ⟨violation, edit⟩ := first
    obtain ⟨replacement_eq, fits⟩ := attached _ List.mem_cons_self
    obtain ⟨others, othersFit⟩ := ih fun r member => attached r (List.mem_cons_of_mem _ member)
    cases edit with
    | none =>
      have none : violation.replacement? = none := replacement_eq
      simp only [List.map_cons, List.filterMap_cons, none]
      exact ⟨others, othersFit⟩
    | some edit =>
      obtain ⟨replacement, found, fit⟩ := fits edit rfl
      have carries : violation.replacement? = some replacement := replacement_eq.trans found
      simp only [List.map_cons, List.filterMap_cons, carries, List.mapM_cons, found, others]
      refine ⟨rfl, fun r member => ?_⟩
      rcases List.mem_cons.mp member with rfl | member
      · exact fit
      · exact othersFit r member

/-! ### Runs -/

/-- **A run has a result** when every script that is not passed over could be read, the flag is not
set by the end, and no edit is misplaced. -/
theorem run_eq_ok_iff {schedule : Schedule} {sources : List Source} {results : List Inspected} :
    linter.run schedule sources = .ok results ↔
      sources.findSome? linter.fatal? = none ∧ schedule.endsSet = false ∧
      (∀ inspected ∈ linter.inspectAll schedule (loaded sources), inspected.2.isSet = false) ∧
      (linter.inspectAll schedule (loaded sources)).mapM (·.1) = some results := by
  rw [run]
  split
  next error fatal => simp [fatal]
  next sound =>
    dsimp only
    split
    next stopped =>
      simp only [reduceCtorEq, false_iff, not_and]
      intro _ notSet noneSet
      simp only [Bool.or_eq_true, List.any_eq_true, notSet, Bool.false_eq_true, false_or] at stopped
      obtain ⟨inspected, member, isSet⟩ := stopped
      rw [noneSet inspected member] at isSet
      cases isSet
    next ongoing =>
      rw [Bool.not_eq_true, Bool.or_eq_false_iff, List.any_eq_false] at ongoing
      have noneSet : ∀ inspected ∈ linter.inspectAll schedule (loaded sources),
          inspected.2.isSet = false := fun inspected member => by
        simpa using ongoing.2 inspected member
      simp only [sound, ongoing.1, true_and]
      split
      next results' all =>
        rw [all]
        simp only [Except.ok.injEq, Option.some.injEq]
        exact ⟨fun same => ⟨noneSet, same⟩, fun both => both.2⟩
      next none =>
        rw [none]
        simp

/-- The flag that is never set is the same for every script. -/
theorem inspectAll_undisturbed (linter : Linter) (scripts : List (String × Outline)) :
    linter.inspectAll .undisturbed scripts = scripts.map fun script => linter.inspect script.1
      (.ofOutline linter.catalog (Index.build linter.catalog (scripts.map (·.2))) script.2)
      .quiet := by
  rw [← map_zipIdx_fst fun script : String × Outline => linter.inspect script.1 _ _, inspectAll]
  refine List.map_congr_left ?_
  rintro ⟨⟨path, outline⟩, place⟩ -
  rfl

theorem inspect_script {path : String} {script : Script} {watch : Watch} {result : Inspected}
    (inspected : (linter.inspect path script watch).1 = some result) :
    (result.path, result.text) = (path, script.outline.text) := by
  unfold inspect at inspected
  dsimp only at inspected
  split at inspected
  · cases inspected
    rfl
  · obtain ⟨reported, -, rfl⟩ := Option.map_eq_some_iff.mp inspected
    rfl

/-- A run has one result for each script that could be read. -/
theorem map_script_of_run {schedule : Schedule} {sources : List Source} {results : List Inspected}
    (ran : linter.run schedule sources = .ok results) :
    results.map (fun result => (result.path, result.text)) =
      (loaded sources).map fun script => (script.1, script.2.text) := by
  obtain ⟨-, -, -, all⟩ := run_eq_ok_iff.mp ran
  rw [inspectAll, mapM_eq_some_iff, List.forall₂_map_left_iff] at all
  have same : List.Forall₂ (· = ·)
      ((loaded sources).zipIdx.map fun pair => (pair.1.1, pair.1.2.text))
      (results.map fun result => (result.path, result.text)) := by
    rw [List.forall₂_map_left_iff, List.forall₂_map_right_iff]
    exact all.imp fun _ _ found => (inspect_script found).symm
  rw [List.forall₂_eq_eq_eq] at same
  rw [← same, map_zipIdx_fst fun script : String × Outline => (script.1, script.2.text)]

end Linter

end ScriptLint
