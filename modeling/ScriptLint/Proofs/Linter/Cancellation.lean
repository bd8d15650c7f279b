/-
**A run that is stopped has no result.**

The flag may get set at any moment, between any two reads and differently for every script that is being
looked at. What is lost on the way never gets out: a read that finds the flag set is followed, at the
end of the run, by one that finds it set as well.

* `Watch.Heeds` — a computation that reads the flag: it never clears it, and if it is not set when the
  computation ends, then the result is that of a computation which nothing disturbs.
* `Watch.Heeds.step`, `Watch.Heeds.read`, `Watch.Heeds.andThen` — how such computations are put together.
* `scan_heeds`, `Ban.check_heeds`, `Linter.findings_heeds`, `Linter.inspect_heeds` — the checks are such
  computations.
* `Linter.isStopped`, `Linter.run_of_stopped`, `Linter.run_of_ongoing` — a run is stopped if the flag is set
  by its end; then it fails, and else it is as if nothing disturbed it.
* `Linter.stopped_or_undisturbed` — a run ends with an error or has the whole result.
-/

import ScriptLint.Linter.Project
import ScriptLint.Proofs.Linter.Inspect

namespace ScriptLint

namespace Watch

/-- The computation reads the flag and heeds it: a flag that is set stays so, and if it is not set when
the computation ends, nothing has disturbed it. -/
structure Heeds {α : Type} (act : Watch → α × Watch) : Prop where
  stays : ∀ watch, watch.isSet = true → (act watch).2.isSet = true
  quiet : (act .quiet).2 = .quiet
  same : ∀ watch, (act watch).2.isSet = false → (act watch).1 = (act .quiet).1

namespace Heeds

variable {α β : Type} {act : Watch → α × Watch}

/-- A computation that does not look at the flag. -/
theorem pure (a : α) : Heeds fun watch => (a, watch) :=
  ⟨fun _ stopped => stopped, rfl, fun _ _ => rfl⟩

theorem isSet_of_ended (heeds : Heeds act) {watch : Watch} (ended : (act watch).2.isSet = false) :
    watch.isSet = false := by
  rw [← Bool.not_eq_true]
  intro stopped
  rw [heeds.stays watch stopped] at ended
  cases ended

/-- Something happens before the computation: a read, or the binding of a call. -/
theorem step (heeds : Heeds act) {next : Watch → Watch}
    (keeps : ∀ watch, watch.isSet = true → (next watch).isSet = true)
    (quiet : next .quiet = .quiet) : Heeds fun watch => act (next watch) where
  stays watch stopped := heeds.stays _ (keeps watch stopped)
  quiet := by
    rw [quiet]
    exact heeds.quiet
  same watch ended := by
    rw [quiet]
    exact heeds.same _ ended

/-- The flag is read first, and nothing is computed if it is set. -/
theorem read (heeds : Heeds act) (nothing : α) :
    Heeds fun watch => if watch.isSet then (nothing, watch.afterRead) else act watch.afterRead := by
  have after := heeds.step (fun _ => isSet_afterRead) rfl
  refine ⟨fun watch stopped => ?_, ?_, fun watch ended => ?_⟩
  · rw [if_pos stopped]
    exact isSet_afterRead stopped
  · rw [if_neg (by decide)]
    exact after.quiet
  · split at ended
    next stopped =>
      rw [isSet_afterRead stopped] at ended
      cases ended
    next ongoing =>
      rw [if_neg ongoing, if_neg (by decide)]
      exact after.same watch ended

/-- One computation after another. -/
theorem andThen (heeds : Heeds act) {more : α → Watch → β × Watch}
    (others : ∀ a, Heeds (more a)) : Heeds fun watch => more (act watch).1 (act watch).2 where
  stays watch stopped := (others _).stays _ (heeds.stays watch stopped)
  quiet := by
    rw [heeds.quiet]
    exact (others _).quiet
  same watch ended := by
    -- The flag was not set between the two, so the first was not disturbed either.
    have between := (others _).isSet_of_ended ended
    rw [(others _).same _ ended, heeds.same watch between, heeds.quiet]

/-- One computation after another, unless the first gives up. -/
theorem orNothing {act : Watch → Option α × Watch} (heeds : Heeds act)
    {more : α → Watch → β × Watch} (others : ∀ a, Heeds (more a)) (nothing : β) :
    Heeds fun watch =>
      (act watch).1.elim (nothing, (act watch).2) fun a => more a (act watch).2 := by
  have either : ∀ found : Option α,
      Heeds fun watch => found.elim (nothing, watch) fun a => more a watch := by
    intro found
    cases found with
    | none => exact .pure nothing
    | some a => exact others a
  exact heeds.andThen either

end Heeds

end Watch

/-! ### The checks heed the flag -/

theorem scan_heeds {Node : Type} (report : Node → Option Violation) (binds : Node → Bool)
    (nodes : List Node) : Watch.Heeds (scan report binds nodes) := by
  induction nodes with
  | nil => exact .pure _
  | cons node more ih =>
    have bound : Watch.Heeds fun watch =>
        scan report binds more (if binds node then watch.bind else watch) := by
      cases binds node with
      | true => exact ih.step (fun _ => Watch.isSet_bind) rfl
      | false => exact ih
    have extended := bound.andThen fun found : Option (List Violation) =>
      .pure (found.map ((report node).toList ++ ·))
    exact extended.read none

theorem Ban.check_heeds (ban : Ban) (subject : Subject) : Watch.Heeds (ban.check subject) := by
  have calls := fun ofImports : List Violation =>
    (scan_heeds (ban.callFinding? subject) ban.kind.binds (ban.calls subject)).orNothing
      (fun ofCalls => .pure (ofImports ++ ofCalls)) []
  have imports := (scan_heeds (ban.importFinding? subject) (fun _ => false)
    (ban.imports subject)).orNothing calls []
  by_cases exempt : ban.exempts subject = true
  · have nothing : ban.check subject = fun watch => ([], watch) := by
      funext watch
      rw [check, if_pos exempt]
    rw [nothing]
    exact .pure []
  · convert imports using 2 with watch
    rw [check, if_neg exempt]
    rcases scan (ban.importFinding? subject) _ (ban.imports subject) watch with
      ⟨_ | ofImports, left⟩
    · rfl
    · dsimp only [Option.elim_some]
      rcases scan (ban.callFinding? subject) _ (ban.calls subject) left with ⟨_ | ofCalls, left⟩ <;>
        rfl

namespace Linter

variable (linter : Linter) (bans : List Ban)

theorem findings_heeds (subject : Subject) :
    Watch.Heeds (linter.findings subject (bans.map Ban.rule)) := by
  induction bans with
  | nil => exact .pure []
  | cons ban more ih =>
    have both := (ban.check_heeds subject).andThen fun found : List Violation =>
      ih.andThen fun rest => .pure (found.map (ban.rule, ·) ++ rest)
    by_cases enabled : linter.config.isEnabled ban.kind.name = true
    · have reads : linter.findings subject ((ban :: more).map Ban.rule) = _ := funext fun watch => by
        rw [List.map_cons, findings, if_neg (by simpa [Ban.rule] using enabled)]
      rw [reads]
      exact both.read []
    · have skips : linter.findings subject ((ban :: more).map Ban.rule) =
          linter.findings subject (more.map Ban.rule) := funext fun watch => by
        rw [List.map_cons, findings, if_pos (by simpa [Ban.rule] using enabled)]
      rw [skips]
      exact ih

theorem inspect_heeds (path : String) (script : Script) :
    Watch.Heeds ((linter.withBans bans).inspect path script) := by
  have concluded := ((linter.withBans bans).findings_heeds bans
    (.ofScript linter.root linter.config.paths path script)).andThen
      fun found => (Watch.Heeds.pure ((found.mapM fun pair => (linter.withBans bans).conclude?
        script.outline pair.1 pair.2).map fun results => (⟨path, script.outline.text,
          results.map (·.1), results.filterMap (·.2)⟩ : Inspected))).read
            (some ⟨path, script.outline.text, [], []⟩)
  exact concluded

/-! ### Runs -/

/-- The flag is set by the end of the run, seen by one of the checks or not. -/
def isStopped (schedule : Schedule) (sources : List Source) : Bool :=
  schedule.endsSet || (linter.inspectAll schedule (loaded sources)).any (·.2.isSet)

/-- Checks that do not find the flag set find what they find when nothing disturbs them. -/
theorem map_fst_inspectAll {schedule : Schedule} {scripts : List (String × Outline)}
    (ongoing : ∀ inspected ∈ (linter.withBans bans).inspectAll schedule scripts,
      inspected.2.isSet = false) :
    ((linter.withBans bans).inspectAll schedule scripts).map (·.1) =
      ((linter.withBans bans).inspectAll .undisturbed scripts).map (·.1) := by
  unfold inspectAll at ongoing ⊢
  rw [List.map_map, List.map_map]
  refine List.map_congr_left fun place member => ?_
  exact (linter.inspect_heeds bans _ _).same _ (ongoing _ (List.mem_map_of_mem member))

/-- **A run that is not stopped** is as if nothing disturbed it. -/
theorem run_of_ongoing {schedule : Schedule} {sources : List Source}
    (ongoing : (linter.withBans bans).isStopped schedule sources = false) :
    (linter.withBans bans).run schedule sources =
      (linter.withBans bans).run .undisturbed sources := by
  obtain ⟨notSet, noneSet⟩ := Bool.or_eq_false_iff.mp ongoing
  have quiet : ((linter.withBans bans).inspectAll .undisturbed (loaded sources)).any (·.2.isSet) =
      false := by
    rw [List.any_eq_false, inspectAll_undisturbed]
    intro inspected member
    obtain ⟨script, -, rfl⟩ := List.mem_map.mp member
    rw [(linter.inspect_heeds bans _ _).quiet]
    decide
  have results : ((linter.withBans bans).inspectAll schedule (loaded sources)).mapM (·.1) =
      ((linter.withBans bans).inspectAll .undisturbed (loaded sources)).mapM (·.1) := by
    have firsts := linter.map_fst_inspectAll bans fun inspected member =>
      Bool.eq_false_iff.mpr (List.any_eq_false.mp noneSet inspected member)
    have together := congrArg (List.mapM id) firsts
    rw [List.mapM_map, List.mapM_map] at together
    exact together
  rw [run, run]
  dsimp only
  rw [notSet, noneSet, results, show Schedule.undisturbed.endsSet = false from rfl, quiet]

/-- **A run that is stopped** fails: because of a source, if that ends the undisturbed run as well, or
as cancelled. -/
theorem run_of_stopped {schedule : Schedule} {sources : List Source}
    (stopped : linter.isStopped schedule sources = true) :
    (∃ error, linter.run schedule sources = .error (.load error) ∧
      linter.run .undisturbed sources = .error (.load error)) ∨
    linter.run schedule sources = .error .cancelled := by
  rw [run, run]
  cases sources.findSome? linter.fatal? with
  | some error => exact .inl ⟨error, rfl, rfl⟩
  | none => exact .inr (if_pos stopped)

theorem run_or_cancelled (schedule : Schedule) (sources : List Source) :
    (linter.withBans bans).run schedule sources = .error .cancelled ∨
      (linter.withBans bans).run schedule sources =
        (linter.withBans bans).run .undisturbed sources := by
  cases stopped : (linter.withBans bans).isStopped schedule sources with
  | false => exact .inr (linter.run_of_ongoing bans stopped)
  | true =>
    rcases run_of_stopped _ stopped with ⟨error, failed, failed'⟩ | cancelled
    · exact .inr (failed.trans failed'.symm)
    · exact .inl cancelled

theorem check_or_cancelled (schedule : Schedule) (sources : List Source) :
    (linter.withBans bans).check schedule sources = .error .cancelled ∨
      (linter.withBans bans).check schedule sources =
        (linter.withBans bans).check .undisturbed sources := by
  rw [check, check]
  rcases linter.run_or_cancelled bans schedule sources with cancelled | same
  · rw [cancelled]
    exact .inl rfl
  · exact .inr (congrArg _ same)

theorem fix_or_cancelled (schedule : Schedule) (sources : List Source) :
    (linter.withBans bans).fix schedule sources = .error .cancelled ∨
      (linter.withBans bans).fix schedule sources =
        (linter.withBans bans).fix .undisturbed sources := by
  rw [fix, fix]
  rcases linter.run_or_cancelled bans schedule sources with cancelled | same
  · rw [cancelled]
    exact .inl rfl
  · rw [same]
    exact .inr rfl

/-- A run that is cancelled leaves the disk as it was; any other leaves it as if nothing had disturbed
the run. -/
theorem fixDisk_or_cancelled (schedule : Schedule) (disk : Disk) :
    (linter.withBans bans).fixDisk disk schedule = .error (.run .cancelled) ∧
        (linter.withBans bans).diskAfterFix disk schedule = disk ∨
      (linter.withBans bans).fixDisk disk schedule = (linter.withBans bans).fixDisk disk ∧
        (linter.withBans bans).diskAfterFix disk schedule =
          (linter.withBans bans).diskAfterFix disk := by
  have either : (linter.withBans bans).fixDisk disk schedule = .error (.run .cancelled) ∨
      (linter.withBans bans).fixDisk disk schedule = (linter.withBans bans).fixDisk disk := by
    unfold fixDisk overDisk
    cases (linter.withBans bans).sources? disk with
    | none => exact .inr rfl
    | some sources =>
      dsimp only
      rcases linter.fix_or_cancelled bans schedule sources with cancelled | same
      · rw [cancelled]
        exact .inl rfl
      · rw [same]
        exact .inr rfl
  unfold diskAfterFix
  rcases either with cancelled | same
  · rw [cancelled]
    exact .inl ⟨rfl, rfl⟩
  · rw [same]
    exact .inr ⟨rfl, rfl⟩

/-- **Stopping a run is all or nothing.** Whatever the linter, the bans and the sources, and whenever
the flag gets set for each of the scripts: a run that checks and one that fixes end as cancelled or as
if nothing had disturbed them, and one that is cancelled leaves the disk as it was. If the flag is set by
the end, there is no result, and if it is not, the result is the undisturbed one. -/
theorem stopped_or_undisturbed (linter : Linter) (bans : List Ban) (schedule : Schedule)
    (sources : List Source) (disk : Disk) :
    ((linter.withBans bans).check schedule sources = .error .cancelled ∨
      (linter.withBans bans).check schedule sources =
        (linter.withBans bans).check .undisturbed sources) ∧
    ((linter.withBans bans).fix schedule sources = .error .cancelled ∨
      (linter.withBans bans).fix schedule sources =
        (linter.withBans bans).fix .undisturbed sources) ∧
    ((linter.withBans bans).fixDisk disk schedule = .error (.run .cancelled) ∧
        (linter.withBans bans).diskAfterFix disk schedule = disk ∨
      (linter.withBans bans).fixDisk disk schedule = (linter.withBans bans).fixDisk disk ∧
        (linter.withBans bans).diskAfterFix disk schedule =
          (linter.withBans bans).diskAfterFix disk) ∧
    if (linter.withBans bans).isStopped schedule sources then
      (∃ error, (linter.withBans bans).check schedule sources = .error error) ∧
        ∃ error, (linter.withBans bans).fix schedule sources = .error error
    else
      (linter.withBans bans).check schedule sources =
          (linter.withBans bans).check .undisturbed sources ∧
        (linter.withBans bans).fix schedule sources =
          (linter.withBans bans).fix .undisturbed sources := by
  refine ⟨linter.check_or_cancelled bans schedule sources,
    linter.fix_or_cancelled bans schedule sources, linter.fixDisk_or_cancelled bans schedule disk, ?_⟩
  split
  next stopped =>
    obtain ⟨error, failed⟩ : ∃ error, (linter.withBans bans).run schedule sources = .error error := by
      rcases run_of_stopped _ stopped with ⟨error, failed, -⟩ | cancelled
      · exact ⟨_, failed⟩
      · exact ⟨_, cancelled⟩
    rw [check, fix, failed]
    exact ⟨⟨error, rfl⟩, error, rfl⟩
  next ongoing =>
    rw [check, check, fix, fix, linter.run_of_ongoing bans (by simpa using ongoing)]
    exact ⟨rfl, rfl⟩

end Linter

end ScriptLint
