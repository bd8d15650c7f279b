/-
**Scripts that could not be read.**

A run either ends with the error of such a script or goes on as if the script were not there. The paths
and what the reader made of the scripts are two lists, which are put together again by their places; a
run over the scripts that were read keeps each path with its script.

* `Source.Placed` — the outline of a source, if it has one, lies on its text.
* `Linter.Refuses` — a source has an error that ends the run.
* `Linter.units`, `Linter.attempt` — what the reader makes of the sources, place by place, and what a run
  makes of a path and of what stands in its place.
* `run_placed` — the result of a run that no source ends; `run_paired` — the same from the two lists.
* `run_isLoaded` — the sources that were not read may be left out.
* `check_outcomes` — when a run has a result, and which.
-/

import ScriptLint.Proofs.Linter.Fix
import ScriptLint.Proofs.Linter.Offences

namespace ScriptLint

namespace Source

/-- The source was read. -/
def isLoaded (source : Source) : Bool :=
  source.outcome.toOption.isSome

/-- What was read of the source lies on its text. -/
def Placed (source : Source) : Prop :=
  ∀ outline, source.outcome = .ok outline → outline.Placed

theorem ofText_placed (path text : String) : (ofText path text).Placed := by
  intro outline isRead
  cases isRead
  exact Outline.read_placed text

end Source

namespace Linter

variable {linter : Linter} {sources : List Source}

/-- Some source ends the run: the reader does not work on it, or it is no script and that counts. -/
def Refuses (linter : Linter) (sources : List Source) : Prop :=
  ∃ source ∈ sources, (∃ message, source.outcome = .error (.reader message)) ∨
    linter.failsOnParseError = true ∧ ∃ path message, source.outcome = .error (.parse path message)

theorem fatal?_isSome_iff {source : Source} :
    (linter.fatal? source).isSome = true ↔
      (∃ message, source.outcome = .error (.reader message)) ∨
        linter.failsOnParseError = true ∧
          ∃ path message, source.outcome = .error (.parse path message) := by
  unfold fatal?
  cases source.outcome with
  | ok outline => simp
  | error cause =>
    cases cause with
    | parse path message => cases linter.failsOnParseError <;> simp
    | reader message => simp

theorem findSome?_fatal?_eq_none_iff :
    sources.findSome? linter.fatal? = none ↔ ¬ linter.Refuses sources := by
  rw [List.findSome?_eq_none_iff, Refuses]
  constructor
  · rintro sound ⟨source, member, bad⟩
    have found := fatal?_isSome_iff.mpr bad
    rw [sound source member] at found
    cases found
  · intro accepts source member
    rw [← Option.not_isSome_iff_eq_none, fatal?_isSome_iff]
    exact fun bad => accepts ⟨source, member, bad⟩

/-! ### Sources that are left out -/

theorem loaded_isLoaded (sources : List Source) :
    loaded (sources.filter Source.isLoaded) = loaded sources := by
  unfold loaded
  rw [List.filterMap_filter]
  refine List.filterMap_congr fun source _ => ?_
  unfold Source.isLoaded
  cases source.outcome <;> rfl

theorem length_loaded (sources : List Source) :
    (loaded sources).length = (sources.filter Source.isLoaded).length := by
  induction sources with
  | nil => rfl
  | cons source rest ih =>
    unfold loaded Source.isLoaded at ih ⊢
    rw [List.filterMap_cons, List.filter_cons]
    cases source.outcome with
    | ok outline => exact congrArg (· + 1) ih
    | error cause => exact ih

/-- **A source that was not read may be left out** when it does not end the run. -/
theorem run_isLoaded (accepts : ¬ linter.Refuses sources) (schedule : Schedule) :
    linter.run schedule sources = linter.run schedule (sources.filter Source.isLoaded) := by
  have acceptsPart : ¬ linter.Refuses (sources.filter Source.isLoaded) := by
    rintro ⟨source, member, bad⟩
    exact accepts ⟨source, (List.mem_filter.mp member).1, bad⟩
  rw [run, run, findSome?_fatal?_eq_none_iff.mpr accepts, findSome?_fatal?_eq_none_iff.mpr acceptsPart,
    loaded_isLoaded]

/-- A source that ends the run is its error. -/
theorem run_of_refuses (refuses : linter.Refuses sources) (schedule : Schedule) :
    ∃ error, linter.run schedule sources = .error (.load error) := by
  rw [run]
  cases first : sources.findSome? linter.fatal? with
  | some error => exact ⟨error, rfl⟩
  | none => exact (findSome?_fatal?_eq_none_iff.mp first refuses).elim

/-! ### The result of a run -/

/-- Nothing is misplaced in a script whose outline lies on its text. -/
theorem exists_inspect (linter : Linter) (path : String) {script : Script}
    (placed : script.outline.Placed) (watch : Watch) :
    ∃ result, (linter.inspect path script watch).1 = some result := by
  have concludes : ∀ rule violation, ∃ reported,
      linter.conclude? script.outline rule violation = some reported := by
    intro rule violation
    unfold conclude?
    dsimp only
    split
    · exact ⟨_, rfl⟩
    next title edit proposed =>
      obtain ⟨remedy, -, proposed⟩ := Option.bind_eq_some_iff.mp proposed
      obtain ⟨other, proposed, pair⟩ := Option.bind_eq_some_iff.mp proposed
      cases pair
      obtain ⟨replacement, found⟩ := placed.exists_replacement? proposed
      rw [found]
      exact ⟨_, rfl⟩
  unfold inspect
  dsimp only
  split
  · exact ⟨_, rfl⟩
  · obtain ⟨reported, done⟩ := exists_mapM fun pair
      (_ : pair ∈ (linter.findings (.ofScript linter.root linter.config.paths path script)
        linter.rules watch).1) => concludes pair.1 pair.2
    exact ⟨_, congrArg (Option.map _) done⟩

/-- No rule sets the flag. -/
def LeavesFlag (linter : Linter) : Prop :=
  ∀ rule ∈ linter.rules, ∀ subject, (rule.check subject .quiet).2 = .quiet

theorem withBans_leavesFlag (linter : Linter) (bans : List Ban) :
    (linter.withBans bans).LeavesFlag := by
  intro rule member subject
  obtain ⟨ban, -, rfl⟩ := List.mem_map.mp member
  exact congrArg Prod.snd (ban.check_quiet subject)

theorem LeavesFlag.inspect (leaves : linter.LeavesFlag) (path : String) (script : Script) :
    (linter.inspect path script .quiet).2 = .quiet := by
  have findings : ∀ rules ⊆ linter.rules, ∀ subject,
      (linter.findings subject rules .quiet).2 = .quiet := by
    intro rules
    induction rules with
    | nil => exact fun _ _ => rfl
    | cons rule more ih =>
      intro subset subject
      have others := ih (fun _ member => subset (List.mem_cons_of_mem _ member)) subject
      rw [Linter.findings]
      split
      · exact others
      · rw [if_neg (by decide)]
        have first := leaves rule (subset List.mem_cons_self) subject
        dsimp only
        rw [show Watch.quiet.afterRead = .quiet from rfl, first]
        exact others
  have left := findings linter.rules (List.Subset.refl _)
    (.ofScript linter.root linter.config.paths path script)
  unfold Linter.inspect
  dsimp only
  rw [left, if_neg (by decide)]
  rfl

/-- The index that the sources are read against. -/
def indexOf (linter : Linter) (sources : List Source) : Index :=
  .build linter.catalog ((loaded sources).map (·.2))

/-- What is found in a source, read against an index; nothing if it was not read. -/
def found? (linter : Linter) (index : Index) (source : Source) : Option Inspected :=
  source.outcome.toOption.bind fun outline =>
    (linter.inspect source.path (.ofOutline linter.catalog index outline) .quiet).1

theorem mapM_inspect_loaded (linter : Linter) (index : Index)
    (placed : ∀ source ∈ sources, source.Placed) :
    ((loaded sources).map fun script =>
      linter.inspect script.1 (.ofOutline linter.catalog index script.2) .quiet).mapM (·.1) =
      some (sources.filterMap (linter.found? index)) := by
  induction sources with
  | nil => rfl
  | cons source rest ih =>
    have others := ih fun source member => placed source (List.mem_cons_of_mem _ member)
    unfold loaded at others ⊢
    rw [List.filterMap_cons, List.filterMap_cons, found?]
    cases isRead : source.outcome with
    | error cause => exact others
    | ok outline =>
      have liesOn : (Script.ofOutline linter.catalog index outline).outline.Placed :=
        placed source List.mem_cons_self outline isRead
      obtain ⟨result, inspected⟩ := linter.exists_inspect source.path liesOn .quiet
      dsimp only [Except.toOption, Option.bind_some]
      rw [List.map_cons, List.mapM_cons, inspected, others]
      rfl

theorem length_found (linter : Linter) (index : Index)
    (placed : ∀ source ∈ sources, source.Placed) :
    (sources.filterMap (linter.found? index)).length =
      (sources.filter Source.isLoaded).length := by
  have lengths := (mapM_eq_some_iff.mp (linter.mapM_inspect_loaded index placed)).length_eq
  rw [← lengths, List.length_map, length_loaded]

/-- **The result of a run** that nothing disturbs and no source ends. -/
theorem run_placed (leaves : linter.LeavesFlag) (placed : ∀ source ∈ sources, source.Placed)
    (accepts : ¬ linter.Refuses sources) :
    linter.run .undisturbed sources =
      .ok (sources.filterMap (linter.found? (linter.indexOf sources))) := by
  refine run_eq_ok_iff.mpr ⟨findSome?_fatal?_eq_none_iff.mpr accepts, rfl, ?_, ?_⟩
  · intro inspected member
    rw [inspectAll_undisturbed] at member
    obtain ⟨script, -, rfl⟩ := List.mem_map.mp member
    rw [leaves.inspect]
    rfl
  · rw [inspectAll_undisturbed]
    exact linter.mapM_inspect_loaded _ placed

/-! ### Paths and units -/

/-- What the reader makes of the sources: one unit for each, in their order. All are read against one
index. -/
def units (linter : Linter) (sources : List Source) : List (Except LoadError Script) :=
  sources.map fun source =>
    source.outcome.map (Script.ofOutline linter.catalog (linter.indexOf sources))

/-- What a run makes of a path and the unit in its place. -/
def attempt (linter : Linter) (path : String) : Except LoadError Script →
    Except RunError (Option Inspected)
  | .ok script =>
    match (linter.inspect path script .quiet).1 with
    | some result => .ok (some result)
    | none => .error .misplacedFix
  | .error (.parse path message) =>
    if linter.failsOnParseError then .error (.load (.parse path message)) else .ok none
  | .error (.reader message) => .error (.load (.reader message))

/-- What a run makes of one source. -/
theorem attempt_source {source : Source} (placed : source.Placed) (index : Index) :
    linter.attempt source.path (source.outcome.map (Script.ofOutline linter.catalog index)) =
      match linter.fatal? source with
      | some error => .error (.load error)
      | none => .ok (linter.found? index source) := by
  unfold found? fatal?
  cases isRead : source.outcome with
  | error cause =>
    cases cause with
    | reader message => rfl
    | parse path message =>
      dsimp only [Except.map, attempt]
      cases linter.failsOnParseError <;> rfl
  | ok outline =>
    have liesOn : (Script.ofOutline linter.catalog index outline).outline.Placed :=
      placed outline isRead
    obtain ⟨result, inspected⟩ := linter.exists_inspect source.path liesOn .quiet
    dsimp only [Except.map, attempt, Except.toOption, Option.bind_some]
    rw [inspected]

theorem mapM_attempt (placed : ∀ source ∈ sources, source.Placed) (index : Index) :
    (sources.mapM fun source => linter.attempt source.path
      (source.outcome.map (Script.ofOutline linter.catalog index))) =
      match sources.findSome? linter.fatal? with
      | some error => .error (.load error)
      | none => .ok (sources.map (linter.found? index)) := by
  induction sources with
  | nil => rfl
  | cons source rest ih =>
    have others := ih fun source member => placed source (List.mem_cons_of_mem _ member)
    rw [List.mapM_cons, attempt_source (placed source List.mem_cons_self), others,
      List.findSome?_cons]
    cases linter.fatal? source with
    | some error => rfl
    | none => cases rest.findSome? linter.fatal? <;> rfl

/-- **A run keeps paths and units together.** The paths and the units are two lists of the same length;
a run takes them in pairs and drops the places where there is nothing. -/
theorem run_paired (leaves : linter.LeavesFlag) (placed : ∀ source ∈ sources, source.Placed) :
    linter.run .undisturbed sources =
      (((sources.map (·.path)).zip (linter.units sources)).mapM fun pair =>
        linter.attempt pair.1 pair.2).map (·.filterMap id) := by
  have pairs : ((sources.map (·.path)).zip (linter.units sources)).mapM
      (fun pair => linter.attempt pair.1 pair.2) =
      sources.mapM fun source => linter.attempt source.path
        (source.outcome.map (Script.ofOutline linter.catalog (linter.indexOf sources))) := by
    unfold units
    rw [List.zip_map', List.mapM_map]
    rfl
  rw [pairs, mapM_attempt placed]
  cases first : sources.findSome? linter.fatal? with
  | some error =>
    rw [run, first]
    rfl
  | none =>
    rw [run_placed leaves placed (findSome?_fatal?_eq_none_iff.mp first)]
    dsimp only [Except.map]
    rw [List.filterMap_map]
    rfl

/-! ### Fixing -/

/-- The edits of a script that was looked at can be performed. -/
theorem exists_fixed? {path : String} {script : Script} {watch : Watch} {result : Inspected}
    (inspected : (linter.inspect path script watch).1 = some result) :
    ∃ file, fixed? result = .ok file := by
  have fit : ∀ edit ∈ result.edits, ∃ r, edit.replacement? result.text.toList = some r ∧
      r.Fits result.text.toList := by
    intro edit member
    unfold inspect at inspected
    dsimp only at inspected
    split at inspected
    · cases inspected
      cases member
    · obtain ⟨reported, concluded, rfl⟩ := Option.map_eq_some_iff.mp inspected
      obtain ⟨entry, isEntry, isEdit⟩ := List.mem_filterMap.mp member
      obtain ⟨pair, -, done⟩ := exists_of_mem_mapM concluded isEntry
      exact conclude?_fits done isEdit
  obtain ⟨replacements, found⟩ := exists_mapM fun edit member =>
    (fit edit member).imp fun _ both => both.1
  have fits : ∀ r ∈ replacements, r.Fits result.text.toList := by
    intro r member
    obtain ⟨edit, isEdit, isReplacement⟩ := exists_of_mem_mapM found member
    obtain ⟨r', isReplacement', fitting⟩ := fit edit isEdit
    cases isReplacement.symm.trans isReplacement'
    exact fitting
  obtain ⟨outcome, done, -⟩ := Edit.applyAll?_of_fits found fits
  unfold fixed?
  rw [done]
  exact ⟨_, rfl⟩

theorem exists_mapM_fixed? (linter : Linter) (index : Index) (sources : List Source) :
    ∃ files, (sources.filterMap (linter.found? index)).mapM fixed? = .ok files := by
  induction sources with
  | nil => exact ⟨[], rfl⟩
  | cons source rest ih =>
    obtain ⟨files, others⟩ := ih
    rw [List.filterMap_cons]
    cases found : linter.found? index source with
    | none => exact ⟨files, others⟩
    | some result =>
      obtain ⟨outline, -, inspected⟩ := Option.bind_eq_some_iff.mp found
      obtain ⟨file, fixed⟩ := exists_fixed? inspected
      refine ⟨file :: files, ?_⟩
      dsimp only
      rw [List.mapM_cons, fixed, others]
      rfl

/-- **When a run has a result, and which.** A run that nothing disturbs, over sources whose outlines
lie on their texts, fails exactly when a source ends it, whether it checks or fixes. Paths and units
stay together. When no source ends the run, its result is that of a run over the sources that were
read, and these are the ones that it counts. -/
theorem check_outcomes (linter : Linter) (leaves : linter.LeavesFlag) (sources : List Source)
    (placed : ∀ source ∈ sources, source.Placed) :
    ((∃ error, linter.check .undisturbed sources = .error error) ↔ linter.Refuses sources) ∧
    ((∃ error, linter.fix .undisturbed sources = .error error) ↔ linter.Refuses sources) ∧
    linter.run .undisturbed sources =
      (((sources.map (·.path)).zip (linter.units sources)).mapM fun pair =>
        linter.attempt pair.1 pair.2).map (·.filterMap id) ∧
    (¬ linter.Refuses sources →
      linter.check .undisturbed sources =
        linter.check .undisturbed (sources.filter Source.isLoaded) ∧
      linter.fix .undisturbed sources =
        linter.fix .undisturbed (sources.filter Source.isLoaded) ∧
      ∃ report, linter.check .undisturbed sources = .ok report ∧
        report.filesChecked = (sources.filter Source.isLoaded).length) := by
  by_cases refuses : linter.Refuses sources
  · obtain ⟨error, ran⟩ := run_of_refuses refuses .undisturbed
    refine ⟨iff_of_true ⟨.load error, ?_⟩ refuses, iff_of_true ⟨.load error, ?_⟩ refuses,
      run_paired leaves placed, fun accepts => (accepts refuses).elim⟩
    · rw [check, ran]
      rfl
    · rw [fix, ran]
      rfl
  · have ran := run_placed leaves placed refuses
    obtain ⟨files, fixed⟩ := linter.exists_mapM_fixed? (linter.indexOf sources) sources
    have checks : linter.check .undisturbed sources =
        .ok (reportOf (sources.filterMap (linter.found? (linter.indexOf sources)))) := by
      rw [check, ran]
      rfl
    have fixes : linter.fix .undisturbed sources = .ok ⟨files.filterMap id,
        reportOf (sources.filterMap (linter.found? (linter.indexOf sources)))⟩ := by
      rw [fix, ran]
      show (List.mapM fixed? _).bind _ = _
      rw [fixed]
      rfl
    refine ⟨iff_of_false ?_ refuses, iff_of_false ?_ refuses, run_paired leaves placed,
      fun _ => ⟨?_, ?_, _, checks, length_found linter _ placed⟩⟩
    · rintro ⟨error, fails⟩
      cases fails.symm.trans checks
    · rintro ⟨error, fails⟩
      cases fails.symm.trans fixes
    · rw [check, check, run_isLoaded refuses]
    · rw [fix, fix, run_isLoaded refuses]

/-- A source that is no script. -/
def broken : Source :=
  ⟨"/project/Broken.cs", .error (.parse "/project/Broken.cs" "no tree")⟩

/-- A run over a source that is no script and one that is: it counts the one, or fails. -/
theorem check_outcomes_broken :
    (∃ report, (barest.withBans [Ban.ofKind .spreadsheetImport]).check .undisturbed
        [broken, guarded.source] = .ok report ∧ report.filesChecked = 1) ∧
      ∃ error, ({ barest with failsOnParseError := true }.withBans
        [Ban.ofKind .spreadsheetImport]).check .undisturbed [broken, guarded.source] =
          .error error := by
  have placed : ∀ source ∈ [broken, guarded.source], source.Placed := by
    intro source member outline isRead
    rcases List.mem_cons.mp member with rfl | member
    · cases isRead
    · cases List.mem_singleton.mp member
      cases isRead
      exact guarded.placed
  constructor
  · have accepts : ¬ (barest.withBans [Ban.ofKind .spreadsheetImport]).Refuses
        [broken, guarded.source] := by
      rw [← findSome?_fatal?_eq_none_iff]
      rfl
    obtain ⟨-, -, -, passing⟩ := check_outcomes (barest.withBans [Ban.ofKind .spreadsheetImport])
      (barest.withBans_leavesFlag _) _ placed
    exact (passing accepts).2.2
  · obtain ⟨failing, -⟩ := check_outcomes ({ barest with failsOnParseError := true }.withBans
      [Ban.ofKind .spreadsheetImport]) (withBans_leavesFlag _ _) _ placed
    exact failing.mpr ⟨broken, List.mem_cons_self, .inr ⟨rfl, _, _, rfl⟩⟩

end Linter

end ScriptLint
