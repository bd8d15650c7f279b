/-
**Rules do not interfere.**

A run with some of the rules reports what a run with all of them reports about these rules, in the same
order. It makes no difference whether a rule is left out or switched off in the settings.

* `Report.ofCodes` — the part of a report that is about rules with given codes.
* `Config.SwitchesOff` — settings that differ from others in that a rule is switched off.
* `candidatesIn_filter`, `violations_resultOf` — leaving out rules leaves out their findings.
* `resultOf_switchedOff` — switching off a rule does the same.
* `run_bans` — what a run with bans finds in the sources that were read.
* `Command.report?_codes` — the report that the program prints for a selection of rules.
* `check_chosen` — the three together.
-/

import ScriptLint.Command
import ScriptLint.Proofs.Linter.Loading
import ScriptLint.Proofs.Report.Stable

namespace ScriptLint

/-- The part of a report that is about rules with the given codes. -/
def Report.ofCodes (report : Report) (codes : List String) : Report :=
  report.keep fun found => codes.contains found.code

/-- The settings are the others but for one rule, which is switched off. -/
structure Config.SwitchesOff (config other : Config) (name : String) : Prop where
  paths : config.paths = other.paths
  off : config.isEnabled name = false
  others : ∀ rule, rule ≠ name → config.rule? rule = other.rule? rule

theorem Ban.Kind.code_injective : Function.Injective Ban.Kind.code := by
  intro kind other
  cases kind <;> cases other <;> decide

theorem Ban.Kind.name_injective : Function.Injective Ban.Kind.name := by
  intro kind other
  cases kind <;> cases other <;> decide

/-- A sublist of a list whose keys are all different is given by its keys. -/
theorem eq_filter_of_sublist {α β : Type} [DecidableEq β] (key : α → β) {part whole : List α}
    (isPart : part.Sublist whole) (nodup : (whole.map key).Nodup) :
    part = whole.filter fun a => (part.map key).contains (key a) := by
  induction isPart with
  | slnil => rfl
  | @cons part whole a isPart ih =>
    obtain ⟨fresh, nodup⟩ := List.nodup_cons.mp nodup
    have absent : key a ∉ part.map key := fun member =>
      fresh ((isPart.map key).subset member)
    rw [List.filter_cons_of_neg (by simpa using absent)]
    exact ih nodup
  | @cons_cons part whole a isPart ih =>
    obtain ⟨fresh, nodup⟩ := List.nodup_cons.mp nodup
    rw [List.filter_cons_of_pos (by simp)]
    refine congrArg (a :: ·) ((ih nodup).trans (List.filter_congr fun b member => ?_))
    have different : key b ≠ key a := fun same => fresh (same ▸ List.mem_map_of_mem member)
    rw [List.map_cons, List.contains_cons, beq_false_of_ne different, Bool.false_or]

namespace Linter

variable {linter : Linter} {bans : List Ban}

/-! ### One script -/

theorem candidatesIn_filter (keep : Ban → Bool) (bans : List Ban) (path : String)
    (script : Script) :
    candidatesIn (bans.filter keep) path script =
      (candidatesIn bans path script).filter (keep ·.ban) := by
  induction bans with
  | nil => rfl
  | cons ban more ih =>
    have split : ∀ more, candidatesIn (ban :: more) path script =
        (script.outline.nodes.toList.map fun node => ⟨path, script, ban, node⟩) ++
          candidatesIn more path script := fun _ => rfl
    rw [split, List.filter_append, List.filter_map, ← ih, List.filter_cons]
    cases kept : keep ban <;> simp [Function.comp_def, kept, split]

/-- **Leaving out rules leaves out their findings**, and nothing else. -/
theorem violations_resultOf (keep : String → Bool) (linter : Linter) (bans : List Ban)
    (path : String) (script : Script) :
    (linter.resultOf (bans.filter (keep ·.kind.code)) path script).violations =
      (linter.resultOf bans path script).violations.filter (keep ·.code) := by
  unfold resultOf
  dsimp only
  rw [candidatesIn_filter, List.filter_comm, List.filter_map]
  rfl

/-- **Switching off a rule leaves it out.** -/
theorem resultOf_switchedOff {config : Config} {kind : Ban.Kind}
    (off : config.SwitchesOff linter.config kind.name) (bans : List Ban) (path : String)
    (script : Script) :
    { linter with config }.resultOf bans path script =
      linter.resultOf (bans.filter (·.kind != kind)) path script := by
  have others : ∀ candidate : Candidate, candidate.ban.kind ≠ kind →
      config.rule? candidate.ban.kind.name = linter.config.rule? candidate.ban.kind.name :=
    fun candidate different => off.others _ fun same => different (Ban.Kind.name_injective same)
  have offences : ((candidatesIn bans path script).filter (·.IsOffence { linter with config })) =
      (candidatesIn (bans.filter (·.kind != kind)) path script).filter (·.IsOffence linter) := by
    rw [candidatesIn_filter, List.filter_filter]
    refine List.filter_congr fun candidate _ => ?_
    rw [Bool.eq_iff_iff, Bool.and_eq_true, decide_eq_true_eq, decide_eq_true_eq, bne_iff_ne]
    unfold Candidate.IsOffence Config.isEnabled
    dsimp only
    rw [off.paths]
    by_cases same : candidate.ban.kind = kind
    · have disabled := off.off
      unfold Config.isEnabled at disabled
      rw [same, disabled]
      simp
    · rw [others candidate same]
      simp [same]
  have entries : ∀ candidate ∈ (candidatesIn (bans.filter (·.kind != kind)) path script).filter
      (·.IsOffence linter), candidate.entry { linter with config } = candidate.entry linter := by
    intro candidate member
    rw [candidatesIn_filter, List.filter_filter, List.mem_filter, Bool.and_eq_true,
      bne_iff_ne] at member
    unfold Candidate.entry Config.severity?
    dsimp only
    rw [others candidate member.2.2]
  unfold resultOf
  rw [offences, List.map_congr_left entries]

/-! ### All scripts -/

/-- **What bans find in the sources that were read**, unless a source ends the run. -/
theorem run_bans (linter : Linter) (bans : List Ban) {sources : List Source}
    (placed : ∀ source ∈ sources, source.Placed) :
    (linter.withBans bans).run .undisturbed sources =
      match sources.findSome? linter.fatal? with
      | some error => .error (.load error)
      | none => .ok ((loaded sources).map fun script => linter.resultOf bans script.1
          (.ofOutline linter.catalog (linter.indexOf sources) script.2)) := by
  have liesOn : ∀ script ∈ loaded sources, script.2.Placed := by
    intro script member
    obtain ⟨source, isSource, isLoaded⟩ := List.mem_filterMap.mp member
    split at isLoaded
    next outline isRead =>
      cases isLoaded
      exact placed source isSource outline isRead
    · cases isLoaded
  have sameFatal : (linter.withBans bans).fatal? = linter.fatal? := rfl
  cases first : sources.findSome? linter.fatal? with
  | some error => rw [run, sameFatal, first]
  | none =>
    rw [run_eq_ok_iff, inspectAll_undisturbed, sameFatal]
    refine ⟨first, rfl, ?_, mapM_map_eq_some _ ?_⟩
    · intro inspected member
      obtain ⟨script, -, rfl⟩ := List.mem_map.mp member
      rw [(withBans_leavesFlag linter bans).inspect]
      rfl
    · intro script member
      exact congrArg Prod.fst (linter.inspect_quiet bans script.1 _ (liesOn script member))

/-- **A run with some of the bans** reports what a run with all of them reports about these. -/
theorem check_filter (keep : String → Bool) (linter : Linter) (bans : List Ban)
    {sources : List Source} (placed : ∀ source ∈ sources, source.Placed) :
    (linter.withBans (bans.filter (keep ·.kind.code))).check .undisturbed sources =
      ((linter.withBans bans).check .undisturbed sources).map (·.keep (keep ·.code)) := by
  rw [check, check, run_bans linter bans placed, run_bans linter _ placed]
  cases sources.findSome? linter.fatal? with
  | some error => rfl
  | none =>
    dsimp only [Except.map]
    congr 1
    unfold reportOf
    rw [← Report.sort_keep, List.flatMap_map, List.flatMap_map, List.length_map, List.length_map]
    simp only [violations_resultOf]
    rw [Report.keep, List.filter_flatMap]

/-- What is read from a disk lies on its text. -/
theorem placed_of_sources? {disk : Disk} {sources : List Source}
    (read : linter.sources? disk = some sources) : ∀ source ∈ sources, source.Placed := by
  obtain ⟨paths, -, found⟩ := Option.bind_eq_some_iff.mp read
  cases found
  intro source member
  obtain ⟨path, -, isSource⟩ := List.mem_filterMap.mp member
  obtain ⟨text, -, rfl⟩ := Option.map_eq_some_iff.mp isSource
  exact Source.ofText_placed path text

theorem checkDisk_filter (keep : String → Bool) (linter : Linter) (bans : List Ban) (disk : Disk) :
    (linter.withBans (bans.filter (keep ·.kind.code))).checkDisk disk =
      ((linter.withBans bans).checkDisk disk).map (·.keep (keep ·.code)) := by
  have sameSources : ∀ bans, (linter.withBans bans).sources? disk = linter.sources? disk :=
    fun _ => rfl
  unfold checkDisk overDisk
  rw [sameSources, sameSources]
  cases read : linter.sources? disk with
  | none => rfl
  | some sources =>
    dsimp only
    rw [check_filter keep linter bans (placed_of_sources? read)]
    cases (linter.withBans bans).check .undisturbed sources <;> rfl

/-- **A run with a rule switched off** is a run without the rule, whatever its options. -/
theorem run_switchedOff {config : Config} {kind : Ban.Kind}
    (off : config.SwitchesOff linter.config kind.name) {bans others : List Ban}
    (same : others.filter (·.kind != kind) = bans.filter (·.kind != kind)) {sources : List Source}
    (placed : ∀ source ∈ sources, source.Placed) :
    ({ linter with config }.withBans others).run .undisturbed sources =
      (linter.withBans (bans.filter (·.kind != kind))).run .undisturbed sources := by
  have sameFatal : { linter with config }.fatal? = linter.fatal? := rfl
  rw [run_bans { linter with config } others placed, run_bans linter _ placed, sameFatal]
  cases sources.findSome? linter.fatal? with
  | some error => rfl
  | none =>
    dsimp only
    congr 1
    refine List.map_congr_left fun script _ => ?_
    rw [resultOf_switchedOff off, same]
    rfl

end Linter

/-! ### The program -/

namespace Command

/-- The selection of all rules. -/
def Selection.whole (selection : Selection) : Selection :=
  { selection with rules := none, preset := none }

/-- The rule is one of the preset and is named, as far as a preset and names are given. -/
def Selection.picks (selection : Selection) (kind : Ban.Kind) : Bool :=
  selection.preset.all (·.kinds.contains kind) &&
    selection.rules.all fun list => (namesIn list).any (isNamed (Ban.ofKind kind))

/-- The codes of the rules that are selected. -/
def Selection.codes (selection : Selection) : List String :=
  (Ban.Kind.all.filter selection.picks).map (·.code)

theorem Selection.contains_codes (selection : Selection) (kind : Ban.Kind) :
    selection.codes.contains kind.code = selection.picks kind := by
  have mem_all : kind ∈ Ban.Kind.all := by cases kind <;> decide
  rw [Bool.eq_iff_iff, List.contains_iff_mem, codes,
    List.mem_map_of_injective Ban.Kind.code_injective, List.mem_filter]
  exact and_iff_right mem_all

theorem Selection.ofPreset_eq (selection : Selection) (bans : List Ban) :
    selection.ofPreset bans =
      bans.filter fun ban => selection.preset.all (·.kinds.contains ban.kind) := by
  unfold ofPreset
  cases selection.preset with
  | none => exact (List.filter_true bans).symm
  | some preset => rfl

theorem Selection.ofNames_eq (selection : Selection) (bans : List Ban) :
    selection.ofNames bans = bans.filter fun ban =>
      selection.rules.all fun list => (namesIn list).any (isNamed (Ban.ofKind ban.kind)) := by
  have named : ∀ ban : Ban, isNamed (Ban.ofKind ban.kind) = isNamed ban := by
    intro ban
    have kind_eq : (Ban.ofKind ban.kind).kind = ban.kind := by cases ban.kind <;> rfl
    funext name
    rw [isNamed, isNamed, kind_eq]
  unfold ofNames
  simp only [named]
  cases selection.rules with
  | none => exact (List.filter_true bans).symm
  | some list => rfl

/-- The rules of a selection are those of all rules that have its codes. -/
theorem Selection.bans_eq (selection : Selection) (config : Config) :
    selection.bans config =
      (selection.whole.bans config).filter (selection.codes.contains ·.kind.code) := by
  have all : selection.whole.bans config = Ban.ofConfig config := rfl
  rw [all, bans, ofNames_eq, ofPreset_eq, List.filter_filter]
  refine List.filter_congr fun ban _ => ?_
  rw [contains_codes, picks, Bool.and_comm]

/-- The report that a check of the program prints; none when it fails. -/
def report? (session : Session) (path : String) (selection : Selection) (config : Option String) :
    Option Report :=
  (linter? session path selection config).bind fun linter =>
    (linter.checkDisk session.disk).toOption

/-- What a check of the program does with its report. -/
def present (session : Session) (format : Format) : Option Report → Outcome
  | none => session.fail 1
  | some report => ⟨format.render report, if report.hasErrors then 1 else 0, session.disk⟩

theorem check_eq_present (session : Session) (path : String) (format : Format)
    (selection : Selection) (config : Option String) :
    check session path format selection config =
      present session format (report? session path selection config) := by
  unfold check report?
  cases linter? session path selection config with
  | none => rfl
  | some linter =>
    dsimp only [Option.bind_some]
    cases linter.checkDisk session.disk <;> rfl

/-- The linter for a selection is that for all rules, with the rules that are selected. -/
theorem linter?_selection (session : Session) (path : String) (selection : Selection)
    (config : Option String) :
    linter? session path selection config =
      (linter? session path selection.whole config).map fun linter =>
        linter.withBans (selection.bans linter.config) := by
  unfold linter?
  cases (Settings.find session path config).load? session with
  | none => rfl
  | some settings =>
    cases catalogued : Catalog.ofConfig? settings with
    | none => simp [catalogued]
    | some catalog =>
      simp only [Option.bind_eq_bind, Option.bind_some, catalogued]
      unfold Linter.build
      have excludes : selection.whole.exclude = selection.exclude := rfl
      rw [excludes]
      cases (selection.exclude ++ settings.analyzer.exclude).mapM Pattern.parse <;> rfl

theorem withBans_of_linter? {session : Session} {path : String} {selection : Selection}
    {config : Option String} {linter : Linter}
    (built : linter? session path selection config = some linter) :
    linter = linter.withBans (selection.bans linter.config) := by
  rw [linter?_selection] at built
  obtain ⟨other, -, rfl⟩ := Option.map_eq_some_iff.mp built
  rfl

/-- **The report on selected rules** is the part of the whole report that is about them. -/
theorem report?_codes (session : Session) (path : String) (selection : Selection)
    (config : Option String) :
    report? session path selection config =
      (report? session path selection.whole config).map (·.ofCodes selection.codes) := by
  unfold report?
  rw [linter?_selection session path selection]
  cases built : linter? session path selection.whole config with
  | none => rfl
  | some linter =>
    rw [Option.map_some, Option.bind_some, Option.bind_some, selection.bans_eq,
      linter.checkDisk_filter selection.codes.contains, ← withBans_of_linter? built]
    cases linter.checkDisk session.disk <;> rfl

end Command

namespace Linter

/-- **Rules do not interfere.** Take bans of all kinds and some of them, in the same order. A run with
some fails when a run with all of them does, and else reports what that run reports under their
codes, in the same order. Switching off a rule is leaving it out, whatever options it has in the
settings that do so. And the program, when rules are selected by a preset or by names, prints the part
of the whole report that is about these rules. -/
theorem check_chosen (linter : Linter) (bans chosen : List Ban)
    (isWhole : bans.map (·.kind) = Ban.Kind.all) (isPart : chosen.Sublist bans)
    (sources : List Source) (placed : ∀ source ∈ sources, source.Placed) :
    (linter.withBans chosen).check .undisturbed sources =
      ((linter.withBans bans).check .undisturbed sources).map
        (·.ofCodes (chosen.map (·.kind.code))) ∧
    (∀ (kind : Ban.Kind) (config : Config) (others : List Ban),
      config.SwitchesOff linter.config kind.name →
      others.filter (·.kind != kind) = bans.filter (·.kind != kind) →
      ({ linter with config }.withBans others).check .undisturbed sources =
        (linter.withBans (bans.filter (·.kind != kind))).check .undisturbed sources) ∧
    ∀ session path format selection config,
      Command.check session path format selection config =
        Command.present session format ((Command.report? session path selection.whole config).map
          (·.ofCodes selection.codes)) := by
  refine ⟨?_, fun kind config others off same => ?_, fun session path format selection config => ?_⟩
  · have nodup : (bans.map (·.kind.code)).Nodup := by
      have codes : bans.map (·.kind.code) = (bans.map (·.kind)).map (·.code) := by
        rw [List.map_map]
        rfl
      rw [codes, isWhole]
      decide
    have checked := check_filter (chosen.map (·.kind.code)).contains linter bans placed
    rw [← eq_filter_of_sublist (·.kind.code) isPart nodup] at checked
    exact checked
  · rw [check, check, run_switchedOff off same placed]
  · rw [Command.check_eq_present, Command.report?_codes]

/-- Settings that switch off the ban on the editor's library. -/
def editorApiOff : Config :=
  { rules := [(Ban.Kind.editorApi.name, { enabled := some false })] }

theorem editorApiOff_switchesOff : editorApiOff.SwitchesOff {} Ban.Kind.editorApi.name where
  paths := rfl
  off := by decide
  others rule different := by
    show List.lookup rule [(Ban.Kind.editorApi.name, _)] = List.lookup rule []
    rw [List.lookup_cons, beq_false_of_ne different]

/-- A script that imports from two libraries, each with a rule of its own. -/
theorem check_chosen_importing :
    ((barest.withBans (Ban.Kind.all.map Ban.ofKind)).run .undisturbed [importing]).map
        (·.map fun result => result.violations.map (·.code)) = .ok [["UL001", "UL002"]] ∧
      (barest.withBans [Ban.ofKind .spreadsheetImport]).check .undisturbed [importing] =
        ((barest.withBans (Ban.Kind.all.map Ban.ofKind)).check .undisturbed [importing]).map
          (·.ofCodes ["UL002"]) ∧
      ({ barest with config := editorApiOff }.withBans (Ban.Kind.all.map Ban.ofKind)).check
          .undisturbed [importing] =
        (barest.withBans ((Ban.Kind.all.map Ban.ofKind).filter (·.kind != .editorApi))).check
          .undisturbed [importing] := by
  have placed : ∀ source ∈ [importing], source.Placed := by
    intro source member outline isRead
    cases List.mem_singleton.mp member
    cases isRead
    exact ⟨by decide, by decide, by decide⟩
  obtain ⟨chosen, switchedOff, -⟩ := check_chosen barest (Ban.Kind.all.map Ban.ofKind)
    [Ban.ofKind .spreadsheetImport] rfl (by decide) [importing] placed
  exact ⟨by decide +kernel, chosen,
    switchedOff .editorApi editorApiOff _ editorApiOff_switchesOff rfl⟩

end Linter

end ScriptLint
