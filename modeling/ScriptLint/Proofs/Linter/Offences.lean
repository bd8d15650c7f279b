/-
**The report of a run, finding by finding.**

A run that nothing disturbs reports every offence of every script once, and nothing else.

* `Parsed` — a script that was read: its outline lies on its text, as every outline of a text does.
* `Candidate` — a script, a ban and a node of the script; `Candidate.IsOffence` tells whether it is to
  be reported, and `Candidate.entry` what the report says of it.
* `findings_quiet`, `conclude?_entry` — the findings in one script, and what becomes of each.
* `run_undisturbed` — what such a run finds in all scripts.
* `check_offences` — the report has one entry for each offence and is in order.
-/

import ScriptLint.Proofs.Ban.Offends
import ScriptLint.Proofs.Outline.Spans
import ScriptLint.Proofs.Report.Order
import ScriptLint.Proofs.Text.Positions

namespace ScriptLint

/-! ### Spans -/

/-- What lies on the text can be removed. -/
theorem Edit.exists_replacement?_remove {text : List Char} {span : Span}
    (liesOn : span.LiesOn text) :
    ∃ replacement, (Edit.remove span).replacement? text = some replacement := by
  have clamped : clamp (Text.size text) span = span := by
    have start := liesOn.start.le_size
    have stop := liesOn.stop.le_size
    have ordered := liesOn.ordered
    unfold clamp
    dsimp only
    rw [Nat.min_eq_left start, Nat.min_eq_left stop, Nat.max_eq_right ordered]
  obtain ⟨before, rest, cutStart⟩ := liesOn.start
  obtain ⟨front, after, cutStop⟩ := liesOn.stop
  refine ⟨⟨removalSpan before after span, ""⟩, ?_⟩
  rw [replacement?, removalSpan?]
  dsimp only
  rw [clamped, Text.cut?_eq_some_iff.mpr cutStart, Text.cut?_eq_some_iff.mpr cutStop]
  rfl

/-- The edit of a remedy has a replacement when the nodes of the outline lie on its text. -/
theorem Outline.Placed.exists_replacement? {outline : Outline} (placed : outline.Placed)
    {remedy : Remedy} {target : Span} {edit : Edit}
    (proposed : remedy.edit? outline.text outline.nodes target = some edit) :
    ∃ replacement, edit.replacement? outline.text.toList = some replacement := by
  rw [Remedy.edit?] at proposed
  split at proposed
  · rw [Remedy.removal?] at proposed
    split at proposed
    next isImport =>
      cases proposed
      obtain ⟨found, member, same⟩ := List.any_eq_true.mp isImport
      rw [← beq_iff_eq.mp same]
      exact Edit.exists_replacement?_remove (placed.imports found member)
    next =>
      split at proposed
      next span callee statement isCall =>
        cases proposed
        exact Edit.exists_replacement?_remove
          (placed.statements _ (List.mem_of_find?_eq_some isCall) statement rfl)
      · cases proposed
  · rw [Remedy.mark?] at proposed
    split at proposed
    · split at proposed
      · split at proposed
        · cases proposed
        · cases proposed
          exact ⟨_, rfl⟩
      · cases proposed
    · cases proposed

theorem Outline.Placed.nodes {outline : Outline} (placed : outline.Placed) {node : Node}
    (member : node ∈ outline.nodes.toList) : node.span.LiesOn outline.text.toList := by
  rcases List.mem_append.mp member with member | member
  · obtain ⟨found, isImport, rfl⟩ := List.mem_map.mp member
    exact placed.imports found isImport
  · obtain ⟨call, isCall, rfl⟩ := List.mem_map.mp member
    exact placed.calls call isCall

/-- A script that was read. -/
structure Parsed where
  path : String
  outline : Outline
  placed : outline.Placed

namespace Parsed

/-- The script as a source of a run. -/
def source (parsed : Parsed) : Source :=
  ⟨parsed.path, .ok parsed.outline⟩

end Parsed

/-! ### Candidates -/

/-- A ban, and a node of a script that it may report. -/
structure Candidate where
  path : String
  script : Script
  ban : Ban
  node : Node
deriving Repr, DecidableEq, Inhabited

namespace Candidate

/-- The rule is not switched off, and the node offends against the ban. -/
def IsOffence (linter : Linter) (candidate : Candidate) : Prop :=
  linter.config.isEnabled candidate.ban.kind.name = true ∧
    candidate.ban.Offends linter.config.paths (Path.fromRoot linter.root candidate.path)
      candidate.script candidate.node

instance (linter : Linter) (candidate : Candidate) : Decidable (candidate.IsOffence linter) :=
  inferInstanceAs (Decidable (_ ∧ _))

/-- The edit that the fix of the rule proposes. -/
def edit? (candidate : Candidate) : Option Edit :=
  candidate.ban.kind.remedy.edit? candidate.script.outline.text candidate.script.outline.nodes
    candidate.node.span

/-- What a report says: the node's place in its file, the severity that is set for the rule or else
its own, and the replacement of its fix. -/
def entry (linter : Linter) (candidate : Candidate) : Violation where
  code := candidate.ban.kind.code
  rule := candidate.ban.kind.name
  severity := (linter.config.severity? candidate.ban.kind.name).getD candidate.ban.severity
  location := Location.ofSpan (Path.fromRoot linter.root candidate.path)
    candidate.script.outline.text candidate.node.span
  message := candidate.node.message candidate.ban.kind candidate.script.symbols
  suggestion := some ⟨candidate.ban.advice.message,
    candidate.edit?.bind (Edit.replacement? candidate.script.outline.text.toList)⟩

/-- The script as a rule sees it. -/
def subject (linter : Linter) (candidate : Candidate) : Subject :=
  .ofScript linter.root linter.config.paths candidate.path candidate.script

/-- **What becomes of a finding**: it is reported with its severity and its fix. -/
theorem conclude?_entry {linter : Linter} {candidate : Candidate}
    (placed : candidate.script.outline.Placed)
    (member : candidate.node ∈ candidate.script.outline.nodes.toList) :
    linter.conclude? candidate.script.outline candidate.ban.rule
        (candidate.ban.finding (candidate.subject linter) candidate.node) =
      some (candidate.entry linter, candidate.edit?) := by
  -- The edit is looked up by the location of the finding, not by the node.
  have span_eq : (candidate.ban.finding (candidate.subject linter) candidate.node).location.span =
      candidate.node.span := Location.span_ofSpan _ _ (placed.nodes member).ordered
  have proposal : Linter.proposal? candidate.script.outline candidate.ban.rule
      (linter.regrade candidate.ban.rule
        (candidate.ban.finding (candidate.subject linter) candidate.node)) =
      candidate.edit?.map fun edit => (candidate.ban.kind.remedy.title, edit) := by
    show (candidate.ban.kind.remedy.edit? _ _ (candidate.ban.finding _ _).location.span).bind _ = _
    rw [span_eq, Option.map_eq_bind]
    rfl
  unfold Linter.conclude?
  dsimp only
  rw [proposal]
  cases proposed : candidate.edit? with
  | none =>
    rw [entry, proposed]
    rfl
  | some edit =>
    obtain ⟨replacement, found⟩ := placed.exists_replacement? proposed
    rw [entry, proposed]
    dsimp only [Option.map_some]
    rw [found]
    show some _ = some _
    rw [Option.bind_some, found]
    rfl

theorem span_entry {linter : Linter} {candidate : Candidate}
    (placed : candidate.script.outline.Placed)
    (member : candidate.node ∈ candidate.script.outline.nodes.toList) :
    (candidate.entry linter).location.span = candidate.node.span :=
  Location.span_ofSpan _ _ (placed.nodes member).ordered

end Candidate

namespace Linter

variable {linter : Linter}

/-! ### One script -/

/-- The candidates of one script, ban by ban. -/
def candidatesIn (bans : List Ban) (path : String) (script : Script) : List Candidate :=
  bans.flatMap fun ban => script.outline.nodes.toList.map fun node => ⟨path, script, ban, node⟩

theorem mem_candidatesIn {bans : List Ban} {path : String} {script : Script} {candidate : Candidate}
    (member : candidate ∈ candidatesIn bans path script) :
    candidate.script = script ∧ candidate.node ∈ script.outline.nodes.toList := by
  obtain ⟨ban, -, member⟩ := List.mem_flatMap.mp member
  obtain ⟨node, isNode, rfl⟩ := List.mem_map.mp member
  exact ⟨rfl, isNode⟩

/-- The offences among the candidates of one ban. -/
theorem filter_candidates (linter : Linter) (ban : Ban) (path : String) (script : Script)
    (nodes : List Node) :
    (nodes.map fun node => (⟨path, script, ban, node⟩ : Candidate)).filter (·.IsOffence linter) =
      if linter.config.isEnabled ban.kind.name = true ∧
          ban.exempts (.ofScript linter.root linter.config.paths path script) = false then
        (nodes.filter (ban.reports (.ofScript linter.root linter.config.paths path script))).map
          fun node => ⟨path, script, ban, node⟩
      else [] := by
  have isOffence_iff : ∀ node, Candidate.IsOffence linter ⟨path, script, ban, node⟩ ↔
      (linter.config.isEnabled ban.kind.name = true ∧
        ban.exempts (.ofScript linter.root linter.config.paths path script) = false) ∧
      ban.reports (.ofScript linter.root linter.config.paths path script) node = true := by
    intro node
    rw [Candidate.IsOffence, Ban.offends_iff, and_assoc]
  rw [List.filter_map]
  split
  next counts =>
    congr 1
    refine List.filter_congr fun node _ => ?_
    rw [Bool.eq_iff_iff, Function.comp, decide_eq_true_eq, isOffence_iff]
    exact and_iff_right counts
  next discounted =>
    rw [List.map_eq_nil_iff, List.filter_eq_nil_iff]
    intro node _ isOffence
    rw [Function.comp, decide_eq_true_eq, isOffence_iff] at isOffence
    exact discounted isOffence.1

/-- **The findings in one script when nothing disturbs the run**: one for each offence. -/
theorem findings_quiet (linter : Linter) (bans : List Ban) (path : String) (script : Script) :
    linter.findings (.ofScript linter.root linter.config.paths path script)
        (bans.map Ban.rule) .quiet =
      (((candidatesIn bans path script).filter (·.IsOffence linter)).map fun candidate =>
        (candidate.ban.rule, candidate.ban.finding (candidate.subject linter) candidate.node),
        .quiet) := by
  induction bans with
  | nil => rfl
  | cons ban more ih =>
    have split : candidatesIn (ban :: more) path script =
        (script.outline.nodes.toList.map fun node => ⟨path, script, ban, node⟩) ++
          candidatesIn more path script := rfl
    rw [split, List.filter_append, List.map_append, filter_candidates, List.map_cons, findings]
    by_cases enabled : linter.config.isEnabled ban.kind.name = true
    · have isEnabled : ¬ (!linter.config.isEnabled ban.rule.name) = true := by
        show ¬ (!linter.config.isEnabled ban.kind.name) = true
        simpa using enabled
      have quiet : ¬ Watch.quiet.isSet = true := by decide
      have checked : ban.rule.check = ban.check := rfl
      have afterRead : Watch.quiet.afterRead = .quiet := rfl
      rw [if_neg isEnabled, if_neg quiet, checked, afterRead, ban.check_quiet]
      dsimp only
      rw [ih]
      -- What exempts the script is tested once for the ban, but counts for every candidate.
      by_cases exempt : ban.exempts (.ofScript linter.root linter.config.paths path script) = true
      · rw [if_pos exempt, if_neg (by simp [exempt])]
        rfl
      · rw [if_neg exempt, if_pos ⟨enabled, by simpa using exempt⟩, List.map_map, List.map_map]
        rfl
    · have isDisabled : (!linter.config.isEnabled ban.rule.name) = true := by
        show (!linter.config.isEnabled ban.kind.name) = true
        simpa using enabled
      rw [if_pos isDisabled, if_neg fun both => enabled both.1, ih]
      rfl

/-- What is found in one script when nothing disturbs the run. -/
def resultOf (linter : Linter) (bans : List Ban) (path : String) (script : Script) : Inspected where
  path
  text := script.outline.text
  violations :=
    ((candidatesIn bans path script).filter (·.IsOffence linter)).map (Candidate.entry linter)
  edits := ((candidatesIn bans path script).filter (·.IsOffence linter)).filterMap Candidate.edit?

theorem inspect_quiet (linter : Linter) (bans : List Ban) (path : String) (script : Script)
    (placed : script.outline.Placed) :
    (linter.withBans bans).inspect path script .quiet =
      (some (linter.resultOf bans path script), .quiet) := by
  set offences := (candidatesIn bans path script).filter (·.IsOffence linter) with offences_eq
  have found : (linter.withBans bans).findings (.ofScript (linter.withBans bans).root
      (linter.withBans bans).config.paths path script) (linter.withBans bans).rules .quiet =
      (offences.map fun candidate => (candidate.ban.rule,
        candidate.ban.finding (candidate.subject linter) candidate.node), .quiet) :=
    findings_quiet (linter.withBans bans) bans path script
  unfold inspect
  dsimp only
  rw [found]
  dsimp only
  rw [if_neg (by decide), mapM_map_eq_some fun candidate => (candidate.entry linter, candidate.edit?),
    Option.map_some, List.map_map, List.filterMap_map]
  · rfl
  · intro candidate member
    obtain ⟨script_eq, isNode⟩ := mem_candidatesIn (List.mem_filter.mp member).1
    subst script_eq
    exact Candidate.conclude?_entry placed isNode

/-! ### All scripts -/

/-- The script in its project. -/
def scriptOf (linter : Linter) (project : List Parsed) (parsed : Parsed) : Script :=
  .ofOutline linter.catalog (Index.build linter.catalog (project.map (·.outline))) parsed.outline

/-- The candidates of all scripts: each script with each ban and each of its nodes. -/
def candidates (linter : Linter) (bans : List Ban) (project : List Parsed) : List Candidate :=
  project.flatMap fun parsed => candidatesIn bans parsed.path (linter.scriptOf project parsed)

theorem loaded_sources (project : List Parsed) :
    loaded (project.map Parsed.source) = project.map fun parsed => (parsed.path, parsed.outline) := by
  rw [loaded, List.filterMap_map]
  exact congrFun List.filterMap_eq_map' project

/-- **A run that nothing disturbs** finds the offences of each script. -/
theorem run_undisturbed (linter : Linter) (bans : List Ban) (project : List Parsed) :
    (linter.withBans bans).run .undisturbed (project.map Parsed.source) =
      .ok (project.map fun parsed =>
        linter.resultOf bans parsed.path (linter.scriptOf project parsed)) := by
  have inspected : (linter.withBans bans).inspectAll .undisturbed
      (loaded (project.map Parsed.source)) = project.map fun parsed =>
        (some (linter.resultOf bans parsed.path (linter.scriptOf project parsed)), .quiet) := by
    rw [loaded_sources, inspectAll_undisturbed, List.map_map, List.map_map]
    exact List.map_congr_left fun parsed _ =>
      linter.inspect_quiet bans parsed.path (linter.scriptOf project parsed) parsed.placed
  refine run_eq_ok_iff.mpr ⟨?_, rfl, ?_, ?_⟩
  · rw [List.findSome?_eq_none_iff]
    intro source member
    obtain ⟨parsed, -, rfl⟩ := List.mem_map.mp member
    rfl
  · rw [inspected]
    intro result member
    obtain ⟨parsed, -, rfl⟩ := List.mem_map.mp member
    rfl
  · rw [inspected, mapM_eq_some_iff, List.forall₂_map_left_iff, List.forall₂_map_right_iff,
      List.forall₂_same]
    intro parsed _
    rfl

/-- **The report has one entry for each offence.** For every linter, every list of bans and every
list of scripts that were read, a run that nothing disturbs has a report on all scripts. Its findings
are the entries of the offences among all candidates, each with the span of its node, and they are in
order. -/
theorem check_offences (linter : Linter) (bans : List Ban) (project : List Parsed) :
    ∃ report,
      (linter.withBans bans).check .undisturbed (project.map Parsed.source) = .ok report ∧
      report.filesChecked = project.length ∧
      report.violations.Perm (((linter.candidates bans project).filter
        (·.IsOffence linter)).map (Candidate.entry linter)) ∧
      (∀ candidate ∈ linter.candidates bans project,
        (candidate.entry linter).location.span = candidate.node.span) ∧
      report.violations.Pairwise Violation.InOrder := by
  refine ⟨reportOf (project.map fun parsed =>
    linter.resultOf bans parsed.path (linter.scriptOf project parsed)), ?_, ?_, ?_, ?_, ?_⟩
  · rw [check, run_undisturbed]
    rfl
  · exact List.length_map _
  · refine (Report.sort_perm _).trans ?_
    dsimp only
    rw [List.flatMap_map, candidates, List.filter_flatMap, List.map_flatMap]
    exact List.Perm.refl _
  · intro candidate member
    obtain ⟨parsed, -, member⟩ := List.mem_flatMap.mp member
    obtain ⟨script_eq, isNode⟩ := mem_candidatesIn member
    rw [← script_eq] at isNode
    refine Candidate.span_entry ?_ isNode
    rw [script_eq]
    exact parsed.placed
  · exact Report.sort_inOrder _

/-- A script that imports a library twice, once in a region for the editor. -/
def guarded : Parsed where
  path := "/project/Tool.cs"
  outline := {
    text := "#if UNITY_EDITOR\nusing NPOI;\n#endif\nusing NPOI;\n"
    directives := [⟨.openIf, some "UNITY_EDITOR", 0⟩, ⟨.endIf, none, 29⟩]
    imports := [⟨⟨17, 28⟩, "NPOI", none, false⟩, ⟨⟨36, 47⟩, "NPOI", none, false⟩]
    globalUsings := [], calls := [], routines := [], types := [], namespaces := []
    hasErrors := false }
  placed := ⟨by decide, by decide, by decide⟩

theorem check_offences_guarded :
    ∃ report, (barest.withBans [Ban.ofKind .spreadsheetImport]).check .undisturbed
        ([guarded].map Parsed.source) = .ok report ∧
      report.violations.map (fun found => (found.code, found.location.span)) =
        [("UL002", ⟨36, 47⟩)] := by
  obtain ⟨report, checked, -, entries, -⟩ :=
    check_offences barest [Ban.ofKind .spreadsheetImport] [guarded]
  have offences : (((barest.candidates [Ban.ofKind .spreadsheetImport] [guarded]).filter
      (·.IsOffence barest)).map (Candidate.entry barest)).map
        (fun found => (found.code, found.location.span)) = [("UL002", ⟨36, 47⟩)] := by
    decide +kernel
  refine ⟨report, checked, ?_⟩
  have mapped := entries.map fun found => (found.code, found.location.span)
  rw [offences] at mapped
  exact List.perm_singleton.mp mapped

end Linter

end ScriptLint
