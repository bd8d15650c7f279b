/-
**A run over the scripts of a project.**

* `Source` — a script as it was read, or why it could not be.
* `Linter` — the rules of a run with the settings that bear on it; `Linter.build` puts one together.
* `Schedule` — when the flag that stops a run gets set, for each script that is looked at.
* `Linter.inspect` — the findings in one script, severities as set, fixes attached.
* `Linter.run` — all scripts; an error when one could not be read or the flag is set by the end.
* `Linter.check` — the report of a run; `Linter.fix` — the same with the changed texts.
-/

import ScriptLint.Config
import ScriptLint.Pattern
import ScriptLint.Rule

namespace ScriptLint

/-- Why a script could not be read. -/
inductive LoadError where
  /-- The text is no script. -/
  | parse (path message : String)
  /-- The reader itself does not work. -/
  | reader (message : String)
deriving Repr, DecidableEq, Inhabited

/-- What is said of a script that could not be read. -/
def LoadError.message : LoadError → String
  | parse path message => "Parse error in " ++ path ++ ": " ++ message
  | reader message => "Failed to initialise csharp parser: " ++ message

/-- A script of a run. -/
structure Source where
  path : String
  outcome : Except LoadError Outline
deriving Inhabited

/-- The script with a text. -/
def Source.ofText (path text : String) : Source :=
  ⟨path, .ok (Outline.read text)⟩

/-- The rules and settings of a run. -/
structure Linter where
  root : String
  rules : List Rule
  config : Config
  catalog : Catalog
  /-- Patterns of paths to leave out. -/
  excludes : List Pattern
  /-- A text that is no script ends the run. -/
  failsOnParseError : Bool := false
deriving Inhabited

/-- Why there is no result. -/
inductive RunError where
  /-- A script could not be read. -/
  | load (error : LoadError)
  /-- The flag was set. -/
  | cancelled
  /-- The span of a fix does not lie on characters of the text. -/
  | misplacedFix
deriving Repr, DecidableEq, Inhabited

/-- What is said of a run without a result. -/
def RunError.message : RunError → String
  | load error => error.message
  | cancelled => "Analysis cancelled"
  | misplacedFix => "Fix outside the text"

/-- When the flag gets set, as the checks of the scripts see it, and whether it is set at the end
without any of them seeing it. -/
structure Schedule where
  watch : Nat → Watch
  endsSet : Bool

/-- The flag is never set. -/
def Schedule.undisturbed : Schedule :=
  ⟨fun _ => .quiet, false⟩

/-- The flag is set before the run. -/
def Schedule.cancelled : Schedule :=
  ⟨fun _ => .afterReads 0, true⟩

/-- What was found in one script. -/
structure Inspected where
  path : String
  text : String
  violations : List Violation
  edits : List Edit
deriving Repr, DecidableEq, Inhabited

/-- A script with its changed text. -/
structure FixedScript where
  path : String
  text : String
  applied : Nat
  skipped : Nat
deriving Repr, DecidableEq, Inhabited

/-- The report of a run with the scripts that fixes change. -/
structure FixReport where
  files : List FixedScript
  report : Report
deriving Repr, DecidableEq, Inhabited

/-- The number of fixes applied. -/
def FixReport.applied (fixed : FixReport) : Nat :=
  fixed.files.foldl (fun total file => total + file.applied) 0

/-- The finding with the replacement of its fix, unless it has one of its own; `title` is the advice
on a finding that has none. -/
def Violation.withFix (violation : Violation) (title : String) (replacement : Replacement) :
    Violation :=
  let suggestion : Suggestion :=
    match violation.suggestion with
    | some advice => { advice with replacement := advice.replacement.or (some replacement) }
    | none => ⟨title, some replacement⟩
  { violation with suggestion := some suggestion }

namespace Linter

/-- The linter for a root below the directory that the run starts in. The patterns given come before
those of the settings; the first that is wrong is an error. -/
def build (directory : String) (root : Option String) (excludes : List String) (rules : List Rule)
    (config : Config) (catalog : Catalog) (failsOnParseError : Bool := false) :
    Except Pattern.Error Linter := do
  let root := root.getD config.analyzer.root
  let excludes ← (excludes ++ config.analyzer.exclude).mapM Pattern.parse
  pure
    { root := if Path.isAbsolute root then root else Path.join directory root
      rules, config, catalog, excludes, failsOnParseError }

/-! ### One script -/

/-- The findings of the rules that are not switched off, each with its rule. The flag is read before
every rule, and ends the list. -/
def findings (linter : Linter) (subject : Subject) :
    List Rule → Watch → List (Rule × Violation) × Watch
  | [], watch => ([], watch)
  | rule :: more, watch =>
    if !linter.config.isEnabled rule.name then
      linter.findings subject more watch
    else if watch.isSet then
      ([], watch.afterRead)
    else
      let (found, left) := rule.check subject watch.afterRead
      let (rest, left) := linter.findings subject more left
      (found.map (rule, ·) ++ rest, left)

/-- The finding with the severity that the settings give its rule. -/
def regrade (linter : Linter) (rule : Rule) (violation : Violation) : Violation :=
  { violation with severity := (linter.config.severity? rule.name).getD violation.severity }

/-- The edit that a rule's fix proposes for a finding. -/
def proposal? (outline : Outline) (rule : Rule) (violation : Violation) :
    Option (String × Edit) := do
  let remedy ← rule.remedy
  let edit ← remedy.edit? outline.text outline.nodes violation.location.span
  pure (remedy.title, edit)

/-- The finding as it is reported, with its edit. None when the edit does not fit the text. -/
def conclude? (linter : Linter) (outline : Outline) (rule : Rule) (violation : Violation) :
    Option (Violation × Option Edit) :=
  let violation := linter.regrade rule violation
  match proposal? outline rule violation with
  | none => some (violation, none)
  | some (title, edit) =>
    (edit.replacement? outline.text.toList).map fun replacement =>
      (violation.withFix title replacement, some edit)

/-- What is found in one script. The flag is read once more at the end; a script for which it is set
counts as one without findings. -/
def inspect (linter : Linter) (path : String) (script : Script) (watch : Watch) :
    Option Inspected × Watch :=
  let outline := script.outline
  let subject := Subject.ofScript linter.root linter.config.paths path script
  let (found, left) := linter.findings subject linter.rules watch
  if left.isSet then
    (some ⟨path, outline.text, [], []⟩, left.afterRead)
  else
    let concluded := found.mapM fun (rule, violation) => linter.conclude? outline rule violation
    (concluded.map fun results =>
      ⟨path, outline.text, results.map (·.1), results.filterMap (·.2)⟩, left.afterRead)

/-! ### All scripts -/

/-- The error that ends the run. -/
def fatal? (linter : Linter) (source : Source) : Option LoadError :=
  match source.outcome with
  | .ok _ => none
  | .error (.parse path message) =>
    if linter.failsOnParseError then some (.parse path message) else none
  | .error (.reader message) => some (.reader message)

/-- The scripts that could be read, with their paths. -/
def loaded (sources : List Source) : List (String × Outline) :=
  sources.filterMap fun source =>
    match source.outcome with
    | .ok outline => some (source.path, outline)
    | .error _ => none

/-- What is found in each of the scripts that could be read, under the watch of its place. -/
def inspectAll (linter : Linter) (schedule : Schedule) (scripts : List (String × Outline)) :
    List (Option Inspected × Watch) :=
  let index := Index.build linter.catalog (scripts.map (·.2))
  scripts.zipIdx.map fun ((path, outline), place) =>
    linter.inspect path (Script.ofOutline linter.catalog index outline) (schedule.watch place)

/-- What is found in all scripts. -/
def run (linter : Linter) (schedule : Schedule) (sources : List Source) :
    Except RunError (List Inspected) :=
  match sources.findSome? linter.fatal? with
  | some error => .error (.load error)
  | none =>
    let inspected := linter.inspectAll schedule (loaded sources)
    if schedule.endsSet || inspected.any (·.2.isSet) then
      .error .cancelled
    else
      match inspected.mapM (·.1) with
      | some results => .ok results
      | none => .error .misplacedFix

/-- The report on what was found, in order. -/
def reportOf (results : List Inspected) : Report :=
  Report.sort ⟨results.flatMap (·.violations), results.length⟩

/-- The report of a run. -/
def check (linter : Linter) (schedule : Schedule) (sources : List Source) :
    Except RunError Report :=
  (linter.run schedule sources).map reportOf

/-- The script with its fixes, if there are any. -/
def fixed? (result : Inspected) : Except RunError (Option FixedScript) :=
  match Edit.applyAll? result.text result.edits with
  | none => .error .misplacedFix
  | some outcome =>
    .ok (if outcome.applied = 0 then none else
      some ⟨result.path, outcome.text, outcome.applied, outcome.skipped⟩)

/-- The report of a run, with the scripts that fixes change. -/
def fix (linter : Linter) (schedule : Schedule) (sources : List Source) :
    Except RunError FixReport := do
  let results ← linter.run schedule sources
  let files ← results.mapM fixed?
  pure ⟨files.filterMap id, reportOf results⟩

end Linter

end ScriptLint
