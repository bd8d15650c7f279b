/-
**Findings and reports.**

* `Severity` — information, warning, error, in rising order.
* `Location` — a span of a file with its line and column.
* `Violation` — one finding; `Violation.describe` is its text over several lines, `Violation.summary`
  its text on one.
* `Report` — the findings of a run and the number of files looked at. `Report.sort` is stable and
  goes by file, offset and code.
-/

import ScriptLint.Edit
import ScriptLint.Path
import ScriptLint.Text.Measure

namespace ScriptLint

/-- How grave a finding is. -/
inductive Severity where
  | info
  | warning
  | error
deriving Repr, DecidableEq, Inhabited

namespace Severity

/-- The place of a severity in the rising order. -/
def rank : Severity → Nat
  | info => 0
  | warning => 1
  | error => 2

/-- The word for a severity. -/
def name : Severity → String
  | info => "info"
  | warning => "warning"
  | error => "error"

/-- The severity that a word names. -/
def ofName? (word : String) : Option Severity :=
  [info, warning, error].find? (·.name == word)

end Severity

/-- A span of a file, with the place an editor shows for its start. -/
structure Location where
  file : String
  line : Nat
  column : Nat
  offset : Nat
  length : Nat
deriving Repr, DecidableEq, Inhabited

/-- The location of a span in a file's text. -/
def Location.ofSpan (file text : String) (span : Span) : Location :=
  let place := Text.position text span.start
  ⟨file, place.line, place.column, span.start, span.length⟩

/-- The span of a location. -/
def Location.span (location : Location) : Span :=
  ⟨location.offset, location.offset + location.length⟩

/-- Advice on a finding, with a replacement that follows it where there is one. -/
structure Suggestion where
  message : String
  replacement : Option Replacement := none
deriving Repr, DecidableEq, Inhabited

/-- A finding of a rule. -/
structure Violation where
  code : String
  rule : String
  severity : Severity
  location : Location
  message : String
  suggestion : Option Suggestion
deriving Repr, DecidableEq, Inhabited

/-- The place of a location as file, line and column. -/
def Location.place (location : Location) : String :=
  let line := toString location.line
  let column := toString location.column
  location.file ++ ":" ++ line ++ ":" ++ column

namespace Violation

/-- The text of a finding over several lines, with its advice. -/
def describe (violation : Violation) : String :=
  violation.code ++ " " ++ violation.rule ++ " at " ++ violation.location.place ++ "\n" ++
    "  " ++ violation.severity.name ++ ": " ++ violation.message ++ "\n" ++
    match violation.suggestion with
    | some suggestion => "  = help: " ++ suggestion.message ++ "\n"
    | none => ""

/-- The text of a finding on one line. -/
def summary (violation : Violation) : String :=
  violation.location.place ++ ": " ++ violation.severity.name ++ " [" ++ violation.code ++ "] " ++
    violation.message

/-- The order of findings: by file, then offset, then code. -/
def compare (a b : Violation) : Ordering :=
  (Path.compare a.location.file b.location.file).then
    ((Ord.compare a.location.offset b.location.offset).then
      (Path.compareText a.code.toList b.code.toList))

end Violation

/-- A finding prepared for display beside the text it is about. -/
structure Diagnostic where
  title : String
  help : Option String
  label : String
  offset : Nat
  length : Nat
deriving Repr, DecidableEq, Inhabited

/-- The display of a finding: its message under its code, the rule's name at its span. -/
def Diagnostic.ofViolation (violation : Violation) : Diagnostic where
  title := "[" ++ violation.code ++ "] " ++ violation.message
  help := violation.suggestion.map (·.message)
  label := violation.rule
  offset := violation.location.offset
  length := violation.location.length

/-- The findings of a run. -/
structure Report where
  violations : List Violation
  filesChecked : Nat
deriving Repr, DecidableEq, Inhabited

namespace Report

/-- The report of a run that looked at nothing. -/
def empty : Report :=
  ⟨[], 0⟩

/-- The findings of both reports. -/
def append (a b : Report) : Report :=
  ⟨a.violations ++ b.violations, a.filesChecked + b.filesChecked⟩

/-- Some finding is an error. -/
def hasErrors (report : Report) : Bool :=
  report.violations.any (·.severity == .error)

/-- The findings with a code. -/
def byCode (report : Report) (code : String) : List Violation :=
  report.violations.filter (·.code == code)

/-- The number of findings of a severity. -/
def count (report : Report) (severity : Severity) : Nat :=
  report.violations.countP (·.severity == severity)

/-- Some finding is at least as grave. -/
def hasAt (report : Report) (severity : Severity) : Bool :=
  report.violations.any fun violation => severity.rank ≤ violation.severity.rank

/-- The findings in order; equal ones stay as they were. -/
def sort (report : Report) : Report :=
  { report with violations := report.violations.mergeSort fun a b => (a.compare b).isLE }

end Report

end ScriptLint
