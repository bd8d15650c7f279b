/-
**The texts of a report.**

* `Report.inFull` — every finding over several lines, with its advice and whether a fix is at hand, and
  a summary. Severities have colours.
* `Report.compact` — one line for each finding.
* `Report.json` — the report as JSON.
* `Report.summary` — the counts, in the colour of the gravest finding.
-/

import ScriptLint.Report
import ScriptLint.Text.Json

namespace ScriptLint

open Text (Json)

/-- The text in the colour of a number, for a terminal. -/
def coloured (colour text : String) : String :=
  "\x1b[" ++ colour ++ "m" ++ text ++ "\x1b[0m"

/-- The number of the colour of a severity. -/
def Severity.colour : Severity → String
  | info => "34"
  | warning => "33"
  | error => "31"

/-- The lines for a finding in a full report. -/
def Violation.inFull (violation : Violation) : String :=
  let severity := coloured violation.severity.colour violation.severity.name
  let advice :=
    match violation.suggestion with
    | none => ""
    | some suggestion =>
      "  = help: " ++ suggestion.message ++ "\n" ++
        if suggestion.replacement.isSome then "  = fix available: run `unity-lint fix`\n" else ""
  violation.code ++ " " ++ violation.rule ++ " at " ++ violation.location.place ++ "\n" ++
    "  " ++ severity ++ ": " ++ violation.message ++ "\n" ++ advice ++ "\n"

/-- The replacement as JSON. -/
def Replacement.json (replacement : Replacement) : Json :=
  .object
    [("range", .object
        [("start", .number replacement.span.start), ("end", .number replacement.span.stop)]),
      ("new_text", .text replacement.newText)]

/-- The advice as JSON. -/
def Suggestion.json (suggestion : Suggestion) : Json :=
  .object
    [("message", .text suggestion.message),
      ("replacement", (suggestion.replacement.map Replacement.json).getD .null)]

/-- The location as JSON. -/
def Location.json (location : Location) : Json :=
  .object
    [("file", .text location.file), ("line", .number location.line),
      ("column", .number location.column), ("offset", .number location.offset),
      ("length", .number location.length)]

/-- The finding as JSON. -/
def Violation.json (violation : Violation) : Json :=
  .object
    [("code", .text violation.code), ("rule", .text violation.rule),
      ("severity", .text violation.severity.name), ("location", violation.location.json),
      ("message", .text violation.message),
      ("suggestion", (violation.suggestion.map Suggestion.json).getD .null)]

namespace Report

/-- The counts of a report. -/
def summary (report : Report) : String :=
  let errors := report.count .error
  let warnings := report.count .warning
  let colour := if 0 < errors then "31" else if 0 < warnings then "33" else "32"
  let counts := [errors, warnings, report.count .info, report.filesChecked].map toString
  let texts := ["Found ", " error(s), ", " warning(s), ", " info(s) in "]
  coloured colour (String.join (List.zipWith (· ++ ·) texts counts) ++ " file(s)") ++ "\n"

/-- The full text of a report. -/
def inFull (report : Report) : String :=
  String.join (report.violations.map Violation.inFull) ++ report.summary

/-- One line for each finding. -/
def compact (report : Report) : String :=
  String.join (report.violations.map fun violation => violation.summary ++ "\n")

/-- The report as JSON. -/
def json (report : Report) : Json :=
  .object
    [("violations", .list (report.violations.map Violation.json)),
      ("files_checked", .number report.filesChecked)]

end Report

end ScriptLint
