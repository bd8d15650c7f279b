/-
**The rules of this linter: bans on libraries.**

Each of the four rules bans a library from some scripts: the editor's own from all that is built into
a player, spreadsheet libraries likewise, by import and by call, and queries from what runs every
frame. A preprocessor symbol lifts a ban: in a region whose condition mentions the symbol, and in a
script that defines it.

* `Ban.Kind` — the four rules, with their codes, names and texts; `Ban` — one of them with its
  settings.
* `Ban.reportsImport`, `Ban.reportsCall` — the nodes that a ban reports.
* `Ban.check` — the findings of a ban in a script; `Ban.rule` — the ban as a rule.
-/

import ScriptLint.Rule

namespace ScriptLint

/-- The rules of this linter. -/
inductive Ban.Kind where
  /-- The editor's library. -/
  | editorApi
  /-- Imports of spreadsheet libraries. -/
  | spreadsheetImport
  /-- Calls of spreadsheet libraries. -/
  | spreadsheetCall
  /-- Queries in what runs every frame. -/
  | frameQuery
deriving Repr, DecidableEq, Inhabited

/-- A rule with its settings. -/
structure Ban where
  kind : Ban.Kind
  /-- The symbol that lifts the ban. -/
  allowSymbol : String
  /-- The namespaces of the library. -/
  forbidden : List String
  severity : Severity
  /-- What runs every frame. Only the ban on queries asks. -/
  restriction : Restriction := Restriction.perFrame
deriving Repr, DecidableEq, Inhabited

namespace Ban

namespace Kind

/-- The rules in the order of their codes. -/
def all : List Kind :=
  [editorApi, spreadsheetImport, spreadsheetCall, frameQuery]

/-- The code of the rule. -/
def code : Kind → String
  | editorApi => "UL001"
  | spreadsheetImport => "UL002"
  | spreadsheetCall => "UL003"
  | frameQuery => "UL004"

/-- The name of the rule. -/
def name : Kind → String
  | editorApi => "editor-api-outside-editor"
  | spreadsheetImport => "spreadsheet-import-outside-editor"
  | spreadsheetCall => "spreadsheet-call-outside-editor"
  | frameQuery => "linq-in-update"

/-- What the rule does. -/
def description : Kind → String
  | editorApi => "Forbids UnityEditor APIs in runtime code"
  | spreadsheetImport => "Forbids spreadsheet library imports in runtime code"
  | spreadsheetCall => "Forbids spreadsheet library calls in runtime code"
  | frameQuery => "Forbids LINQ in per-frame methods"

/-- What the fix of the rule says it does. -/
def fixTitle : Kind → String
  | editorApi => "Remove editor-only code"
  | spreadsheetImport => "Remove spreadsheet import"
  | spreadsheetCall => "Mark spreadsheet call as editor-only"
  | frameQuery => "Flag per-frame LINQ allocation"

/-- How the fix of the rule changes a node. -/
def fixMethod : Kind → Remedy.Method
  | editorApi => .remove
  | spreadsheetImport => .remove
  | spreadsheetCall => .annotate "/* unity-lint: editor-only spreadsheet API */"
  | frameQuery => .annotate "/* unity-lint: LINQ allocates every frame */"

/-- The fix of the rule. -/
def remedy (kind : Kind) : Remedy :=
  ⟨kind.code, kind.fixTitle, kind.fixMethod⟩

/-- The rule looks at imports. -/
def looksAtImports : Kind → Bool
  | editorApi => true
  | spreadsheetImport => true
  | spreadsheetCall => false
  | frameQuery => false

/-- The rule looks at calls. -/
def looksAtCalls : Kind → Bool
  | editorApi => true
  | spreadsheetImport => false
  | spreadsheetCall => true
  | frameQuery => true

/-- The rule has to know what the call binds to. A query is known by its form. -/
def binds (kind : Kind) (call : Call) : Bool :=
  kind == editorApi || call.kind != .query

/-- What is said of an import from `target`. -/
def importMessage (kind : Kind) (target : String) : String :=
  match kind with
  | spreadsheetImport => "Spreadsheet library `" ++ target ++ "` imported in runtime code"
  | _ => "`using " ++ target ++ "` is editor-only and breaks player builds"

/-- What is said of a call that stands in `method`. -/
def callMessage (kind : Kind) (call : Call) (method : String) : String :=
  match kind with
  | spreadsheetCall =>
    let deed := if call.kind == .construction then "constructs" else "calls"
    "`" ++ call.callee ++ "` " ++ deed ++ " a spreadsheet library API in runtime code"
  | frameQuery => "LINQ `" ++ call.callee ++ "` allocates every frame in `" ++ method ++ "`"
  | _ => "`" ++ call.callee ++ "` calls an editor-only API"

/-- The first words of the advice on a finding. -/
def remark : Kind → String
  | editorApi => "Move this code into an Editor folder or"
  | spreadsheetImport => "Move spreadsheet handling into an Editor folder or"
  | spreadsheetCall => "Move this call into an Editor folder or"
  | frameQuery => "Use a loop over a cached collection, or"

end Kind

/-- The namespaces of spreadsheet libraries. -/
def spreadsheetNamespaces : List String :=
  ["OfficeOpenXml", "NPOI", "ClosedXML", "ExcelDataReader"]

/-- A rule with its default settings. -/
def ofKind (kind : Kind) : Ban :=
  match kind with
  | .editorApi => ⟨kind, "UNITY_EDITOR", ["UnityEditor"], .error, Restriction.perFrame⟩
  | .spreadsheetImport => ⟨kind, "UNITY_EDITOR", spreadsheetNamespaces, .error, Restriction.perFrame⟩
  | .spreadsheetCall => ⟨kind, "UNITY_EDITOR", spreadsheetNamespaces, .error, Restriction.perFrame⟩
  | .frameQuery =>
    ⟨kind, "ALLOW_LINQ_IN_UPDATE", ["System.Linq"], .warning, Restriction.perFrame⟩

/-! ### What a ban reports -/

/-- The ban is lifted at an offset. -/
def isLiftedAt (ban : Ban) (directives : List Directive) (offset : Nat) : Bool :=
  Directive.guards directives offset ban.allowSymbol

/-- The ban does not concern a script at all. -/
def exempts (ban : Ban) (subject : Subject) : Bool :=
  subject.role.isSuppressed ||
    Directive.defines subject.script.outline.directives ban.allowSymbol

/-- The ban is on the import. -/
def coversImport (ban : Ban) (found : Import) : Bool :=
  ban.forbidden.any fun outer => Name.isUnder outer found.target

/-- The ban is on the call. -/
def coversCall (ban : Ban) (symbols : Symbols) (call : Call) : Bool :=
  match ban.kind with
  | .editorApi => isForbidden symbols ban.forbidden call
  | .spreadsheetImport => false
  | .spreadsheetCall => call.kind != .query && isForbidden symbols ban.forbidden call
  | .frameQuery =>
    (call.kind == .query || isForbidden symbols ban.forbidden call) &&
      isRestricted symbols ban.restriction call

/-- The ban reports the import. -/
def reportsImport (ban : Ban) (subject : Subject) (found : Import) : Bool :=
  ban.coversImport found &&
    !ban.isLiftedAt subject.script.outline.directives found.span.start

/-- The ban reports the call. -/
def reportsCall (ban : Ban) (subject : Subject) (call : Call) : Bool :=
  ban.coversCall subject.script.symbols call &&
    !ban.isLiftedAt subject.script.outline.directives call.span.start

/-! ### Findings -/

/-- The advice on every finding of the ban. -/
def advice (ban : Ban) : Suggestion :=
  { message := ban.kind.remark ++ " wrap it in `#if " ++ ban.allowSymbol ++ "`" }

/-- A finding of the ban at a span. -/
def violation (ban : Ban) (subject : Subject) (span : Span) (message : String) : Violation :=
  { code := ban.kind.code
    rule := ban.kind.name
    severity := ban.severity
    location := subject.location span
    message
    suggestion := some ban.advice }

/-- The finding on an import. -/
def importFinding? (ban : Ban) (subject : Subject) (found : Import) : Option Violation :=
  if ban.reportsImport subject found then
    some (ban.violation subject found.span (ban.kind.importMessage found.target))
  else
    none

/-- The finding on a call. -/
def callFinding? (ban : Ban) (subject : Subject) (call : Call) : Option Violation :=
  if ban.reportsCall subject call then
    let method := (CallSite.ofCall subject.script.symbols call).method.getD ""
    some (ban.violation subject call.span (ban.kind.callMessage call method))
  else
    none

/-- The imports that the ban looks at. -/
def imports (ban : Ban) (subject : Subject) : List Import :=
  if ban.kind.looksAtImports then subject.script.outline.imports else []

/-- The calls that the ban looks at. -/
def calls (ban : Ban) (subject : Subject) : List Call :=
  if ban.kind.looksAtCalls then subject.script.outline.nodes.calls else []

/-- The findings in a script, imports before calls; nothing once the flag is set. -/
def check (ban : Ban) (subject : Subject) (watch : Watch) : List Violation × Watch :=
  if ban.exempts subject then
    ([], watch)
  else
    match scan (ban.importFinding? subject) (fun _ => false) (ban.imports subject) watch with
    | (none, left) => ([], left)
    | (some ofImports, left) =>
      match scan (ban.callFinding? subject) ban.kind.binds (ban.calls subject) left with
      | (none, left) => ([], left)
      | (some ofCalls, left) => (ofImports ++ ofCalls, left)

/-- The ban as a rule. -/
def rule (ban : Ban) : Rule where
  code := ban.kind.code
  name := ban.kind.name
  description := ban.kind.description
  severity := ban.severity
  remedy := some ban.kind.remedy
  check := ban.check

end Ban

end ScriptLint
