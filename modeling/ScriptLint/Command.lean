/-
**The program.**

* `Command.run` — what the program prints and leaves on the disk, and the number it ends with: 0 when
  all is well, 1 when it fails or finds errors, 2 when the arguments are wrong.
* `Command.check`, `Command.fix`, `Command.listRules`, `Command.init` — the commands.
-/

import ScriptLint.Catalog.Section
import ScriptLint.Command.Arguments
import ScriptLint.Command.Settings
import ScriptLint.Linter.Project
import ScriptLint.Report.Format

namespace ScriptLint.Command

/-- The result of the program. -/
structure Outcome where
  output : String
  exit : Nat
  disk : Disk
deriving Repr, DecidableEq, Inhabited

/-- The program ends without having done anything. -/
def Session.fail (session : Session) (exit : Nat) : Outcome :=
  ⟨"", exit, session.disk⟩

/-- The program prints a text and is done. -/
def Session.print (session : Session) (output : String) : Outcome :=
  ⟨output, 0, session.disk⟩

/-! ### Which rules run -/

/-- The rules of the preset. -/
def Selection.ofPreset (selection : Selection) (bans : List Ban) : List Ban :=
  match selection.preset with
  | none => bans
  | some preset => bans.filter fun ban => preset.kinds.contains ban.kind

/-- The names in a list with commas. -/
def namesIn (list : String) : List String :=
  (((List.splitOn ',' list.toList).map Text.trim).filter (!·.isEmpty)).map String.ofList

/-- The rule has the name, or the code, ASCII case aside. -/
def isNamed (ban : Ban) (name : String) : Bool :=
  ban.kind.name == name || Text.equalIgnoringAsciiCase ban.kind.code name

/-- The rules that are named. -/
def Selection.ofNames (selection : Selection) (bans : List Ban) : List Ban :=
  match selection.rules with
  | none => bans
  | some list => bans.filter fun ban => (namesIn list).any (isNamed ban)

/-- The rules of a run. -/
def Selection.bans (selection : Selection) (config : Config) : List Ban :=
  selection.ofNames (selection.ofPreset (Ban.ofConfig config))

/-- The linter for a path; none when the settings or the patterns are wrong. -/
def linter? (session : Session) (path : String) (selection : Selection) (config : Option String) :
    Option Linter := do
  let config ← (Settings.find session path config).load? session
  let catalog ← Catalog.ofConfig? config
  let rules := (selection.bans config).map Ban.rule
  (Linter.build session.directory (some path) selection.exclude rules config catalog).toOption

/-! ### The commands -/

/-- The text of a report. Of the form with excerpts, only the summary goes to the output. -/
def Format.render (format : Format) (report : Report) : String :=
  match format with
  | .text => report.inFull
  | .json => report.json.pretty ++ "\n"
  | .compact => report.compact
  | .pretty => report.summary

/-- Reports what the rules find. -/
def check (session : Session) (path : String) (format : Format) (selection : Selection)
    (config : Option String) : Outcome :=
  match linter? session path selection config with
  | none => session.fail 1
  | some linter =>
    match linter.checkDisk session.disk with
    | .error _ => session.fail 1
    | .ok report => ⟨format.render report, if report.hasErrors then 1 else 0, session.disk⟩

/-- The line on a changed script. -/
def fixedLine (root : String) (file : FixedScript) : String :=
  let applied := toString file.applied
  let skipped := if 0 < file.skipped then ", " ++ toString file.skipped ++ " overlapping skipped" else ""
  Path.fromRoot root file.path ++ ": " ++ applied ++ " fix(es)" ++ skipped ++ "\n"

/-- The lines on a run that fixes. -/
def fixedText (root : String) (isDryRun : Bool) (fixed : FixReport) : String :=
  let verb := if isDryRun then "Would apply " else "Applied "
  let counts := [fixed.applied, fixed.files.length, fixed.report.violations.length,
    fixed.report.filesChecked].map toString
  let texts := [" fix(es) in ", " file(s); ", " diagnostic(s) in ", " file(s) checked\n"]
  String.join (fixed.files.map (fixedLine root)) ++ verb ++
    String.join (List.zipWith (· ++ ·) counts texts)

/-- Applies the fixes of what the rules find. -/
def fix (session : Session) (path : String) (isDryRun : Bool) (selection : Selection)
    (config : Option String) : Outcome :=
  match linter? session path selection config with
  | none => session.fail 1
  | some linter =>
    match linter.fixDisk session.disk with
    | .error _ => session.fail 1
    | .ok fixed =>
      match if isDryRun then some session.disk else fixed.save? session.disk with
      | none => session.fail 1
      | some disk => ⟨fixedText linter.root isDryRun fixed, 0, disk⟩

/-- The text with blanks after it up to a width. -/
def padded (width : Nat) (text : String) : String :=
  text ++ String.ofList (List.replicate (width - text.length) ' ')

/-- The line on a rule, or the heading of these lines. -/
def ruleLine (code name fix description : String) : String :=
  padded 8 code ++ " " ++ padded 36 name ++ " " ++ padded 38 fix ++ " " ++ description ++ "\n"

/-- The line on a preset. -/
def presetLine (preset : Preset) : String :=
  let codes := String.intercalate ", " (preset.kinds.map (·.code))
  let remark := if preset == .recommended then " (default)" else ""
  "  " ++ padded 12 preset.name ++ " - " ++ codes ++ remark ++ "\n"

/-- The rules and presets there are. -/
def ruleList : String :=
  let ofKind (kind : Ban.Kind) : String :=
    ruleLine kind.code kind.name kind.fixTitle kind.description
  "Available rules:\n\n" ++ ruleLine "Code" "Name" "Fix" "Description" ++
    String.ofList (List.replicate 120 '-') ++ "\n" ++
    String.join (Ban.Kind.all.map ofKind) ++
    "\nPresets (--preset):\n" ++ String.join (Preset.all.map presetLine) ++
    "\nUse --rules to filter specific rules, e.g.:\n" ++
    "  unity-lint check --rules linq-in-update\n" ++
    "  unity-lint fix --rules UL001,UL002 --dry-run\n" ++
    "  unity-lint check --preset minimal\n"

/-- The lines of the settings file that a project starts with. -/
def initialLines : List String :=
  ["# unity-lint configuration",
    "# Place this file at the root of your Unity project, next to ProjectSettings/.",
    "",
    "[analyzer]",
    "# Glob patterns to exclude from analysis",
    "exclude = [",
    "    \"**/Library/**\",",
    "    \"**/Temp/**\",",
    "    \"**/obj/**\",",
    "]",
    "",
    "# Respect .gitignore files",
    "respect_gitignore = true",
    "",
    "# Worker threads (default: one per core)",
    "# parallelism = 4",
    "",
    "# Folder names that decide whether a script is editor-only or third-party.",
    "# Scripts under these folders are never reported.",
    "[paths]",
    "editor_folder = \"Editor\"",
    "vendor_folders = [\"Vendor\", \"ThirdParty\"]",
    "# package_prefixes = [\"com.unity.\"]",
    "# cache_pair = [\"Library\", \"PackageCache\"]",
    "# plugins_folder = \"Plugins\"",
    "",
    "# Rule configurations",
    "# Each rule can be enabled/disabled and have its severity overridden",
    "",
    "[rules.editor-api-outside-editor]",
    "enabled = true",
    "# severity = \"warning\"  # Override default severity",
    "allow_symbol = \"UNITY_EDITOR\"",
    "# forbidden_namespaces = [\"UnityEditor\"]",
    "",
    "[rules.spreadsheet-import-outside-editor]",
    "enabled = true",
    "allow_symbol = \"UNITY_EDITOR\"",
    "# forbidden_namespaces = [\"OfficeOpenXml\", \"NPOI\", \"ClosedXML\", \"ExcelDataReader\"]",
    "",
    "[rules.spreadsheet-call-outside-editor]",
    "enabled = true",
    "allow_symbol = \"UNITY_EDITOR\"",
    "",
    "[rules.linq-in-update]",
    "enabled = true",
    "allow_symbol = \"ALLOW_LINQ_IN_UPDATE\"",
    "# method_names = [\"Update\", \"LateUpdate\", \"FixedUpdate\", \"OnGUI\"]",
    "# attribute_substrings = [\"PerFrame\", \"HotPath\"]",
    "# interface_substrings = [\"IUpdatable\", \"ITickable\", \"ILateTickable\", \"IFixedTickable\"]",
    "",
    "# Extra types and extension methods for the resolver",
    "# [catalog]",
    "# namespaces = [\"Game.Tools\"]",
    "#",
    "# [[catalog.types]]",
    "# name = \"Game.Core.ITickSystem\"",
    "# kind = \"interface\"",
    "# methods = [\"Tick\"]",
    "#",
    "# [[catalog.extensions]]",
    "# container = \"Cysharp.Linq.ZLinq\"",
    "# methods = [\"AsValueEnumerable\"]"]

/-- The settings file that a project starts with. -/
def initialSettings : String :=
  String.join (initialLines.map (· ++ "\n"))

/-- What is printed when the settings file has been made. -/
def initText (path : String) : String :=
  "Created " ++ path ++ "\n\nNext steps:\n" ++
    "  1. Edit unity-lint.toml to configure rules\n" ++
    "  2. Run: unity-lint check Assets\n" ++
    "  3. Run: unity-lint fix Assets --dry-run\n"

/-- Makes a settings file. One that is there is not replaced unless asked for. -/
def init (session : Session) (isForced : Bool) : Outcome :=
  let path := "./unity-lint.toml"
  if (session.disk.find? session.folder path).isSome && !isForced then
    session.fail 1
  else
    match session.disk.write? session.folder path initialSettings with
    | none => session.fail 1
    | some disk => ⟨initText path, 0, disk⟩

/-! ### The program -/

/-- What the program says about itself. -/
def versionText : String := "unity-lint 0.2.0\n"

/-- How the program is used. -/
def helpText : String :=
  "Static analysis for Unity C# projects: editor-only APIs, spreadsheet libraries and per-frame " ++
    "LINQ in runtime code\n\nUsage: unity-lint [OPTIONS] <COMMAND>\n\nCommands:\n" ++
    "  check       Run lint checks\n" ++
    "  fix         Apply available fixes\n" ++
    "  list-rules  List available rules\n" ++
    "  init        Initialize configuration file\n"

/-- Runs a command. -/
def Invocation.run (session : Session) (invocation : Invocation) : Outcome :=
  match invocation.action with
  | .check path format selection => check session path format selection invocation.config
  | .fix path isDryRun selection => fix session path isDryRun selection invocation.config
  | .listRules => session.print ruleList
  | .init isForced => init session isForced

/-- The program, started with arguments. -/
def run (session : Session) (arguments : List String) : Outcome :=
  match Invocation.ofArguments arguments with
  | .ok invocation => invocation.run session
  | .error .misuse => session.fail 2
  | .error .help => session.print helpText
  | .error .version => session.print versionText

end ScriptLint.Command
