/-
**The settings of a run.**

* `Config.Analyzer` — where to look: the root, the patterns of paths to leave out, whether ignore
  files count, the number of workers.
* `Config.RuleSettings` — what is set for one rule: switched on or off, its severity, and any further
  options, which the rule reads by itself.
* `Config` — these with the folder names and all other sections of the file, kept as they are.
* `Config.parse?` — the settings that a text gives; none for a text that is no TOML, or has a field of
  the wrong kind.
-/

import ScriptLint.Path.Role
import ScriptLint.Report
import ScriptLint.Toml.Document
import ScriptLint.Toml.Fields

namespace ScriptLint

/-- Where a run looks for scripts. -/
structure Config.Analyzer where
  root : String := "."
  /-- Patterns of paths to leave out. -/
  exclude : List String := ["**/Library/**", "**/Temp/**", "**/obj/**"]
  /-- Files that version control ignores are left out. -/
  respectsIgnoreFiles : Bool := true
  /-- The number of workers; none for one per core. -/
  parallelism : Option Nat := none
deriving Repr, DecidableEq, Inhabited

/-- What is set for a rule. -/
structure Config.RuleSettings where
  enabled : Option Bool := none
  severity : Option Severity := none
  options : Toml.Entries := []
deriving Repr, Inhabited

/-- The settings of a run. -/
structure Config where
  analyzer : Config.Analyzer := {}
  paths : Path.Tokens := {}
  rules : List (String × Config.RuleSettings) := []
  sections : Toml.Entries := []
deriving Repr, Inhabited

namespace Config

/-! ### Looking things up -/

/-- The value of an option, as `read` takes it. -/
def RuleSettings.option? {α : Type} (settings : RuleSettings) (key : String)
    (read : Toml.Value → Option α) : Option α :=
  (settings.options.lookup key).bind read

/-- The settings of a rule. -/
def rule? (config : Config) (name : String) : Option RuleSettings :=
  config.rules.lookup name

/-- The rule is not switched off. -/
def isEnabled (config : Config) (name : String) : Bool :=
  ((config.rule? name).bind (·.enabled)).getD true

/-- The severity that takes the place of the rule's own. -/
def severity? (config : Config) (name : String) : Option Severity :=
  (config.rule? name).bind (·.severity)

/-- A further section of the file. -/
def section? (config : Config) (key : String) : Option Toml.Value :=
  config.sections.lookup key

/-! ### Reading -/

open Toml

/-- The part on where to look. -/
def Analyzer.read? (value : Value) : Option Analyzer := do
  let fields ← value.fields? ["root", "exclude", "respect_gitignore", "parallelism"]
  let default : Analyzer := {}
  pure
    { root := ← fields.field? "root" Value.text? default.root
      exclude := ← fields.field? "exclude" Value.texts? default.exclude
      respectsIgnoreFiles :=
        ← fields.field? "respect_gitignore" Value.truth? default.respectsIgnoreFiles
      parallelism := ← fields.optional? "parallelism" Value.count? }

/-- The first two texts of an array. -/
def readPair? : Value → Option (String × String)
  | .array (first :: second :: _) => do pure (← first.text?, ← second.text?)
  | _ => none

/-- The part on the names of folders. -/
def readTokens? (value : Value) : Option Path.Tokens := do
  let fields ← value.fields?
    ["editor_folder", "vendor_folders", "package_prefixes", "cache_pair", "plugins_folder"]
  let default : Path.Tokens := {}
  pure
    { editorFolder := ← fields.field? "editor_folder" Value.text? default.editorFolder
      vendorFolders := ← fields.field? "vendor_folders" Value.texts? default.vendorFolders
      packagePrefixes := ← fields.field? "package_prefixes" Value.texts? default.packagePrefixes
      cachePair := ← fields.field? "cache_pair" readPair? default.cachePair
      pluginsFolder := ← fields.field? "plugins_folder" Value.text? default.pluginsFolder }

/-- The severity that a value names. -/
def readSeverity? (value : Value) : Option Severity :=
  value.choice?.bind Severity.ofName?

/-- What is set for one rule. -/
def RuleSettings.read? (value : Value) : Option RuleSettings := do
  let fields ← value.mapEntries?
  pure
    { enabled := ← fields.optional? "enabled" Value.truth?
      severity := ← fields.optional? "severity" readSeverity?
      options := fields.filter fun (key, _) => key != "enabled" && key != "severity" }

/-- What is set for all rules. -/
def readRules? (value : Value) : Option (List (String × RuleSettings)) := do
  (← value.mapEntries?).mapM fun (name, settings) => do
    pure (name, ← RuleSettings.read? settings)

/-- The settings in the entries of a file. -/
def ofEntries? (entries : Entries) : Option Config := do
  pure
    { analyzer := ← entries.field? "analyzer" Analyzer.read? {}
      paths := ← entries.field? "paths" readTokens? {}
      rules := ← entries.field? "rules" readRules? []
      sections := entries.filter fun (key, _) => !(["analyzer", "paths", "rules"].contains key) }

/-- The settings that a text gives. -/
def parse? (text : String) : Option Config :=
  (Toml.parse? text).bind ofEntries?

end Config

end ScriptLint
