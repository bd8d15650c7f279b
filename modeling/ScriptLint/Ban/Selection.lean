/-
**Which rules run, and with which options.**

* `Ban.configure` — a rule with the options of its section in the settings; an option of the wrong
  kind is passed over, and of a list only the texts count.
* `Ban.ofConfig` — all rules, each with its options.
* `Preset` — sets of rules with their default options.
-/

import ScriptLint.Ban
import ScriptLint.Config

namespace ScriptLint

namespace Ban

/-- The restriction with the options that are about it. -/
def configureRestriction (restriction : Restriction) (settings : Config.RuleSettings) :
    Restriction :=
  let texts (key : String) (other : List String) : List String :=
    (settings.option? key Toml.Value.someTexts?).getD other
  { restriction with
    names := texts "method_names" restriction.names
    attributeMarks := texts "attribute_substrings" restriction.attributeMarks
    interfaceMarks := texts "interface_substrings" restriction.interfaceMarks }

/-- The ban with its options. -/
def configure (ban : Ban) (settings : Config.RuleSettings) : Ban :=
  { ban with
    allowSymbol := (settings.option? "allow_symbol" Toml.Value.text?).getD ban.allowSymbol
    forbidden :=
      (settings.option? "forbidden_namespaces" Toml.Value.someTexts?).getD ban.forbidden
    restriction :=
      match ban.kind with
      | .frameQuery => configureRestriction ban.restriction settings
      | _ => ban.restriction }

/-- A rule as the settings have it. -/
def ofConfigKind (config : Config) (kind : Kind) : Ban :=
  match config.rule? kind.name with
  | some settings => (ofKind kind).configure settings
  | none => ofKind kind

/-- All rules as the settings have them. -/
def ofConfig (config : Config) : List Ban :=
  Kind.all.map (ofConfigKind config)

end Ban

/-- A set of rules. -/
inductive Preset where
  /-- Every rule. -/
  | recommended
  /-- Only what breaks the build of a player. -/
  | minimal
deriving Repr, DecidableEq, Inhabited

namespace Preset

/-- The presets. -/
def all : List Preset :=
  [recommended, minimal]

/-- The name of a preset. -/
def name : Preset → String
  | recommended => "recommended"
  | minimal => "minimal"

/-- The preset of a name, ASCII case aside. -/
def ofName? (name : String) : Option Preset :=
  all.find? fun preset => Text.equalIgnoringAsciiCase preset.name name

/-- The rules of a preset. -/
def kinds : Preset → List Ban.Kind
  | recommended => Ban.Kind.all
  | minimal => [.editorApi, .spreadsheetImport]

/-- The rules of a preset with their default settings. -/
def bans (preset : Preset) : List Ban :=
  preset.kinds.map Ban.ofKind

end Preset

end ScriptLint
