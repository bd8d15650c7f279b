/-
**Records in a settings file.**

A record is written as a table, whose entries are its fields, or as an array that holds the fields in
their order. A field that is not there has its default.

* `Value.mapEntries?` — the entries of a table. A date or time counts as a table too, with its text
  under a key of its own.
* `Value.fields?` — the fields of a record. Entries with other names and items beyond the last field
  are of no concern.
* `Value.exactFields?` — the same for a record that takes no more items than it has fields.
* `Entries.field?`, `Entries.optional?`, `Entries.required?` — one field of a record.
-/

import ScriptLint.Toml.Value

namespace ScriptLint.Toml

/-- The key of a date or time in the table that it counts as. -/
def momentKey : String := "$__toml_private_datetime"

/-- The entries of a table, or of a date or time. -/
def Value.mapEntries? : Value → Option Entries
  | table entries => some entries
  | datetime text => some [(momentKey, string text)]
  | _ => none

/-- The fields of a record. -/
def Value.fields? (names : List String) : Value → Option Entries
  | array items => some (names.zip items)
  | value => value.mapEntries?

/-- The fields of a record with no item beyond the last of them. -/
def Value.exactFields? (names : List String) : Value → Option Entries
  | table entries => some entries
  | array items => if items.length ≤ names.length then some (names.zip items) else none
  | _ => none

namespace Entries

/-- A field as `read` takes it, or its default where there is none. -/
def field? {α : Type} (entries : Entries) (name : String) (read : Value → Option α)
    (default : α) : Option α :=
  match entries.lookup name with
  | some value => read value
  | none => some default

/-- A field that may be missing. -/
def optional? {α : Type} (entries : Entries) (name : String) (read : Value → Option α) :
    Option (Option α) :=
  entries.field? name (fun value => (read value).map some) none

/-- A field that must be there. -/
def required? {α : Type} (entries : Entries) (name : String) (read : Value → Option α) :
    Option α :=
  (entries.lookup name).bind read

end Entries

end ScriptLint.Toml
