/-
**JSON text.**

* `Json` — the values a report is made of.
* `Json.pretty` — their text over several lines, two blanks deeper inside each bracket.
* `Json.quoted` — a string with quotes around it; only quotes, backslashes and control characters are
  escaped.
-/

namespace ScriptLint.Text

/-- A JSON value. -/
inductive Json where
  | null
  | number (value : Nat)
  | text (value : String)
  | list (items : List Json)
  | object (fields : List (String × Json))
deriving Repr, Inhabited

namespace Json

/-- A control character as an escape with four digits. -/
def control (c : Char) : List Char :=
  let digits := Nat.toDigits 16 c.toNat
  ['\\', 'u'] ++ List.replicate (4 - digits.length) '0' ++ digits

/-- A character inside quotes. -/
def escape (c : Char) : List Char :=
  if c == '"' then ['\\', '"']
  else if c == '\\' then ['\\', '\\']
  else if c == '\n' then ['\\', 'n']
  else if c == '\r' then ['\\', 'r']
  else if c == '\t' then ['\\', 't']
  else if c.toNat == 8 then ['\\', 'b']
  else if c.toNat == 12 then ['\\', 'f']
  else if c.toNat < 32 then control c
  else [c]

/-- A string in quotes. -/
def quoted (value : String) : String :=
  "\"" ++ String.ofList (value.toList.flatMap escape) ++ "\""

/-- The blanks before a line at a depth. -/
def indent (depth : Nat) : String :=
  String.ofList (List.replicate (2 * depth) ' ')

/-- The items of a bracket, one to a line. -/
def block (opening closing : String) (depth : Nat) (items : List String) : String :=
  if items.isEmpty then
    opening ++ closing
  else
    let lines := items.map (indent (depth + 1) ++ ·)
    opening ++ "\n" ++ String.intercalate ",\n" lines ++ "\n" ++ indent depth ++ closing

mutual

/-- The text of a value at a depth. -/
def render (depth : Nat) : Json → String
  | null => "null"
  | number value => toString value
  | text value => quoted value
  | list items => block "[" "]" depth (renderItems (depth + 1) items)
  | object fields => block "\x7b" "\x7d" depth (renderFields (depth + 1) fields)

/-- The texts of the items of a list. -/
def renderItems (depth : Nat) : List Json → List String
  | [] => []
  | item :: more => render depth item :: renderItems depth more

/-- The texts of the fields of an object. -/
def renderFields (depth : Nat) : List (String × Json) → List String
  | [] => []
  | (key, value) :: more => (quoted key ++ ": " ++ render depth value) :: renderFields depth more

end

/-- The text of a value. -/
def pretty (value : Json) : String :=
  render 0 value

end Json

end ScriptLint.Text
