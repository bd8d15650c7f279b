/-
**Values of a settings file.**

* `Value` — the values of TOML. A float is kept as the bits of its double, a date or time as its
  canonical text, a table as its entries in the order of the text, each key once.
* `Value.text?`, `Value.items?` and the like — the value as one of a kind.
* `Value.choice?` — the name that a value chooses.
-/

namespace ScriptLint.Toml

/-- A value. -/
inductive Value where
  | string (text : String)
  | integer (number : Int)
  | float (bits : UInt64)
  | boolean (truth : Bool)
  | datetime (text : String)
  | array (items : List Value)
  | table (entries : List (String × Value))
deriving Repr, Inhabited

/-- The entries of a table. -/
abbrev Entries := List (String × Value)

namespace Value

/-- The text of a string. -/
def text? : Value → Option String
  | string text => some text
  | _ => none

/-- The truth value. -/
def truth? : Value → Option Bool
  | boolean truth => some truth
  | _ => none

/-- The whole number. -/
def number? : Value → Option Int
  | integer number => some number
  | _ => none

/-- The items of an array. -/
def items? : Value → Option (List Value)
  | array items => some items
  | _ => none

/-- The texts of an array of strings. -/
def texts? (value : Value) : Option (List String) := do
  (← value.items?).mapM text?

/-- The text of a string, or of a date or time. -/
def written? : Value → Option String
  | string text => some text
  | datetime text => some text
  | _ => none

/-- The texts of an array of strings, dates and times. -/
def writtenAll? (value : Value) : Option (List String) := do
  (← value.items?).mapM written?

/-- The texts of those items of an array that are strings. -/
def someTexts? (value : Value) : Option (List String) :=
  value.items?.map (·.filterMap text?)

/-- The whole numbers of an array. -/
def numbers? (value : Value) : Option (List Int) := do
  (← value.items?).mapM number?

/-- A whole number that is not negative. -/
def count? : Value → Option Nat
  | integer (.ofNat number) => some number
  | _ => none

/-- A whole number from 0 to 255. -/
def byte? (value : Value) : Option Nat :=
  value.count?.filter (· < 256)

/-- The array or table has nothing in it. -/
def isVoid : Value → Bool
  | array [] => true
  | table [] => true
  | _ => false

/-- The name that a value chooses: a string, or a table with that one key and nothing in it. -/
def choice? : Value → Option String
  | string text => some text
  | table [(key, value)] => if value.isVoid then some key else none
  | _ => none

end Value

end ScriptLint.Toml
