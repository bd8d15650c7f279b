/-
**Reading a settings file.**

A document is a sequence of lines: headers, keys with values, comments and blank lines. A value may
run over several lines.

* `key?` — a dotted key; `value?` — a value, nested to a bounded depth.
* `Reading` — the tables read so far and the path of the last header.
* `line?` — one line, with the lines that its value runs over.
* `parse?` — a whole document. Every line takes something away from the text, so the reading ends.
-/

import ScriptLint.Toml.Draft
import ScriptLint.Toml.Quoted

namespace ScriptLint.Toml

/-- The bound on the depth of values in each other and on the length of a dotted key. -/
def nestingLimit : Nat := 80

/-! ### Blanks, comments, line ends -/

/-- The text after spaces and tabs. -/
def dropBlanks (s : List Char) : List Char :=
  s.dropWhile fun c => c == ' ' || c == '\t'

/-- The text after a comment, if it starts with one. -/
def dropComment : List Char → List Char
  | '#' :: rest => rest.dropWhile isPlain
  | s => s

/-- The text after a line end, if it starts with one; the end of the text counts as one. -/
def lineEnd? : List Char → Option (List Char)
  | [] => some []
  | '\n' :: rest => some rest
  | '\r' :: '\n' :: rest => some rest
  | _ => none

/-- The text after the rest of a line that holds nothing more than a comment. -/
def lineRest? (s : List Char) : Option (List Char) :=
  lineEnd? (dropComment (dropBlanks s))

/-- The text after blanks, comments and line ends. -/
def dropGap (s : List Char) : List Char :=
  let after := dropComment (dropBlanks s)
  match lineEnd? after with
  | some next => if next.length < s.length then dropGap next else after
  | none => after
termination_by s.length

/-! ### Keys -/

/-- A character of a key without quotes. -/
def isKeyChar (c : Char) : Bool :=
  c.isAlphanum || c == '_' || c == '-'

/-- One part of a key. -/
def simpleKey? : List Char → Option (String × List Char)
  | '"' :: rest => (basic? rest).map fun (text, after) => (String.ofList text, after)
  | '\'' :: rest => (literal? rest).map fun (text, after) => (String.ofList text, after)
  | s =>
    let word := s.takeWhile isKeyChar
    if word.isEmpty then none else some (String.ofList word, s.drop word.length)

/-- The parts of a dotted key, blanks around each dropped. -/
def keyParts? (s : List Char) : Option (List String × List Char) := do
  let (part, after) ← simpleKey? (dropBlanks s)
  match dropBlanks after with
  | '.' :: rest =>
    if rest.length < s.length then do
      let (parts, after) ← keyParts? rest
      pure (part :: parts, after)
    else
      none
  | after => pure ([part], after)
termination_by s.length

/-- A dotted key: the path to the table, the key in it, and what follows. -/
def key? (s : List Char) : Option (List String × String × List Char) := do
  let (parts, after) ← keyParts? s
  guard (parts.length < nestingLimit)
  let last ← parts.getLast?
  pure (parts.dropLast, last, after)

/-! ### Values -/

/-- A character of a number, a date or a bare word. -/
def isScalarChar (c : Char) : Bool :=
  c.isAlphanum || c == '_' || c == '+' || c == '-' || c == '.' || c == ':'

/-- The value that a bare word is. -/
def scalarValue? (word : List Char) : Option Value :=
  if word = "true".toList then
    some (.boolean true)
  else if word = "false".toList then
    some (.boolean false)
  else
    ((moment? word).map Value.datetime).orElse fun _ =>
      ((integer? word).map Value.integer).orElse fun _ => (float? word).map Value.float

/-- A number, a date or a truth value. A date may be followed by a blank and a time. -/
def scalarAt? (s : List Char) : Option (Value × List Char) :=
  let word := s.takeWhile isScalarChar
  let after := s.drop word.length
  let joined : Option (Value × List Char) :=
    match date? word, after with
    | some (_, []), ' ' :: rest =>
      let time := rest.takeWhile isScalarChar
      (moment? (word ++ ' ' :: time)).map fun text => (.datetime text, rest.drop time.length)
    | _, _ => none
  joined.orElse fun _ => (scalarValue? word).map fun value => (value, after)

/-- The text after the given character and the blanks before it. -/
def dropMark? (c : Char) (s : List Char) : Option (List Char) :=
  expect? c (dropBlanks s)

mutual

/-- A value, with at most `depth` arrays and tables in each other. -/
def value? (depth : Nat) (s : List Char) : Option (Value × List Char) :=
  match depth, s with
  | 0, '[' :: _ | 0, '{' :: _ => none
  | depth + 1, '[' :: rest => do
    let (items, after) ← items? depth rest
    pure (.array items, after)
  | depth + 1, '{' :: rest =>
    match dropBlanks rest with
    | '}' :: after => some (.table [], after)
    | rest => do
      let (draft, after) ← members? depth (Draft.explicit []) rest
      pure (.table draft.entries, after)
  | _, '"' :: _ | _, '\'' :: _ => (string? s).map fun (text, after) => (.string text, after)
  | _, _ => scalarAt? s
termination_by (depth, 0)

/-- The items of an array from here to its closing bracket. -/
def items? (depth : Nat) (s : List Char) : Option (List Value × List Char) :=
  match dropGap s with
  | ']' :: rest => some ([], rest)
  | start => do
    let (item, after) ← value? depth start
    match dropGap after with
    | ']' :: rest => pure ([item], rest)
    | ',' :: rest =>
      if rest.length < s.length then
        let (items, last) ← items? depth rest
        pure (item :: items, last)
      else
        none
    | _ => none
termination_by (depth, s.length + 1)

/-- The keys and values of a table on one line, from here to its closing brace. -/
def members? (depth : Nat) (draft : Draft) (s : List Char) : Option (Draft × List Char) := do
  let (path, key, after) ← key? s
  let (value, after) ← value? depth (dropBlanks (← dropMark? '=' after))
  let draft ← draft.assign? path key value
  match dropBlanks after with
  | '}' :: rest => pure (draft, rest)
  | ',' :: rest => if rest.length < s.length then members? depth draft rest else none
  | _ => none
termination_by (depth, s.length + 1)

end

/-! ### Lines -/

/-- The tables read so far, and the path of the table that the next keys belong to. -/
structure Reading where
  root : Draft
  header : List String
deriving Inhabited

/-- A header: what it opens, and the text after its line. -/
def headerLine? (reading : Reading) (isElement : Bool) (s : List Char) :
    Option (Reading × List Char) := do
  let (path, key, after) ← key? s
  let after ← dropMark? ']' after
  let after ← if isElement then expect? ']' after else some after
  let after ← lineRest? after
  let change := if isElement then Draft.openElement? key else Draft.openTable? key
  let root ← reading.root.modifyAt? false change path
  pure (⟨root, path ++ [key]⟩, after)

/-- A key with its value, and the text after the line on which the value ends. -/
def assignmentLine? (reading : Reading) (s : List Char) : Option (Reading × List Char) := do
  let (path, key, after) ← key? s
  let (value, after) ← value? (nestingLimit - 1) (dropBlanks (← dropMark? '=' after))
  let after ← lineRest? after
  let root ← reading.root.modifyAt? false (Draft.assign? path key value) reading.header
  pure ({ reading with root }, after)

/-- One line. -/
def line? (reading : Reading) (s : List Char) : Option (Reading × List Char) :=
  match dropBlanks s with
  | '[' :: '[' :: rest => headerLine? reading true rest
  | '[' :: rest => headerLine? reading false rest
  | start =>
    match lineRest? start with
    | some after => some (reading, after)
    | none => assignmentLine? reading start

/-- All lines from here on. -/
def lines? (reading : Reading) (s : List Char) : Option Reading :=
  match s with
  | [] => some reading
  | c :: rest => do
    let (reading, after) ← line? reading (c :: rest)
    if _shorter : after.length < (c :: rest).length then lines? reading after else none
termination_by s.length
decreasing_by exact _shorter

/-- The text without a byte order mark at its start. -/
def dropOrderMark : List Char → List Char
  | c :: rest => if c.toNat = 0xFEFF then rest else c :: rest
  | [] => []

/-- The entries of a document. -/
def parse? (text : String) : Option Entries :=
  (lines? ⟨Draft.explicit [], []⟩ (dropOrderMark text.toList)).map (·.root.entries)

end ScriptLint.Toml
