/-
**Finding the directives of a script.**

A directive is a line whose first non-blank character is `#`, unless the line begins inside a block
comment or a string that runs over several lines. So the scanner goes line by line and carries a
lexical mode from each line to the next.

* `Mode` — where the start of a line may lie.
* `Mode.step` — one move inside a line: a literal opener, a literal on one line, or one character.
  It always leaves less to read (`Mode.step_length`).
* `Mode.advance` — the mode at the end of a line.
* `readLine` — a line that is a directive leaves the mode alone; any other line advances it.
* `scan` — all lines, with the offset of each.
-/

import ScriptLint.Directive
import ScriptLint.Text.Measure

namespace ScriptLint.Directive

/-- What a place in a script lies in. -/
inductive Mode where
  /-- Code, where a line may be a directive. -/
  | code
  /-- A comment closed by a star and a slash. -/
  | blockComment
  /-- A string in which a quote is written twice. -/
  | verbatim
  /-- A string fenced by that many quotes. -/
  | raw (quotes : Nat)
deriving Repr, DecidableEq, Inhabited

/-- What follows a literal on one line, given what follows its opening quote: a backslash takes the
next character with it, and a literal that is not closed takes the whole line. -/
def afterQuoted (quote : Char) : List Char → List Char
  | [] => []
  | '\\' :: _ :: rest => afterQuoted quote rest
  | c :: rest => if c = quote then rest else afterQuoted quote rest

theorem length_afterQuoted_le (quote : Char) (s : List Char) :
    (afterQuoted quote s).length ≤ s.length := by
  fun_induction afterQuoted quote s <;> simp_all <;> omega

/-- One move inside a line: the mode after it, and what is left to read. -/
def Mode.step (mode : Mode) (c : Char) (rest : List Char) : Mode × List Char :=
  match mode with
  | .blockComment =>
    match c, rest with
    | '*', '/' :: after => (.code, after)
    | _, _ => (.blockComment, rest)
  | .verbatim =>
    match c, rest with
    | '"', '"' :: after => (.verbatim, after)
    | '"', _ => (.code, rest)
    | _, _ => (.verbatim, rest)
  | .raw quotes =>
    match List.isPrefixOf? (List.replicate (quotes - 1) '"') rest with
    | some after => if c = '"' then (.code, after) else (.raw quotes, rest)
    | none => (.raw quotes, rest)
  | .code =>
    match c, rest with
    | '/', '/' :: _ => (.code, [])
    | '/', '*' :: after => (.blockComment, after)
    | '@', '"' :: after => (.verbatim, after)
    | '@', '@' :: '"' :: after => (.verbatim, after)
    | '@', '$' :: '"' :: after => (.verbatim, after)
    | '$', '@' :: '"' :: after => (.verbatim, after)
    | '$', '$' :: '"' :: after => (.verbatim, after)
    | '"', '"' :: '"' :: after =>
      (.raw (3 + (after.takeWhile (· == '"')).length), after.dropWhile (· == '"'))
    | '"', _ => (.code, afterQuoted '"' rest)
    | '\'', _ => (.code, afterQuoted '\'' rest)
    | _, _ => (.code, rest)

theorem length_of_isPrefixOf? {piece s after : List Char}
    (found : List.isPrefixOf? piece s = some after) : after.length ≤ s.length := by
  induction piece generalizing s with
  | nil =>
    cases found
    exact Nat.le_refl _
  | cons c piece ih =>
    cases s with
    | nil => cases found
    | cons d s =>
      change (if c == d then List.isPrefixOf? piece s else none) = some after at found
      split at found
      · exact Nat.le_succ_of_le (ih found)
      · cases found

/-- A move reads at least the character it is made at. -/
theorem Mode.step_length (mode : Mode) (c : Char) (rest : List Char) :
    (mode.step c rest).2.length ≤ rest.length := by
  have quoted := length_afterQuoted_le
  have fence (s : List Char) : (s.dropWhile (· == '"')).length ≤ s.length :=
    (List.dropWhile_sublist _).length_le
  unfold Mode.step
  split
  · split <;> simp
  · split <;> simp
  · split
    · have shorter := length_of_isPrefixOf? ‹_›
      split <;> simp_all
    · simp
  · split <;> grind

/-- The mode at the end of a line that is read from its start in `mode`. -/
def Mode.advance (mode : Mode) : List Char → Mode
  | [] => mode
  | c :: rest => (mode.step c rest).1.advance (mode.step c rest).2
termination_by s => s.length
decreasing_by
  have := mode.step_length c rest
  simp only [List.length_cons]
  omega

/-- The line without its line end. -/
def lineBody (line : List Char) : List Char :=
  Text.dropEndWhile (fun c => c == '\n' || c == '\r') line

/-- A character that may stand in the word after the `#`. -/
def isKeywordChar (c : Char) : Bool :=
  c.isAlpha

/-- The directive written after a `#` that stands at `position`; other words make none. The
condition ends at a `//` and is trimmed. -/
def ofLine? (position : Nat) (afterHash : List Char) : Option Directive := do
  let content := Text.trimStart afterHash
  let kind ← Kind.ofKeyword? (String.ofList (content.takeWhile isKeywordChar))
  let condition := Text.trim (Text.upTo ['/', '/'] (content.dropWhile isKeywordChar))
  pure ⟨kind, if condition.isEmpty then none else some (String.ofList condition), position⟩

/-- The directive of a line that begins at `offset`, and the mode after the line. -/
def readLine (mode : Mode) (offset : Nat) (line : List Char) : Option Directive × Mode :=
  let body := lineBody line
  match mode, Text.trimStart body with
  | .code, '#' :: content =>
    (ofLine? (offset + Text.size (body.takeWhile Text.isBlank)) content, .code)
  | _, _ => (none, mode.advance body)

/-- The directives of lines that begin at `offset` in `mode`. -/
def scanLines (mode : Mode) (offset : Nat) : List (List Char) → List Directive
  | [] => []
  | line :: more =>
    (readLine mode offset line).1.toList ++
      scanLines (readLine mode offset line).2 (offset + Text.size line) more

/-- The directives of a text, in order. -/
def scan (text : String) : List Directive :=
  scanLines .code 0 (Text.lines text.toList)

end ScriptLint.Directive
