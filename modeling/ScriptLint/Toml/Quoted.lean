/-
**Strings.**

Four forms: basic strings with escapes and literal strings without, each on one line or over several.
Over several lines the newline after the opening quotes does not count, every line end is read as a
newline, up to two quotes may stand before the closing ones, and in a basic string a backslash at the
end of a line takes away the blanks around the line end.

* `basic?`, `literal?` — strings on one line, after the opening quote.
* `longBasic?`, `longLiteral?` — strings over several lines, after the three opening quotes.
* `string?` — a string of any form.
-/

import ScriptLint.Toml.Number

namespace ScriptLint.Toml

/-- A character that may stand in a comment or a string of one line. -/
def isPlain (c : Char) : Bool :=
  c == '\t' || (0x20 ≤ c.toNat && c.toNat != 0x7F)

/-- The character that a backslash and a letter stand for. -/
def escaped? (c : Char) : Option Char :=
  match c with
  | 'b' => some '\x08'
  | 't' => some '\t'
  | 'n' => some '\n'
  | 'f' => some '\x0c'
  | 'r' => some '\r'
  | '"' => some '"'
  | '\\' => some '\\'
  | _ => none

/-- The character with a code point in sixteens. -/
def scalar? (digits : List Char) : Option Char := do
  let code ← digits.foldlM (fun total c => (digitIn? 16 c).map (total * 16 + ·)) 0
  if code.isValidChar then some (Char.ofNat code) else none

/-- What is read, with one more character in front. -/
def withFront (c : Char) (read : List Char × List Char) : List Char × List Char :=
  (c :: read.1, read.2)

/-- A basic string on one line: its characters, and what follows the closing quote. -/
def basic? : List Char → Option (List Char × List Char)
  | [] => none
  | '"' :: rest => some ([], rest)
  | '\\' :: 'u' :: a :: b :: c :: d :: rest => do
    pure (withFront (← scalar? [a, b, c, d]) (← basic? rest))
  | '\\' :: 'U' :: a :: b :: c :: d :: e :: f :: g :: h :: rest => do
    pure (withFront (← scalar? [a, b, c, d, e, f, g, h]) (← basic? rest))
  | '\\' :: c :: rest => do
    pure (withFront (← escaped? c) (← basic? rest))
  | c :: rest => do
    guard (isPlain c && c != '\\')
    pure (withFront c (← basic? rest))

/-- A literal string on one line. -/
def literal? : List Char → Option (List Char × List Char)
  | [] => none
  | '\'' :: rest => some ([], rest)
  | c :: rest => do
    guard (isPlain c)
    pure (withFront c (← literal? rest))

/-- What a backslash at the end of a line still takes away. -/
inductive Joining where
  /-- Nothing. -/
  | no
  /-- Blanks up to the line end, which must follow. -/
  | toLineEnd
  /-- Blanks and line ends. -/
  | blanks
deriving Repr, DecidableEq, Inhabited

/-- The end of a string over several lines, at its first closing quote: the quotes that still belong
to the string, and what follows. -/
def closing? (quote : Char) (s : List Char) : Option (List Char × List Char) :=
  let found := (s.takeWhile (· == quote)).length
  if 3 ≤ found then
    let extra := min 2 (found - 3)
    some (List.replicate extra quote, s.drop (3 + extra))
  else
    none

/-- A basic string over several lines. -/
def longBasic? (joining : Joining) : List Char → Option (List Char × List Char)
  | [] => none
  | '\r' :: '\n' :: rest =>
    if joining == .no then (longBasic? .no rest).map (withFront '\n') else longBasic? .blanks rest
  | '\n' :: rest =>
    if joining == .no then (longBasic? .no rest).map (withFront '\n') else longBasic? .blanks rest
  | '\\' :: 'u' :: a :: b :: c :: d :: rest => do
    guard (joining != .toLineEnd)
    pure (withFront (← scalar? [a, b, c, d]) (← longBasic? .no rest))
  | '\\' :: 'U' :: a :: b :: c :: d :: e :: f :: g :: h :: rest => do
    guard (joining != .toLineEnd)
    pure (withFront (← scalar? [a, b, c, d, e, f, g, h]) (← longBasic? .no rest))
  | '\\' :: c :: rest => do
    guard (joining != .toLineEnd)
    if c == ' ' || c == '\t' || c == '\n' || c == '\r' then
      longBasic? .toLineEnd (c :: rest)
    else
      pure (withFront (← escaped? c) (← longBasic? .no rest))
  | c :: rest =>
    if joining != .no && (c == ' ' || c == '\t') then
      longBasic? joining rest
    else do
      guard (joining != .toLineEnd && isPlain c && c != '\\')
      match closing? '"' (c :: rest) with
      | some read => pure read
      | none => pure (withFront c (← longBasic? .no rest))

/-- A literal string over several lines. -/
def longLiteral? : List Char → Option (List Char × List Char)
  | [] => none
  | '\r' :: '\n' :: rest => (longLiteral? rest).map (withFront '\n')
  | c :: rest =>
    if c == '\'' then
      match closing? '\'' (c :: rest) with
      | some read => some read
      | none => (longLiteral? rest).map (withFront c)
    else do
      guard (isPlain c || c == '\n')
      pure (withFront c (← longLiteral? rest))

/-- The text after a newline at its start. -/
def dropNewline : List Char → List Char
  | '\n' :: rest => rest
  | '\r' :: '\n' :: rest => rest
  | s => s

/-- A string of any form at the start of a text. -/
def string? : List Char → Option (String × List Char)
  | '"' :: '"' :: '"' :: rest =>
    (longBasic? .no (dropNewline rest)).map fun (text, after) => (String.ofList text, after)
  | '"' :: rest => (basic? rest).map fun (text, after) => (String.ofList text, after)
  | '\'' :: '\'' :: '\'' :: rest =>
    (longLiteral? (dropNewline rest)).map fun (text, after) => (String.ofList text, after)
  | '\'' :: rest => (literal? rest).map fun (text, after) => (String.ofList text, after)
  | _ => none

end ScriptLint.Toml
