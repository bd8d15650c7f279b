/-
**Ignore files.**

A line of an ignore file is a pattern for paths below the file's folder. The last line that matches a
path decides about it; a line that starts with `!` takes a path back in.

* `Entry.ofLine` — what a line says. A pattern without a slash inside may match at any depth, one with a
  slash at its end matches folders only.
* `IgnoreFile.parse` — the lines of a file; one that is no pattern is passed over.
* `IgnoreFile.verdict?` — what the file says about a path.
-/

import ScriptLint.Ignore.Glob
import ScriptLint.Text.Find

namespace ScriptLint

namespace Ignore

/-- A line that is a pattern. -/
structure Entry where
  glob : Glob
  /-- The line takes paths back in. -/
  keeps : Bool
  /-- The line is about folders only. -/
  onlyFolders : Bool
deriving Repr, DecidableEq, Inhabited

/-- What a line says. -/
inductive Line where
  /-- Nothing. -/
  | void
  /-- It is no pattern. -/
  | fault
  /-- A pattern. -/
  | entry (entry : Entry)
deriving Repr, DecidableEq, Inhabited

/-- The line without the blanks at its end, unless the last one is escaped. -/
def trimLine (line : List Char) : List Char :=
  if List.isSuffixOf ['\\', ' '] line then line else Text.trimEnd line

/-- Whether the line takes paths back in, whether it is tied to the file's folder, and the rest. -/
def splitMarks (line : List Char) : Bool × Bool × List Char :=
  match line with
  | '\\' :: '!' :: rest => (false, false, '!' :: rest)
  | '\\' :: '#' :: rest => (false, false, '#' :: rest)
  | '!' :: '/' :: rest => (true, true, rest)
  | '!' :: rest => (true, false, rest)
  | '/' :: rest => (false, true, rest)
  | _ => (false, false, line)

/-- Whether the pattern is about folders only, and the pattern without the mark for it. -/
def splitFolderMark (text : List Char) : Bool × List Char :=
  match text.reverse with
  | '/' :: '\\' :: rest => (true, rest.reverse)
  | '/' :: rest => (true, rest.reverse)
  | _ => (false, text)

/-- The pattern for whole paths: at any depth unless it is tied to the folder, and only what is inside
a folder where it ends with two stars. -/
def wholePattern (isTied : Bool) (text : List Char) : List Char :=
  let starts := text == ['*', '*'] || ['*', '*', '/'].isPrefixOf text
  let whole := if isTied || text.contains '/' || starts then text else '*' :: '*' :: '/' :: text
  if List.isSuffixOf ['/', '*', '*'] whole then whole ++ ['/', '*'] else whole

/-- What a line says. -/
def Line.ofText (line : List Char) : Line :=
  if line.head? == some '#' then
    .void
  else
    match trimLine line with
    | [] => .void
    | text =>
      let (keeps, isTied, rest) := splitMarks text
      let (onlyFolders, pattern) := splitFolderMark rest
      match Glob.parse? (String.ofList (wholePattern isTied pattern)) with
      | some glob => .entry ⟨glob, keeps, onlyFolders⟩
      | none => .fault

end Ignore

/-- An ignore file. -/
structure IgnoreFile where
  entries : List Ignore.Entry
  /-- Some line is no pattern. -/
  hasFault : Bool
deriving Repr, DecidableEq, Inhabited

namespace IgnoreFile

/-- The file that says nothing. -/
def empty : IgnoreFile :=
  ⟨[], false⟩

/-- The lines of a text, each without a carriage return at its end; marks of byte order at the start do
not count. -/
def linesOf (text : String) : List (List Char) :=
  let dropReturn (line : List Char) : List Char :=
    if line.getLast? == some '\r' then line.dropLast else line
  (List.splitOn '\n' (text.toList.dropWhile (· == '\uFEFF'))).map dropReturn

/-- The file with a text. -/
def parse (text : String) : IgnoreFile :=
  let lines := (linesOf text).map Ignore.Line.ofText
  let entry? : Ignore.Line → Option Ignore.Entry
    | .entry entry => some entry
    | _ => none
  ⟨lines.filterMap entry?, lines.contains .fault⟩

/-- Whether a path below the file's folder is ignored; none if no line is about it. -/
def verdict? (file : IgnoreFile) (path : List UInt8) (isFolder : Bool) : Option Bool :=
  (file.entries.reverse.find? fun entry =>
    (isFolder || !entry.onlyFolders) && entry.glob.accepts path).map fun entry => !entry.keeps

end IgnoreFile

end ScriptLint
