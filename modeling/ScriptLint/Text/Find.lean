/-
**Looking for pieces of a text.**

* `hasInfix` — a piece anywhere.
* `upTo` — what stands before the first occurrence of a piece.
* `words` — the maximal blank-free pieces.
* `splitLast?` — the two sides of the last occurrence of a character.
-/

import ScriptLint.Text.Blank

namespace ScriptLint.Text

/-- The text holds `piece` somewhere. -/
def hasInfix (piece : List Char) : List Char → Bool
  | [] => piece.isEmpty
  | c :: rest => piece.isPrefixOf (c :: rest) || hasInfix piece rest

/-- What stands before the first occurrence of `piece`, all of the text if there is none. -/
def upTo (piece : List Char) : List Char → List Char
  | [] => []
  | c :: rest => if piece.isPrefixOf (c :: rest) then [] else c :: upTo piece rest

/-- The maximal pieces without a blank, in order. -/
def words (s : List Char) : List (List Char) :=
  (List.splitOnP isBlank s).filter (!·.isEmpty)

/-- What stands before and after the last `mark`. -/
def splitLast? (mark : Char) : List Char → Option (List Char × List Char)
  | [] => none
  | c :: rest =>
    match splitLast? mark rest with
    | some (before, after) => some (c :: before, after)
    | none => if c = mark then some ([], rest) else none

end ScriptLint.Text
