/-
**Lower case, in full.**

The lower case of a text follows the Unicode rules: nearly every letter has its own, the dotted
capital I becomes two characters, and a capital sigma at the end of a word takes the final form.

* `lower` — the lower case of a text.
* `endsWord` — the context in which a sigma is final: a cased letter before it and none after it,
  characters that do not count passed over on both sides.
* `hasInfixIgnoringCase` — a piece anywhere, both texts lowered first.
* `equalIgnoringAsciiCase` — equality up to the case of the letters A to Z.
* `isUpper` — the property `Uppercase`.
-/

import ScriptLint.Text.CaseTable
import ScriptLint.Text.Find

namespace ScriptLint.Text

/-- A character with the property `Uppercase`. -/
def isUpper (c : Char) : Bool :=
  upperRanges.any (·.contains c.toNat)

/-- A character with the property `Cased`. -/
def isCased (c : Char) : Bool :=
  casedRanges.any (·.contains c.toNat)

/-- A character with the property `Case_Ignorable`. -/
def isCaseIgnorable (c : Char) : Bool :=
  caseIgnorableRanges.any (·.contains c.toNat)

/-- The one-character lower case of a character, itself if it has none. -/
def lowerChar (c : Char) : Char :=
  if c.toNat < 0x80 then
    c.toLower
  else
    match lowerShifts.find? (·.contains c.toNat) with
    | some run => Char.ofNat (c.toNat + run.shift).toNat
    | none => c

/-- The nearest character that counts is a cased letter. -/
def meetsCased (s : List Char) : Bool :=
  match s.dropWhile isCaseIgnorable with
  | [] => false
  | c :: _ => isCased c

/-- A letter with the text `before` it, nearest character first, and `rest` after it ends a word. -/
def endsWord (before rest : List Char) : Bool :=
  meetsCased before && !meetsCased rest

/-- The lower case of `s`, given the text before it, nearest character first. -/
def lowerFrom (before : List Char) : List Char → List Char
  | [] => []
  | c :: rest =>
    (if c = 'Σ' then [if endsWord before rest then 'ς' else 'σ']
      else if c = 'İ' then ['i', '\u0307']
      else [lowerChar c]) ++ lowerFrom (c :: before) rest

/-- The lower case of a text. -/
def lower (s : List Char) : List Char :=
  lowerFrom [] s

/-- The lower case of a string. -/
def lowercase (s : String) : String :=
  String.ofList (lower s.toList)

/-- The text holds a non-empty piece somewhere, case aside. -/
def hasInfixIgnoringCase (piece s : String) : Bool :=
  !piece.isEmpty && hasInfix (lower piece.toList) (lower s.toList)

/-- The texts are equal but for the case of the letters A to Z. -/
def equalIgnoringAsciiCase (a b : String) : Bool :=
  a.toList.map Char.toLower == b.toList.map Char.toLower

end ScriptLint.Text
