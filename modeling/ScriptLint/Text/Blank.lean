/-
**Blanks, and text freed of them.**

A text is a list of characters wherever it is taken apart. What counts as blank is the Unicode
property `White_Space`: line and paragraph separators and the no-break space belong to it, the
zero-width space and the byte order mark do not.

* `isBlank` — membership in the property.
* `dropEndWhile` — what `List.dropWhile` does, from the other end.
* `trimStart`, `trimEnd`, `trim` — blanks removed at the start, at the end, at both.
-/

namespace ScriptLint.Text

/-- A character with the Unicode property `White_Space`. -/
def isBlank (c : Char) : Bool :=
  let n := c.toNat
  (9 ≤ n && n ≤ 13) || n == 0x20 || n == 0x85 || n == 0xA0 || n == 0x1680 ||
    (0x2000 ≤ n && n ≤ 0x200A) || n == 0x2028 || n == 0x2029 || n == 0x202F || n == 0x205F ||
    n == 0x3000

/-- Removes the longest tail of characters that all satisfy `p`. -/
def dropEndWhile (p : Char → Bool) (s : List Char) : List Char :=
  (s.reverse.dropWhile p).reverse

/-- Removes the blanks at the start. -/
def trimStart (s : List Char) : List Char :=
  s.dropWhile isBlank

/-- Removes the blanks at the end. -/
def trimEnd (s : List Char) : List Char :=
  dropEndWhile isBlank s

/-- Removes the blanks at both ends. -/
def trim (s : List Char) : List Char :=
  trimEnd (trimStart s)

end ScriptLint.Text
