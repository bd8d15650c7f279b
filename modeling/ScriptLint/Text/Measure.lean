/-
**Byte offsets in a text.**

Every offset of this library counts the bytes of the UTF-8 form. The functions here say where an
offset falls without ever forming those bytes.

* `size` — the number of bytes.
* `cut?` — the two halves at an offset; `none` inside a character and beyond the end.
* `lines` — the text cut after each newline, so that the pieces put together are the text.
* `position` — line and column of an offset, both counted from one; an offset beyond the end stands
  for the end.
-/

namespace ScriptLint.Text

/-- The number of bytes of the UTF-8 form. -/
def size : List Char → Nat
  | [] => 0
  | c :: rest => c.utf8Size + size rest

/-- The two halves of a text at a byte offset, if the offset is a character boundary of it. -/
def cut? : Nat → List Char → Option (List Char × List Char)
  | 0, s => some ([], s)
  | _ + 1, [] => none
  | n + 1, c :: rest =>
    if c.utf8Size ≤ n + 1 then
      (cut? (n + 1 - c.utf8Size) rest).map fun (before, after) => (c :: before, after)
    else
      none

/-- The text between two byte offsets, if both are character boundaries and in order. -/
def slice? (start stop : Nat) (s : List Char) : Option (List Char) := do
  let (_, after) ← cut? start s
  guard (start ≤ stop)
  let (middle, _) ← cut? (stop - start) after
  pure middle

/-- The text cut after each newline. -/
def lines : List Char → List (List Char)
  | [] => []
  | c :: rest =>
    if c = '\n' then
      [c] :: lines rest
    else
      match lines rest with
      | [] => [[c]]
      | line :: more => (c :: line) :: more

/-- A place in a text as an editor shows it, both numbers counted from one. -/
structure Position where
  line : Nat
  column : Nat
deriving Repr, DecidableEq, Inhabited

/-- The place reached from `here` after `offset` more bytes of the text, or at its end. -/
def positionFrom (here : Position) : Nat → List Char → Position
  | 0, _ => here
  | _ + 1, [] => here
  | n + 1, c :: rest =>
    if c = '\n' then
      positionFrom ⟨here.line + 1, 1⟩ n rest
    else if c.utf8Size ≤ n + 1 then
      positionFrom ⟨here.line, here.column + c.utf8Size⟩ (n + 1 - c.utf8Size) rest
    else
      ⟨here.line, here.column + (n + 1)⟩

/-- Line and column of a byte offset; columns count bytes. -/
def position (text : String) (offset : Nat) : Position :=
  positionFrom ⟨1, 1⟩ offset text.toList

end ScriptLint.Text
