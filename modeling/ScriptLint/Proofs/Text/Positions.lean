/-
**The place of an offset, and the offset of a place.**

An editor shows an offset as a line and a column. Both can be read off the bytes before the offset: the
line off the newlines among them, the column off the bytes since the last newline. They say the same as
the lines of the text: so many of them stand before the offset, and so many bytes of the next one.

* `Position.step`, `Position.walk` — a place moves on by one byte, and by several. `positionFrom_eq_walk`
  says that the place of an offset is reached in this way, also inside a character.
* `walk_eq`, `position_eq` — what a walk from the first place counts.
* `FallsAt` — an offset falls behind whole lines and some bytes of the next line. An offset behind a
  newline falls at the start of a line, also at the end of the text.
* `exists_fallsAt` — the place of an offset says where it falls; `FallsAt.before` — of two offsets the
  smaller one falls first.
* `Position.Before` — the order of places, by line and then by column.
* `Location.span_ofSpan` — a location gives back the span it was made from.
-/

import Mathlib.Data.List.Induction
import ScriptLint.Proofs.Text.Octets
import ScriptLint.Proofs.Text.Rows
import ScriptLint.Report

namespace ScriptLint

namespace Text

/-! ### Walking along the bytes -/

/-- The byte that ends a line. -/
def newline : UInt8 :=
  '\n'.toUInt8

/-- A newline leads to the start of the next line, every other byte to the next column. -/
def Position.step (here : Position) (octet : UInt8) : Position :=
  if octet = newline then ⟨here.line + 1, 1⟩ else ⟨here.line, here.column + 1⟩

/-- The place behind some more bytes. -/
def Position.walk (here : Position) (bytes : List UInt8) : Position :=
  bytes.foldl Position.step here

theorem Position.walk_append (here : Position) (first second : List UInt8) :
    here.walk (first ++ second) = (here.walk first).walk second :=
  List.foldl_append

/-- Up to the next newline only the column grows. -/
theorem Position.walk_plain {bytes : List UInt8} (plain : newline ∉ bytes) (here : Position) :
    here.walk bytes = ⟨here.line, here.column + bytes.length⟩ := by
  induction bytes generalizing here with
  | nil => rfl
  | cons octet rest ih =>
    rw [List.mem_cons, not_or] at plain
    show (here.step octet).walk rest = _
    rw [ih plain.2, Position.step, if_neg (Ne.symm plain.1), List.length_cons]
    show Position.mk here.line (here.column + 1 + rest.length) = _
    rw [Nat.add_assoc, Nat.add_comm 1]

theorem newline_mem_octets_iff {s : List Char} : newline ∈ octets s ↔ '\n' ∈ s :=
  mem_octets_iff (by decide)

theorem newline_notMem_utf8EncodeChar {c : Char} (other : c ≠ '\n') :
    newline ∉ String.utf8EncodeChar c :=
  fun member => other ((mem_utf8EncodeChar_iff (by decide)).mp member)

/-- **The place of an offset** is reached byte by byte, whether it lies between characters or not. -/
theorem positionFrom_eq_walk (here : Position) (offset : Nat) (s : List Char) :
    positionFrom here offset s = here.walk ((octets s).take offset) := by
  induction s generalizing here offset with
  | nil => cases offset <;> rfl
  | cons c rest ih =>
    cases offset with
    | zero => rfl
    | succ n =>
      have length : (String.utf8EncodeChar c).length = c.utf8Size := String.length_utf8EncodeChar c
      rw [positionFrom]
      by_cases ends : c = '\n'
      · rw [if_pos ends, ih, ends]
        rfl
      · have plain := newline_notMem_utf8EncodeChar ends
        rw [if_neg ends, octets_cons, List.take_append, length]
        by_cases passed : c.utf8Size ≤ n + 1
        · have whole : (String.utf8EncodeChar c).take (n + 1) = String.utf8EncodeChar c :=
            List.take_of_length_le (by omega)
          rw [if_pos passed, ih, whole, Position.walk_append, Position.walk_plain plain, length]
        · have inside : newline ∉ (String.utf8EncodeChar c).take (n + 1) :=
            fun member => plain (List.mem_of_mem_take member)
          rw [if_neg passed, Nat.sub_eq_zero_of_le (by omega), List.take_zero, List.append_nil,
            Position.walk_plain inside, List.length_take, length, Nat.min_eq_left (by omega)]

/-- The number of bytes since the last newline. -/
def sinceNewline (bytes : List UInt8) : Nat :=
  (bytes.reverse.takeWhile (· != newline)).length

theorem sinceNewline_concat (front : List UInt8) (octet : UInt8) :
    sinceNewline (front ++ [octet]) = if octet = newline then 0 else sinceNewline front + 1 := by
  rw [sinceNewline, List.reverse_concat]
  by_cases ends : octet = newline
  · rw [if_pos ends, List.takeWhile_cons_of_neg (by simpa using ends), List.length_nil]
  · rw [if_neg ends, List.takeWhile_cons_of_pos (by simpa using ends), List.length_cons, sinceNewline]

/-- **A walk from the first place** counts the newlines, and the bytes since the last of them. -/
theorem walk_eq (bytes : List UInt8) :
    Position.walk ⟨1, 1⟩ bytes = ⟨bytes.count newline + 1, sinceNewline bytes + 1⟩ := by
  -- From the right: the last byte is the last step.
  induction bytes using List.reverseRecOn with
  | nil => rfl
  | append_singleton front octet ih =>
    rw [Position.walk_append, ih, sinceNewline_concat, List.count_append]
    show Position.step _ octet = _
    by_cases ends : octet = newline
    · rw [Position.step, if_pos ends, if_pos ends, ends]
      rfl
    · rw [Position.step, if_neg ends, if_neg ends, List.count_singleton,
        if_neg (by simpa using ends)]

theorem position_eq (text : String) (offset : Nat) :
    position text offset =
      ⟨((octets text.toList).take offset).count newline + 1,
        sinceNewline ((octets text.toList).take offset) + 1⟩ := by
  rw [position, positionFrom_eq_walk, walk_eq]

/-! ### Where an offset falls -/

/-- The offset lies behind `earlier` lines of the text and `within` bytes of the next one, of which there
is nothing if the lines are all there are. -/
structure FallsAt (text : List Char) (earlier within offset : Nat) : Prop where
  earlier_le : earlier ≤ (lines text).length
  offset_eq : offset = size ((lines text).take earlier).flatten + within
  within_le : within ≤ size ((lines text).getD earlier [])
  /-- Behind the newline that ends a line, the next line has begun. -/
  not_ended : within = size ((lines text).getD earlier []) →
    ((lines text).getD earlier []).getLast? ≠ some '\n'

namespace FallsAt

variable {line later text : List Char} {earlier within offset : Nat}

theorem nil : FallsAt [] 0 0 0 :=
  ⟨Nat.le_refl 0, rfl, Nat.le_refl 0, fun _ => by simp [lines]⟩

/-- An offset in the first line. -/
theorem first (isLine : IsLine line later) (inside : within ≤ size line)
    (notEnded : within = size line → line.getLast? ≠ some '\n') :
    FallsAt (line ++ later) 0 within within := by
  rw [IsLine] at isLine
  refine ⟨Nat.zero_le _, ?_, ?_, ?_⟩
  · rw [List.take_zero, List.flatten_nil, size_nil, Nat.zero_add]
  · rwa [isLine, List.getD_cons_zero]
  · rwa [isLine, List.getD_cons_zero]

/-- An offset behind the first line. -/
theorem next (isLine : IsLine line later) (falls : FallsAt later earlier within offset) :
    FallsAt (line ++ later) (earlier + 1) within (size line + offset) := by
  rw [IsLine] at isLine
  refine ⟨?_, ?_, ?_, ?_⟩
  · rw [isLine, List.length_cons]
    exact Nat.succ_le_succ falls.earlier_le
  · rw [isLine, List.take_succ_cons, List.flatten_cons, size_append, falls.offset_eq, Nat.add_assoc]
  · rw [isLine, List.getD_cons_succ]
    exact falls.within_le
  · rw [isLine, List.getD_cons_succ]
    exact falls.not_ended

/-- All of a line lies before what falls behind it. -/
theorem line_le (falls : FallsAt text earlier within offset) {number : Nat}
    (behind : number < earlier) :
    size ((lines text).take number).flatten + size ((lines text).getD number []) ≤ offset := by
  have inside : number < (lines text).length := Nat.lt_of_lt_of_le behind falls.earlier_le
  have upTo : (lines text).take (number + 1) =
      (lines text).take number ++ [(lines text).getD number []] := by
    rw [List.take_add_one, List.getD_eq_getElem?_getD, List.getElem?_eq_getElem inside]
    rfl
  obtain ⟨between, split⟩ : (lines text).take (number + 1) <+: (lines text).take earlier :=
    List.take_prefix_take_left behind
  rw [falls.offset_eq, ← split, upTo, List.flatten_append, List.flatten_append, size_append,
    size_append, List.flatten_singleton]
  omega

/-- **Of two offsets, the smaller one falls first**: on an earlier line, or earlier on the line. -/
theorem before {earlier' within' offset' : Nat} (falls : FallsAt text earlier within offset)
    (falls' : FallsAt text earlier' within' offset') (smaller : offset < offset') :
    earlier < earlier' ∨ earlier = earlier' ∧ within < within' := by
  rcases Nat.lt_trichotomy earlier earlier' with above | same | below
  · exact .inl above
  · subst same
    have first := falls.offset_eq
    have second := falls'.offset_eq
    exact .inr ⟨rfl, by omega⟩
  · -- The line that the larger offset is on would end before the smaller one.
    have passed := falls.line_le below
    have first := falls'.offset_eq
    have second := falls'.within_le
    omega

end FallsAt

/-- The walk from the start of a line to a place on it. -/
theorem walk_onLine {s : List Char} (plain : '\n' ∉ s) {offset : Nat} (inside : offset ≤ size s)
    (line : Nat) (t : List Char) :
    Position.walk ⟨line, 1⟩ ((octets (s ++ t)).take offset) = ⟨line, offset + 1⟩ := by
  rw [← length_octets] at inside
  have absent : newline ∉ (octets s).take offset := fun member =>
    plain (newline_mem_octets_iff.mp (List.mem_of_mem_take member))
  rw [octets_append, List.take_append_of_le_length inside, Position.walk_plain absent,
    List.length_take, Nat.min_eq_left inside]
  show Position.mk line (1 + offset) = _
  rw [Nat.add_comm]

/-- The walk past the end of a line goes on from the start of the next. -/
theorem walk_pastLine {s : List Char} (plain : '\n' ∉ s) (line more : Nat) (t : List Char) :
    Position.walk ⟨line, 1⟩ ((octets (s ++ '\n' :: t)).take (size s + (1 + more))) =
      Position.walk ⟨line + 1, 1⟩ ((octets t).take more) := by
  have absent : newline ∉ octets s := fun member => plain (newline_mem_octets_iff.mp member)
  have behind : (octets ('\n' :: t)).take (1 + more) = newline :: (octets t).take more := by
    rw [Nat.add_comm]
    rfl
  rw [octets_append, ← length_octets, List.take_length_add_append, behind, Position.walk_append,
    Position.walk_plain absent]
  rfl

/-- The walk along a text, from the start of a line, finds where the offset falls. -/
theorem exists_fallsAt_from (line : Nat) {text : List Char} {offset : Nat}
    (inside : offset ≤ size text) :
    ∃ earlier within, Position.walk ⟨line, 1⟩ ((octets text).take offset) =
        ⟨line + earlier, within + 1⟩ ∧ FallsAt text earlier within offset := by
  induction text using lines_induction generalizing line offset with
  | nil =>
    obtain rfl : offset = 0 := Nat.le_zero.mp inside
    exact ⟨0, 0, rfl, .nil⟩
  | line first later isLine ih =>
    obtain ⟨nonempty, plain, ends⟩ := isLine_iff.mp isLine
    by_cases ended : first.getLast? = some '\n'
    · obtain ⟨front, rfl⟩ := List.getLast?_eq_some_iff.mp ended
      rw [List.dropLast_concat] at plain
      have one : size (front ++ ['\n']) = size front + 1 := size_append front ['\n']
      by_cases onLine : offset ≤ size front
      · refine ⟨0, offset, ?_, .first isLine (by omega) fun whole => by omega⟩
        rw [List.append_assoc]
        exact walk_onLine plain onLine line _
      · -- The newline is passed, and the offset falls in the rest of the text.
        rw [size_append, one] at inside
        obtain ⟨more, rfl⟩ : ∃ more, offset = size front + (1 + more) :=
          ⟨offset - (size front + 1), by omega⟩
        obtain ⟨earlier, within, place, falls⟩ := @ih (line + 1) more (by omega)
        have behind := FallsAt.next isLine falls
        rw [one, Nat.add_assoc] at behind
        refine ⟨earlier + 1, within, ?_, behind⟩
        rw [List.append_assoc, List.singleton_append, walk_pastLine plain, place, Nat.add_assoc,
          Nat.add_comm 1]
    · obtain rfl := ends.resolve_right ended
      have whole : '\n' ∉ first := by
        intro member
        obtain ⟨front, last, rfl⟩ := (List.eq_nil_or_concat' first).resolve_left nonempty
        rw [List.dropLast_concat] at plain
        rcases List.mem_append.mp member with inFront | isLast
        · exact plain inFront
        · rw [List.getLast?_concat, List.mem_singleton.mp isLast] at ended
          exact ended rfl
      rw [List.append_nil] at inside
      exact ⟨0, offset, walk_onLine whole inside line [], .first isLine inside fun _ => ended⟩

theorem exists_fallsAt (text : String) {offset : Nat} (inside : offset ≤ size text.toList) :
    ∃ earlier within, position text offset = ⟨earlier + 1, within + 1⟩ ∧
      FallsAt text.toList earlier within offset := by
  obtain ⟨earlier, within, place, falls⟩ := exists_fallsAt_from 1 inside
  refine ⟨earlier, within, ?_, falls⟩
  rw [position, positionFrom_eq_walk, place, Nat.add_comm]

/-- The place is on an earlier line, or on the same line in an earlier column. -/
def Position.Before (first second : Position) : Prop :=
  first.line < second.line ∨ first.line = second.line ∧ first.column < second.column

end Text

/-! ### Locations -/

/-- The ends of a span that is not reversed are found again from its start and length. -/
theorem Location.span_ofSpan (file text : String) {span : Span} (ordered : span.start ≤ span.stop) :
    (Location.ofSpan file text span).span = span := by
  show Span.mk span.start (span.start + (span.stop - span.start)) = span
  rw [Nat.add_sub_cancel' ordered]

namespace Text

/-- **Line and column determine the offset.** The line counts the newlines before an offset, and the column
the bytes since the last of them. Up to the end of the text, the line thereby tells how many whole lines
stand before the offset, and the column how many bytes of the next line; these are at most the bytes of
this line, and fewer if it is ended by a newline. So the place moves on with the offset up to the end, and
stays there. And a location made from a span gives it back, by a sum that keeps to every limit on the end
of the span, such as the largest word. -/
theorem position_falls (text : String) :
    (∀ offset, position text offset =
      ⟨((octets text.toList).take offset).count newline + 1,
        sinceNewline ((octets text.toList).take offset) + 1⟩) ∧
    (∀ offset ≤ size text.toList, ∃ earlier within,
      position text offset = ⟨earlier + 1, within + 1⟩ ∧
        FallsAt text.toList earlier within offset) ∧
    (∀ first second, first < second → second ≤ size text.toList →
      (position text first).Before (position text second)) ∧
    (∀ offset, size text.toList ≤ offset →
      position text offset = position text (size text.toList)) ∧
    ∀ (file : String) (span : Span), span.start ≤ span.stop →
      (Location.ofSpan file text span).span = span ∧
      ∀ limit, span.stop ≤ limit →
        (Location.ofSpan file text span).offset + (Location.ofSpan file text span).length ≤
          limit := by
  refine ⟨position_eq text, fun offset => exists_fallsAt text, ?_, ?_, ?_⟩
  · intro first second smaller inside
    have inside' : first ≤ size text.toList := Nat.le_trans (Nat.le_of_lt smaller) inside
    obtain ⟨earlier, within, place, falls⟩ := exists_fallsAt text inside'
    obtain ⟨earlier', within', place', falls'⟩ := exists_fallsAt text inside
    rw [place, place']
    rcases falls.before falls' smaller with above | ⟨same, left⟩
    · exact .inl (Nat.succ_lt_succ above)
    · exact .inr ⟨congrArg (· + 1) same, Nat.succ_lt_succ left⟩
  · intro offset beyond
    rw [← length_octets] at beyond ⊢
    rw [position_eq, position_eq, List.take_of_length_le beyond, List.take_length]
  · intro file span ordered
    have back := Location.span_ofSpan file text ordered
    refine ⟨back, fun limit fits => ?_⟩
    have sum : (Location.ofSpan file text span).offset + (Location.ofSpan file text span).length =
        span.stop := congrArg Span.stop back
    rwa [sum]

/-- A text of two lines, the second without a newline; its first character takes two bytes. -/
def twoLines : String :=
  "é\nab"

theorem position_falls_twoLines :
    position twoLines 1 = ⟨1, 2⟩ ∧ FallsAt twoLines.toList 0 1 1 ∧
      (position twoLines 1).Before (position twoLines 3) ∧
      position twoLines 9 = position twoLines 5 ∧
      (Location.ofSpan "Player.cs" twoLines ⟨3, 5⟩).span = ⟨3, 5⟩ := by
  have inside : position twoLines 1 = ⟨1, 2⟩ := by decide
  obtain ⟨-, falls, moves, stays, back⟩ := position_falls twoLines
  obtain ⟨earlier, within, place, fallsAt⟩ := falls 1 (by decide)
  rw [inside] at place
  cases place
  exact ⟨inside, fallsAt, moves 1 3 (by decide) (by decide), stays 9 (by decide),
    (back "Player.cs" ⟨3, 5⟩ (by decide)).1⟩

end Text

end ScriptLint
