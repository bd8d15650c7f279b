/-
**The lines of a text, each in its place.**

* `Row` — a line, with all that stands before it; `rows` — the lines of a text as rows.
* `Row.Holds` — an offset belongs to a row. The end of the text belongs to a last line that is not
  ended by a newline.
* `lines_induction` — a text is built from its lines, the last one first.
* `exists_row` — what a row is in its text.
* `exists_lines_append` — a line put behind a text is the end of a line.
* `newline_mem_of_wholeLines`, `mem_of_size_lt` — which part of a text a place lies in.
-/

import ScriptLint.Proofs.Text.Parts

namespace ScriptLint.Text

/-! ### Rows -/

/-- A line of a text and what stands before it. -/
structure Row where
  before : List Char
  line : List Char
deriving Repr, DecidableEq, Inhabited

/-- The offset belongs to the line, or is the end of the text behind a line without a newline. -/
def Row.Holds (row : Row) (place : Nat) : Prop :=
  size row.before ≤ place ∧
    (place < size (row.before ++ row.line) ∨
      (place = size (row.before ++ row.line) ∧ row.line.getLast? ≠ some '\n'))

instance (row : Row) (place : Nat) : Decidable (row.Holds place) :=
  inferInstanceAs (Decidable (_ ∧ _))

/-- Lines that follow a text, as rows. -/
def rowsFrom (before : List Char) : List (List Char) → List Row
  | [] => []
  | line :: more => ⟨before, line⟩ :: rowsFrom (before ++ line) more

/-- The lines of a text, in order. -/
def rows (text : List Char) : List Row :=
  rowsFrom [] (lines text)

/-- **A text is built from its lines.** -/
theorem lines_induction {motive : List Char → Prop} (nil : motive [])
    (line : ∀ line later, IsLine line later → motive later → motive (line ++ later))
    (s : List Char) : motive s := by
  induction size : s.length using Nat.strongRecOn generalizing s with
  | ind n ih =>
    by_cases none : s = []
    · exact none ▸ nil
    · obtain ⟨first, later, rfl, isLine⟩ := exists_isLine none
      have positive := List.length_pos_of_ne_nil (isLine_iff.mp isLine).1
      rw [List.length_append] at size
      exact line first later isLine (ih later.length (by omega) later rfl)

theorem rowsFrom_line {before line later : List Char} (isLine : IsLine line later) :
    rowsFrom before (lines (line ++ later)) =
      ⟨before, line⟩ :: rowsFrom (before ++ line) (lines later) := by
  rw [isLine, rowsFrom]

theorem exists_row_from {before rest : List Char} (whole : WholeLines before) {row : Row}
    (member : row ∈ rowsFrom before (lines rest)) :
    ∃ later, before ++ rest = row.before ++ row.line ++ later ∧ WholeLines row.before ∧
      IsLine row.line later := by
  induction rest using lines_induction generalizing before with
  | nil => cases member
  | line line later isLine ih =>
    rw [rowsFrom_line isLine] at member
    rcases List.mem_cons.mp member with rfl | member
    · exact ⟨later, by rw [List.append_assoc], whole, isLine⟩
    · have more : later ≠ [] := by
        rintro rfl
        cases member
      obtain ⟨rest, text_eq, rowWhole, rowLine⟩ := ih (whole.append (isLine.wholeLines more)) member
      exact ⟨rest, by rw [← text_eq, List.append_assoc], rowWhole, rowLine⟩

/-- **A row** follows whole lines, and is a line of what is left of the text. -/
theorem exists_row {text : List Char} {row : Row} (member : row ∈ rows text) :
    ∃ later, text = row.before ++ row.line ++ later ∧ WholeLines row.before ∧
      IsLine row.line later :=
  exists_row_from (.inl rfl) member

/-! ### Lines put together -/

theorem WholeLines.append_iff {s t : List Char} (whole : WholeLines s) :
    WholeLines (s ++ t) ↔ WholeLines t :=
  ⟨WholeLines.right, whole.append⟩

/-- What a text ends with decides whether a new line begins at its end. -/
theorem wholeLines_append_of_getLast? {s t u v : List Char} (first : WholeLines s ↔ WholeLines t)
    (second : u.getLast? = v.getLast?) : WholeLines (s ++ u) ↔ WholeLines (t ++ v) := by
  by_cases none : v = []
  · have : u = [] := by rwa [none, List.getLast?_nil, List.getLast?_eq_none_iff] at second
    rwa [this, none, List.append_nil, List.append_nil]
  · have : u ≠ [] := by
      rintro rfl
      exact none (List.getLast?_eq_none_iff.mp second.symm)
    unfold WholeLines
    rw [List.getLast?_append_of_ne_nil _ this, List.getLast?_append_of_ne_nil _ none, second]
    simp [this, none]

/-- **A line put behind a text** is the end of a line, and all of it if a new line begins there. -/
theorem exists_lines_append {line : List Char} (single : IsLine line []) (s : List Char) :
    ∃ front start, lines (s ++ line) = front ++ [start ++ line] ∧
      (start = [] ↔ WholeLines s) := by
  obtain ⟨earlier, s_eq, whole⟩ := exists_lastLine s
  set start := (s.reverse.takeWhile (· != '\n')).reverse
  have inside : '\n' ∉ start := by
    intro member
    have := List.all_eq_true.mp List.all_takeWhile _ (List.mem_reverse.mp member)
    simp at this
  obtain ⟨nonempty, alone, -⟩ := isLine_iff.mp single
  refine ⟨lines earlier, start, ?_, fun none => ?_, fun ends => ?_⟩
  · have isLine : IsLine (start ++ line) [] := by
      rw [isLine_iff, List.dropLast_append_of_ne_nil nonempty]
      exact ⟨by simp [nonempty], by simp [inside, alone], .inl rfl⟩
    rw [s_eq, List.append_assoc, lines_append whole, isLine.lines_eq]
  · rwa [s_eq, none, List.append_nil]
  · by_contra some
    rw [s_eq, whole.append_iff] at ends
    exact inside (List.mem_of_getLast? (ends.resolve_left some))

/-! ### Parts that a place lies in -/

/-- A new line that begins inside a part of the text, or at its end, begins behind a newline of this
part. -/
theorem newline_mem_of_wholeLines {a b c s t : List Char} (same : a ++ b ++ c = s ++ t)
    (whole : WholeLines s) (behind : size a < size s) (notBeyond : size s ≤ size (a ++ b)) :
    '\n' ∈ b := by
  obtain ⟨middle, rfl, -⟩ := exists_append_of_size_le
    (by rwa [List.append_assoc] at same) (Nat.le_of_lt behind)
  obtain ⟨rest, both, -⟩ := exists_append_of_size_le same.symm notBeyond
  rw [List.append_assoc] at both
  obtain rfl := List.append_cancel_left both
  have some : middle ≠ [] := by
    rintro rfl
    simp at behind
  exact List.mem_append_left _ (List.mem_of_getLast? (whole.right.resolve_left some))

/-- The character at a place belongs to the part of the text that the place lies in. -/
theorem mem_of_size_lt {a b d s t : List Char} {c : Char} (same : a ++ b ++ d = s ++ c :: t)
    (notBefore : size a ≤ size s) (inside : size s < size (a ++ b)) : c ∈ b := by
  obtain ⟨middle, rfl, rest_eq⟩ := exists_append_of_size_le
    (by rwa [List.append_assoc] at same) notBefore
  rw [size_append, size_append] at inside
  obtain ⟨more, rfl, more_eq⟩ := exists_append_of_size_le rest_eq.symm (by omega)
  cases more with
  | nil => simp at inside
  | cons first more =>
    obtain ⟨rfl, -⟩ := List.cons.inj more_eq
    simp

end ScriptLint.Text
