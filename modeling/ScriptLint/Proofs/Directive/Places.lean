/-
**Lines and places of a text that the scanner goes through.**

* `OnLine` — a line that is no directive, with the text around it. `OnLine.scanFrom_eq` gives the
  directives of that text, `OnLine.next` the next line if this one ends inside a literal.
* `OnLine.compare` — two lines of a text are the same, or one comes before the other.
* `Stands` — the scanner comes to a place of such a line; `Mode.StandsAt` and `CodeAt` say it of a
  text in two parts and of an offset.
* `Stands.of_later`, `Stands.of_earlier` — what a place depends on in the lines around it.
-/

import ScriptLint.Proofs.Directive.Moves

namespace ScriptLint.Directive

/-! ### Lines -/

/-- A line of a text, with the whole lines before it and with what follows it, is no directive. -/
structure OnLine (earlier line later : List Char) : Prop where
  whole : Text.WholeLines earlier
  isLine : Text.IsLine line later
  plain : ¬ IsDirectiveLine (Mode.code.after earlier) line

namespace OnLine

variable {earlier line later earlier' line' later' : List Char}

theorem afterLine_eq (onLine : OnLine earlier line later) :
    (Mode.code.after earlier).afterLine line = (Mode.code.after earlier).advance line := by
  obtain ⟨ending, line_eq, ends⟩ := exists_ending line
  rw [Mode.afterLine, if_neg onLine.plain]
  conv_rhs => rw [line_eq]
  exact (Mode.advance_ending ends _ _).symm

/-- The directives of a text around a line that is none. -/
theorem scanFrom_eq (onLine : OnLine earlier line later) :
    scanFrom .code 0 (earlier ++ line ++ later) =
      scanFrom .code 0 earlier ++
        scanFrom ((Mode.code.after earlier).advance line) (Text.size (earlier ++ line)) later := by
  rw [List.append_assoc, scanFrom_append onLine.whole, Nat.zero_add, Text.size_append]
  congr 1
  rw [scanFrom, onLine.isLine, scanLines, readLine_snd, onLine.afterLine_eq,
    readLine_other onLine.plain]
  rfl

theorem last (onLine : OnLine earlier line later) : OnLine earlier line [] := by
  obtain ⟨nonempty, inside, -⟩ := Text.isLine_iff.mp onLine.isLine
  exact ⟨onLine.whole, Text.isLine_iff.mpr ⟨nonempty, inside, .inl rfl⟩, onLine.plain⟩

theorem after_eq (onLine : OnLine earlier line later) :
    Mode.code.after (earlier ++ line) = (Mode.code.after earlier).advance line := by
  rw [Mode.after_append onLine.whole, Mode.after, onLine.last.isLine.lines_eq]
  exact onLine.afterLine_eq

/-- Behind a line that ends inside a literal, the next line is no directive either. -/
theorem next (onLine : OnLine earlier line later) (more : later ≠ [])
    (inside : (Mode.code.after earlier).advance line ≠ .code) :
    ∃ following rest, later = following ++ rest ∧ OnLine (earlier ++ line) following rest ∧
      Mode.code.after (earlier ++ line) = (Mode.code.after earlier).advance line ∧
      scanFrom .code 0 (earlier ++ line) = scanFrom .code 0 earlier := by
  obtain ⟨following, rest, rfl, isLine⟩ := Text.exists_isLine more
  refine ⟨following, rest, rfl, ⟨onLine.whole.append (onLine.isLine.wholeLines more), isLine, ?_⟩,
    onLine.after_eq, ?_⟩
  · rintro ⟨code, -⟩
    exact inside (onLine.after_eq ▸ code)
  · have directives := onLine.last.scanFrom_eq
    rwa [List.append_nil, scanFrom_nil, List.append_nil] at directives

theorem earlier_eq (onLine : OnLine earlier line later) (whole : Text.WholeLines earlier')
    {rest : List Char} (same : earlier ++ (line ++ later) = earlier' ++ rest)
    (notBefore : Text.size earlier ≤ Text.size earlier')
    (inside : Text.size earlier' < Text.size (earlier ++ line)) : earlier = earlier' := by
  obtain ⟨middle, rfl, rest_eq⟩ := Text.exists_append_of_size_le same notBefore
  by_cases none : middle = []
  · rw [none, List.append_nil]
  · -- The second line would begin inside the first one, behind a newline.
    have smaller : Text.size middle < Text.size line := by
      simp only [Text.size_append] at inside
      omega
    obtain ⟨after, rfl, -⟩ := Text.exists_append_of_size_le rest_eq.symm (Nat.le_of_lt smaller)
    have more : after ≠ [] := by
      rintro rfl
      simp at smaller
    have newline : middle.getLast? = some '\n' := by
      rcases whole with empty | last
      · exact (none (List.append_eq_nil_iff.mp empty).2).elim
      · rwa [List.getLast?_append_of_ne_nil _ none] at last
    have inLine := (Text.isLine_iff.mp onLine.isLine).2.1
    rw [List.dropLast_append_of_ne_nil more] at inLine
    exact (inLine (List.mem_append_left _ (List.mem_of_getLast? newline))).elim

/-- **Two lines of a text** are the same, or one comes before the other. -/
theorem compare (first : OnLine earlier line later) (second : OnLine earlier' line' later')
    (same : earlier ++ line ++ later = earlier' ++ line' ++ later') :
    (∃ between, earlier' = earlier ++ line ++ between ∧ later = between ++ line' ++ later') ∨
      (earlier = earlier' ∧ line = line' ∧ later = later') ∨
      ∃ between, earlier = earlier' ++ line' ++ between ∧ later' = between ++ line ++ later := by
  have same_right := same
  rw [List.append_assoc, List.append_assoc] at same_right
  by_cases before : Text.size (earlier ++ line) ≤ Text.size earlier'
  · rw [List.append_assoc earlier'] at same
    obtain ⟨between, earlier_eq, later_eq⟩ := Text.exists_append_of_size_le same before
    exact .inl ⟨between, earlier_eq, by rw [later_eq, List.append_assoc]⟩
  by_cases behind : Text.size (earlier' ++ line') ≤ Text.size earlier
  · rw [List.append_assoc earlier] at same
    obtain ⟨between, earlier_eq, later_eq⟩ := Text.exists_append_of_size_le same.symm behind
    exact .inr (.inr ⟨between, earlier_eq, by rw [later_eq, List.append_assoc]⟩)
  have earlier_same : earlier = earlier' := by
    rcases Nat.le_total (Text.size earlier) (Text.size earlier') with le | le
    · exact first.earlier_eq second.whole same_right le (by omega)
    · exact (second.earlier_eq first.whole same_right.symm le (by omega)).symm
  subst earlier_same
  have rest_same : line ++ later = line' ++ later' := List.append_cancel_left same_right
  have lines_same := first.isLine
  rw [Text.IsLine, rest_same, second.isLine, List.cons.injEq] at lines_same
  obtain ⟨rfl, -⟩ := lines_same
  exact .inr (.inl ⟨rfl, rfl, List.append_cancel_left rest_same⟩)

end OnLine

/-! ### Places -/

/-- The scanner comes to a place of a line in `mode`: `head` is what it has read of the line, `left`
what it has not, without the end of the line. -/
structure Stands (mode : Mode) (earlier head left ending later : List Char) : Prop
    extends OnLine earlier (head ++ left ++ ending) later where
  body : lineBody (head ++ left ++ ending) = head ++ left
  reached : (Mode.code.after earlier).Reaches (head ++ left) mode left

/-- The scanner of `before ++ after` comes to the start of `after` in `mode`, on a line that is no
directive. -/
def Mode.StandsAt (mode : Mode) (before after : List Char) : Prop :=
  ∃ earlier head left ending later, Stands mode earlier head left ending later ∧
    before = earlier ++ head ∧ after = left ++ ending ++ later

/-- The scanner of the text looks in code at the character at an offset, on a line that is no
directive. -/
def CodeAt (text : String) (offset : Nat) : Prop :=
  ∃ earlier head left ending later, Stands .code earlier head left ending later ∧ left ≠ [] ∧
    text.toList = earlier ++ (head ++ left ++ ending) ++ later ∧
    Text.size (earlier ++ head) = offset

namespace Stands

variable {mode : Mode} {earlier head left ending later : List Char}

theorem ends (stands : Stands mode earlier head left ending later) :
    ∀ c ∈ ending, isLineEnd c = true := by
  obtain ⟨other, line_eq, ends⟩ := exists_ending (head ++ left ++ ending)
  rw [stands.body] at line_eq
  rwa [List.append_cancel_left line_eq]

/-- A character that ends no line stands before the end of its line. -/
theorem left_ne_nil (stands : Stands mode earlier head left ending later) {c : Char}
    (first : (left ++ ending ++ later).head? = some c) (inside : isLineEnd c = false) :
    left ≠ [] := by
  rintro rfl
  rw [List.nil_append] at first
  cases ending with
  | cons d more =>
    have ends := stands.ends d List.mem_cons_self
    rw [List.cons_append, List.head?_cons, Option.some.injEq] at first
    rw [first, inside] at ends
    cases ends
  | nil =>
    -- The line ends here and more text follows, so it ends with a newline, which is no part of
    -- its body.
    have more : later ≠ [] := by
      rintro rfl
      cases first
    have newline := (Text.isLine_iff.mp stands.isLine).2.2.resolve_left more
    have body := stands.body
    rw [List.append_nil, List.append_nil] at body newline
    cases getLast?_lineBody (body ▸ newline)

/-- A place of a line in two ways. -/
theorem same_line {mode' : Mode} {head' left' ending' later' : List Char}
    (stands : Stands mode earlier head left ending later)
    (stands' : Stands mode' earlier head' left' ending' later')
    (same : head ++ left ++ ending = head' ++ left' ++ ending') :
    head ++ left = head' ++ left' ∧ ending = ending' := by
  have body := stands.body
  rw [same, stands'.body] at body
  rw [← body] at same
  exact ⟨body.symm, List.append_cancel_left same⟩

/-- A line that is not the last one may be followed by any text. -/
theorem of_later (stands : Stands mode earlier head left ending later)
    (more : later ≠ []) (other : List Char) : Stands mode earlier head left ending other := by
  obtain ⟨nonempty, inside, ends⟩ := Text.isLine_iff.mp stands.isLine
  have isLine : Text.IsLine (head ++ left ++ ending) other :=
    Text.isLine_iff.mpr ⟨nonempty, inside, .inr (ends.resolve_left more)⟩
  exact ⟨⟨stands.whole, isLine, stands.plain⟩, stands.body, stands.reached⟩

/-- A line depends on the lines before it by the mode in which it begins. -/
theorem of_earlier (stands : Stands mode earlier head left ending later)
    {other : List Char} (whole : Text.WholeLines other)
    (after_eq : Mode.code.after other = Mode.code.after earlier) :
    Stands mode other head left ending later := by
  refine ⟨⟨whole, stands.isLine, ?_⟩, stands.body, ?_⟩
  · rw [after_eq]
    exact stands.plain
  · rw [after_eq]
    exact stands.reached

end Stands

/-- An offset of code inside a line is a place of that line. -/
theorem OnLine.exists_stands {text : String} {offset : Nat} {earlier line later : List Char}
    (onLine : OnLine earlier line later)
    (text_eq : text.toList = earlier ++ line ++ later) (code : CodeAt text offset)
    (notBefore : Text.size earlier ≤ offset) (inside : offset < Text.size (earlier ++ line)) :
    ∃ head left ending, line = head ++ left ++ ending ∧ Text.size (earlier ++ head) = offset ∧
      Stands .code earlier head left ending later := by
  obtain ⟨earlier', head, left, ending, later', stands, inLine, text_eq', rfl⟩ := code
  have leftSize := Text.size_pos inLine
  rcases stands.toOnLine.compare onLine (text_eq'.symm.trans text_eq) with
    ⟨between, rfl, -⟩ | ⟨rfl, rfl, rfl⟩ | ⟨between, rfl, -⟩
  · simp only [Text.size_append] at notBefore
    omega
  · exact ⟨head, left, ending, rfl, rfl, stands⟩
  · simp only [Text.size_append] at inside
    omega

end ScriptLint.Directive
