/-
**What the scanner finds.**

* `LeadsLine` — the byte at an offset is a `#` with only blanks before it on its line.
* `exists_line_of_mem_scanFrom` — every directive is read from a line of its own.
* `leadsLine_of_mem_scan` — every directive stands at such a place.
* `isCondition_of_mem_scan` — a condition is some text on one line, trimmed, with no comment.
* `scan_found` — the scanner on bytes cuts no character and finds the directives in order, each at
  its `#` and with such a condition.
-/

import ScriptLint.Proofs.Directive.Octets
import ScriptLint.Proofs.Directive.Written
import ScriptLint.Proofs.Text.Rows

namespace ScriptLint.Directive

/-! ### Where a directive stands -/

/-- The byte at the offset is a `#`, and on its line there are only blanks before it. -/
def LeadsLine (text : List Char) (offset : Nat) : Prop :=
  ∃ earlier indent after, text = earlier ++ indent ++ '#' :: after ∧
    Text.size (earlier ++ indent) = offset ∧ Text.WholeLines earlier ∧
    ∀ c ∈ indent, Text.isBlank c = true ∧ c ≠ '\n'

section Line

variable {mode : Mode} {line later : List Char} {offset : Nat} {directive : Directive}

/-- A line from which a directive is read, with what stands before and behind its `#`. -/
theorem exists_of_readLine (found : (readLine mode offset line).1 = some directive) :
    ∃ afterHash ending,
      line = (lineBody line).takeWhile Text.isBlank ++ '#' :: afterHash ++ ending ∧
      lineBody line = (lineBody line).takeWhile Text.isBlank ++ '#' :: afterHash ∧
      ofLine? (offset + Text.size ((lineBody line).takeWhile Text.isBlank)) afterHash =
        some directive := by
  by_cases taken : IsDirectiveLine mode line
  · rw [readLine_directive taken] at found
    obtain ⟨afterHash, trimmed⟩ : ∃ content, Text.trimStart (lineBody line) = '#' :: content :=
      List.head?_eq_some_iff.mp taken.2
    obtain ⟨ending, line_eq, -⟩ := exists_ending line
    have body_eq : lineBody line = (lineBody line).takeWhile Text.isBlank ++ '#' :: afterHash := by
      rw [← trimmed]
      exact List.takeWhile_append_dropWhile.symm
    rw [trimmed] at found
    exact ⟨afterHash, ending, by rw [← body_eq]; exact line_eq, body_eq, found⟩
  · rw [readLine_other taken] at found
    cases found

/-- A line without its end holds no newline. -/
theorem newline_notMem_lineBody (isLine : Text.IsLine line later) : '\n' ∉ lineBody line := by
  intro member
  obtain ⟨ending, line_eq, -⟩ := exists_ending line
  obtain ⟨-, inside, -⟩ := Text.isLine_iff.mp isLine
  by_cases bare : ending = []
  · -- The newline would be the last character, which is no end of line.
    rw [bare, List.append_nil] at line_eq
    rw [line_eq] at inside
    obtain ⟨front, last, body_eq⟩ := List.eq_nil_or_concat' (lineBody line) |>.resolve_left
      (List.ne_nil_of_mem member)
    rw [body_eq, List.dropLast_concat] at inside
    rw [body_eq] at member
    have newline : last = '\n' := by simpa [inside, eq_comm] using member
    have final : (lineBody line).getLast? = some last := by
      rw [body_eq]
      exact List.getLast?_concat
    have stays := getLast?_lineBody final
    rw [newline] at stays
    cases stays
  · rw [line_eq, List.dropLast_append_of_ne_nil bare] at inside
    exact inside (List.mem_append_left _ member)

theorem leadsLine_of_readLine {before : List Char} (whole : Text.WholeLines before)
    (isLine : Text.IsLine line later)
    (found : (readLine mode (Text.size before) line).1 = some directive) :
    LeadsLine (before ++ (line ++ later)) directive.position := by
  obtain ⟨afterHash, ending, line_eq, body_eq, parsed⟩ := exists_of_readLine found
  refine ⟨before, (lineBody line).takeWhile Text.isBlank, afterHash ++ ending ++ later, ?_, ?_,
    whole, fun c member => ⟨?_, ?_⟩⟩
  · conv_lhs => rw [line_eq]
    simp
  · rw [position_of_ofLine? parsed, Text.size_append]
  · exact List.all_eq_true.mp List.all_takeWhile c member
  · rintro rfl
    exact newline_notMem_lineBody isLine ((List.takeWhile_sublist _).mem member)

theorem isCondition_of_ofLine? {position : Nat} {afterHash : List Char} {text : String}
    (inLine : '\n' ∉ afterHash) (found : ofLine? position afterHash = some directive)
    (condition : directive.condition = some text) : IsCondition text := by
  simp only [ofLine?, Option.bind_eq_bind, Option.bind_eq_some_iff, Option.pure_def,
    Option.some.injEq] at found
  obtain ⟨kind, -, rfl⟩ := found
  set behind := (Text.trimStart afterHash).dropWhile isKeywordChar with behind_eq
  dsimp only at condition
  split_ifs at condition with empty
  cases condition
  have part : Text.trim (Text.upTo ['/', '/'] behind) <:+: Text.upTo ['/', '/'] behind :=
    Text.isInfix_trim _
  have inside : Text.trim (Text.upTo ['/', '/'] behind) <:+: afterHash :=
    part.trans ((Text.isPrefix_upTo _ _).isInfix.trans
      ((List.dropWhile_suffix _).isInfix.trans (List.dropWhile_suffix _).isInfix))
  refine ⟨?_, ?_, ?_, ?_⟩
  · rw [ne_eq, String.ofList_eq_empty_iff]
    simpa using empty
  · rw [String.toList_ofList, Text.trim_trim]
  · rw [String.toList_ofList]
    exact fun newline => inLine (inside.subset newline)
  · have none := Text.hasInfix_upTo (List.cons_ne_nil '/' ['/']) behind
    rw [Bool.eq_false_iff, ne_eq, Text.hasInfix_iff] at none ⊢
    rw [String.toList_ofList]
    exact fun comment => none (comment.trans part)

theorem isCondition_of_readLine {text : String} (isLine : Text.IsLine line later)
    (found : (readLine mode offset line).1 = some directive)
    (condition : directive.condition = some text) : IsCondition text := by
  obtain ⟨afterHash, ending, -, body_eq, parsed⟩ := exists_of_readLine found
  refine isCondition_of_ofLine? (fun newline => ?_) parsed condition
  refine newline_notMem_lineBody isLine ?_
  rw [body_eq]
  exact List.mem_append_right _ (List.mem_cons_of_mem _ newline)

end Line

/-! ### Texts -/

section Scan

variable {directive : Directive}

/-- A directive of a text is read from one of its lines. -/
theorem exists_line_of_mem_scanFrom {mode : Mode} {before rest : List Char}
    (whole : Text.WholeLines before)
    (member : directive ∈ scanFrom mode (Text.size before) rest) :
    ∃ start mode' line later, before ++ rest = start ++ (line ++ later) ∧ Text.WholeLines start ∧
      Text.IsLine line later ∧ (readLine mode' (Text.size start) line).1 = some directive := by
  induction rest using Text.lines_induction generalizing mode before with
  | nil => cases member
  | line line later isLine ih =>
    rw [scanFrom, isLine, scanLines, List.mem_append] at member
    rcases member with here | further
    · exact ⟨before, mode, line, later, rfl, whole, isLine, Option.mem_toList.mp here⟩
    · have more : later ≠ [] := by
        rintro rfl
        cases further
      rw [← Text.size_append] at further
      rw [← List.append_assoc]
      exact ih (whole.append (isLine.wholeLines more)) further

/-- **Every directive** stands at the first character of its line that is not blank. -/
theorem leadsLine_of_mem_scan {text : String} (member : directive ∈ scan text) :
    LeadsLine text.toList directive.position := by
  obtain ⟨start, mode, line, later, text_eq, whole, isLine, found⟩ :=
    exists_line_of_mem_scanFrom (.inl rfl) member
  rw [List.nil_append] at text_eq
  rw [text_eq]
  exact leadsLine_of_readLine whole isLine found

/-- **Every condition** could be written behind a keyword as it is. -/
theorem isCondition_of_mem_scan {text : String} (member : directive ∈ scan text)
    {condition : String} (present : directive.condition = some condition) :
    IsCondition condition := by
  obtain ⟨start, mode, line, later, -, -, isLine, found⟩ :=
    exists_line_of_mem_scanFrom (.inl rfl) member
  exact isCondition_of_readLine isLine found present

end Scan

/-- **The scanner on bytes** never cuts a text inside a character, whatever the text. It finds the
directives in the order of their places, each at a `#` with only blanks before it on its line, and
with no condition or one that is not empty, trimmed and free of comments. -/
theorem scan_found (text : String) :
    scanAt? text = some (scan text) ∧
      (scan text).Pairwise (fun first second => first.position < second.position) ∧
      ∀ directive ∈ scan text, LeadsLine text.toList directive.position ∧
        ∀ condition, directive.condition = some condition → IsCondition condition := by
  have fenced : Mode.code.Fenced := trivial
  refine ⟨scanLinesAt?_eq fenced 0 _, scanFrom_increasing .code 0 text.toList, ?_⟩
  intro directive member
  exact ⟨leadsLine_of_mem_scan member, fun condition => isCondition_of_mem_scan member⟩

end ScriptLint.Directive
