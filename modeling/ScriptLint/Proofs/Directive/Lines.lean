/-
**Scanning a text in parts.**

The scanner of directives goes line by line and hands on a mode. So it can be cut wherever a line
begins: the lines from there on are scanned in the mode that the lines before have left.

* `IsDirectiveLine` — a line that is taken as a directive, given the mode in which it begins.
* `Mode.after` — the mode in which a text of whole lines leaves the scanner.
* `scanFrom` — the directives of a text that begins in any mode and at any offset.
* `scanFrom_append`, `scanFrom_shift` — a text in parts, and a text moved.
* `scanFrom_bounds`, `scanFrom_increasing` — where the directives stand.
-/

import ScriptLint.Directive.Scan
import ScriptLint.Proofs.Text.Parts

namespace ScriptLint.Directive

/-- The directive moved up by `n` bytes. -/
def shift (n : Nat) (directive : Directive) : Directive :=
  { directive with position := directive.position + n }

/-! ### One line -/

/-- A character of the end of a line. -/
def isLineEnd (c : Char) : Bool :=
  c == '\n' || c == '\r'

theorem lineBody_append {body ending : List Char} (ends : ∀ c ∈ ending, isLineEnd c = true)
    (stays : ∀ c, body.getLast? = some c → isLineEnd c = false) :
    lineBody (body ++ ending) = body :=
  Text.dropEndWhile_append ends stays

theorem getLast?_lineBody {line : List Char} {c : Char}
    (last : (lineBody line).getLast? = some c) : isLineEnd c = false :=
  Text.getLast?_dropEndWhile last

theorem exists_ending (line : List Char) :
    ∃ ending, line = lineBody line ++ ending ∧ ∀ c ∈ ending, isLineEnd c = true :=
  Text.exists_dropEndWhile isLineEnd line

/-- A line that begins in `mode` is taken as a directive. -/
def IsDirectiveLine (mode : Mode) (line : List Char) : Prop :=
  mode = .code ∧ (Text.trimStart (lineBody line)).head? = some '#'

instance (mode : Mode) (line : List Char) : Decidable (IsDirectiveLine mode line) :=
  inferInstanceAs (Decidable (_ ∧ _))

section Line

variable {mode : Mode} {line : List Char}

theorem readLine_directive (taken : IsDirectiveLine mode line) (offset : Nat) :
    readLine mode offset line =
      (ofLine? (offset + Text.size ((lineBody line).takeWhile Text.isBlank))
        (Text.trimStart (lineBody line)).tail, .code) := by
  obtain ⟨rfl, hash⟩ := taken
  obtain ⟨content, trimmed⟩ : ∃ content, Text.trimStart (lineBody line) = '#' :: content :=
    List.head?_eq_some_iff.mp hash
  simp only [readLine, trimmed, List.tail_cons]

theorem readLine_other (other : ¬ IsDirectiveLine mode line) (offset : Nat) :
    readLine mode offset line = (none, mode.advance (lineBody line)) := by
  unfold readLine
  dsimp only
  split
  · rename_i content trimmed
    exact absurd ⟨rfl, by rw [trimmed]; rfl⟩ other
  · rfl

/-- The mode in which a line leaves the scanner. -/
def Mode.afterLine (mode : Mode) (line : List Char) : Mode :=
  if IsDirectiveLine mode line then .code else mode.advance (lineBody line)

theorem readLine_snd (mode : Mode) (offset : Nat) (line : List Char) :
    (readLine mode offset line).2 = mode.afterLine line := by
  unfold Mode.afterLine
  split
  · rw [readLine_directive ‹_›]
  · rw [readLine_other ‹_›]

theorem ofLine?_shift (n position : Nat) (content : List Char) :
    ofLine? (position + n) content = (ofLine? position content).map (shift n) := by
  simp only [ofLine?, Option.bind_eq_bind, Option.pure_def, Option.map_bind]
  rfl

theorem readLine_shift (mode : Mode) (n offset : Nat) (line : List Char) :
    (readLine mode (offset + n) line).1 = (readLine mode offset line).1.map (shift n) := by
  by_cases taken : IsDirectiveLine mode line
  · rw [readLine_directive taken, readLine_directive taken, ← ofLine?_shift,
      Nat.add_right_comm]
  · rw [readLine_other taken, readLine_other taken]
    rfl

theorem position_of_ofLine? {position : Nat} {content : List Char} {directive : Directive}
    (found : ofLine? position content = some directive) : directive.position = position := by
  simp only [ofLine?, Option.bind_eq_bind, Option.bind_eq_some_iff, Option.pure_def,
    Option.some.injEq] at found
  obtain ⟨kind, -, rfl⟩ := found
  rfl

/-- The directive of a line stands on the line. -/
theorem readLine_bounds {offset : Nat} {directive : Directive}
    (found : (readLine mode offset line).1 = some directive) :
    offset ≤ directive.position ∧ directive.position < offset + Text.size line := by
  by_cases taken : IsDirectiveLine mode line
  · rw [readLine_directive taken] at found
    rw [position_of_ofLine? found]
    obtain ⟨ending, line_eq, -⟩ := exists_ending line
    have parts := List.takeWhile_append_dropWhile (p := Text.isBlank) (l := lineBody line)
    have hash : List.dropWhile Text.isBlank (lineBody line) ≠ [] := by
      intro none
      have head := taken.2
      rw [Text.trimStart, none] at head
      cases head
    have sizes : Text.size line = Text.size ((lineBody line).takeWhile Text.isBlank) +
        Text.size ((lineBody line).dropWhile Text.isBlank) + Text.size ending := by
      rw [← Text.size_append, parts, ← Text.size_append, ← line_eq]
    have := Text.size_pos hash
    omega
  · rw [readLine_other taken] at found
    cases found

end Line

/-! ### Lines and texts -/

/-- The mode in which a text of whole lines leaves a scanner that begins it in `mode`. -/
def Mode.after (mode : Mode) (text : List Char) : Mode :=
  (Text.lines text).foldl Mode.afterLine mode

/-- The directives of a text that begins at `offset` in `mode`. -/
def scanFrom (mode : Mode) (offset : Nat) (text : List Char) : List Directive :=
  scanLines mode offset (Text.lines text)

theorem scan_eq (text : String) : scan text = scanFrom .code 0 text.toList := rfl

theorem scanFrom_nil (mode : Mode) (offset : Nat) : scanFrom mode offset [] = [] := rfl

theorem scanLines_append (mode : Mode) (offset : Nat) (first second : List (List Char)) :
    scanLines mode offset (first ++ second) =
      scanLines mode offset first ++
        scanLines (first.foldl Mode.afterLine mode) (offset + Text.size first.flatten) second := by
  induction first generalizing mode offset with
  | nil => rfl
  | cons line more ih =>
    rw [List.cons_append, scanLines, scanLines, ih, List.append_assoc, readLine_snd,
      List.foldl_cons, List.flatten_cons, Text.size_append, Nat.add_assoc]

/-- **A text in two parts.** The second part is scanned in the mode that the first has left. -/
theorem scanFrom_append {first : List Char} (whole : Text.WholeLines first) (mode : Mode)
    (offset : Nat) (second : List Char) :
    scanFrom mode offset (first ++ second) =
      scanFrom mode offset first ++
        scanFrom (mode.after first) (offset + Text.size first) second := by
  rw [scanFrom, Text.lines_append whole, scanLines_append, Text.flatten_lines]
  rfl

theorem Mode.after_append {first : List Char} (whole : Text.WholeLines first) (mode : Mode)
    (second : List Char) : mode.after (first ++ second) = (mode.after first).after second := by
  rw [Mode.after, Text.lines_append whole, List.foldl_append]
  rfl

/-- A text that is one line is scanned by reading that line. -/
theorem scanFrom_line {line : List Char} (single : Text.lines line = [line]) (mode : Mode)
    (offset : Nat) : scanFrom mode offset line = (readLine mode offset line).1.toList := by
  rw [scanFrom, single, scanLines, scanLines, List.append_nil]

theorem Mode.after_line {line : List Char} (single : Text.lines line = [line]) (mode : Mode) :
    mode.after line = (readLine mode 0 line).2 := by
  rw [Mode.after, single, readLine_snd]
  rfl

theorem scanLines_shift (mode : Mode) (n offset : Nat) (lines : List (List Char)) :
    scanLines mode (offset + n) lines = (scanLines mode offset lines).map (shift n) := by
  induction lines generalizing mode offset with
  | nil => rfl
  | cons line more ih =>
    rw [scanLines, scanLines, readLine_shift, readLine_snd, readLine_snd, Nat.add_right_comm, ih,
      List.map_append, Option.toList_map]

/-- **A text moved** has its directives moved. -/
theorem scanFrom_shift (mode : Mode) (n offset : Nat) (text : List Char) :
    scanFrom mode (offset + n) text = (scanFrom mode offset text).map (shift n) :=
  scanLines_shift mode n offset (Text.lines text)

/-- A text is scanned as it is at the start of a file, but for its place. -/
theorem scanFrom_eq_map_shift (mode : Mode) (offset : Nat) (text : List Char) :
    scanFrom mode offset text = (scanFrom mode 0 text).map (shift offset) := by
  rw [← scanFrom_shift, Nat.zero_add]

theorem scanLines_bounds {mode : Mode} {offset : Nat} {lines : List (List Char)}
    {directive : Directive} (member : directive ∈ scanLines mode offset lines) :
    offset ≤ directive.position ∧ directive.position < offset + Text.size lines.flatten := by
  induction lines generalizing mode offset with
  | nil => cases member
  | cons line more ih =>
    rw [List.flatten_cons, Text.size_append]
    rcases List.mem_append.mp member with here | later
    · have := readLine_bounds (Option.mem_toList.mp here)
      omega
    · have := ih later
      omega

/-- Every directive stands in the text. -/
theorem scanFrom_bounds {mode : Mode} {offset : Nat} {text : List Char} {directive : Directive}
    (member : directive ∈ scanFrom mode offset text) :
    offset ≤ directive.position ∧ directive.position < offset + Text.size text := by
  have bounds := scanLines_bounds member
  rwa [Text.flatten_lines] at bounds

theorem scanLines_increasing (mode : Mode) (offset : Nat) (lines : List (List Char)) :
    (scanLines mode offset lines).Pairwise fun a b => a.position < b.position := by
  induction lines generalizing mode offset with
  | nil => exact .nil
  | cons line more ih =>
    rw [scanLines, List.pairwise_append]
    refine ⟨?_, ih _ _, fun a here b later => ?_⟩
    · cases (readLine mode offset line).1 with
      | none => exact .nil
      | some directive => exact List.pairwise_singleton _ _
    · have := readLine_bounds (Option.mem_toList.mp here)
      have := scanLines_bounds later
      omega

/-- **The directives come in the order of their places.** -/
theorem scanFrom_increasing (mode : Mode) (offset : Nat) (text : List Char) :
    (scanFrom mode offset text).Pairwise fun a b => a.position < b.position :=
  scanLines_increasing mode offset (Text.lines text)

end ScriptLint.Directive
