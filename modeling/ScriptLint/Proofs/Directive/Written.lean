/-
**Scanning undoes writing.**

A directive can be written in many ways: indented, with blanks behind its `#`, with a comment at the
end of its line, with either end of line. Whatever is chosen for each line, a text of such lines is
scanned as the directives it was written from.

* `IsCondition` — a text that can stand behind a keyword as it is.
* `Written` — a directive with all that is chosen when it is written on a line of its own, and
  `Written.chars`, the line.
* `Written.condition_behindKeyword` — what is behind the keyword, without its comment and trimmed, is
  the condition.
* `Written.readLine_chars` — the line is read as its directive.
* `scanFrom_written` — a text of such lines, from any offset on.
* `scan_print` — the same kinds and conditions in order, each at the place of its `#`.
-/

import ScriptLint.Proofs.Directive.Lines

namespace ScriptLint.Directive

/-! ### Directives to write -/

/-- A text that can stand behind a keyword as it is: some text on one line, trimmed, with no
comment. -/
structure IsCondition (text : String) : Prop where
  nonempty : text ≠ ""
  trimmed : Text.trim text.toList = text.toList
  oneLine : '\n' ∉ text.toList
  noComment : Text.hasInfix ['/', '/'] text.toList = false

/-- Blanks inside a line. -/
structure Gap where
  chars : List Char
  blank : ∀ c ∈ chars, Text.isBlank c = true
  oneLine : '\n' ∉ chars

def Gap.empty : Gap :=
  ⟨[], fun _ absent => absurd absent List.not_mem_nil, List.not_mem_nil⟩

def Gap.space : Gap :=
  ⟨[' '], List.all_eq_true.mp rfl, by decide⟩

/-- A comment up to the end of a line, set off by blanks from what stands before it. -/
structure Remark where
  gap : Gap
  text : List Char
  setOff : gap.chars ≠ []
  oneLine : '\n' ∉ text

def Remark.chars (remark : Remark) : List Char :=
  remark.gap.chars ++ ['/', '/'] ++ remark.text

/-- What may stand before the newline that ends a line. -/
inductive Return where
  | absent
  | present

def Return.chars : Return → List Char
  | absent => []
  | present => ['\r']

/-- A directive with all that is chosen when it is written on a line of its own. -/
structure Written where
  kind : Kind
  condition : Option String
  indent : Gap
  behindHash : Gap
  /-- The blanks between the keyword and the condition. -/
  separator : Gap
  remark : Option Remark
  carriage : Return
  isCondition : ∀ text, condition = some text → IsCondition text
  separates : separator.chars ≠ []

namespace Written

/-- The condition with the blanks before it. -/
def conditionPart (line : Written) : List Char :=
  match line.condition with
  | none => []
  | some text => line.separator.chars ++ text.toList

/-- The line up to its comment. -/
def front (line : Written) : List Char :=
  line.indent.chars ++ '#' :: (line.behindHash.chars ++ (line.kind.keyword.toList ++
    line.conditionPart))

/-- The comment and what else stands before the newline. -/
def back (line : Written) : List Char :=
  (line.remark.elim [] Remark.chars) ++ line.carriage.chars

/-- The line as it is written. -/
def chars (line : Written) : List Char :=
  line.front ++ line.back ++ ['\n']

/-- The directive of a line that begins at `offset`. -/
def directive (line : Written) (offset : Nat) : Directive :=
  ⟨line.kind, line.condition, offset + Text.size line.indent.chars⟩

/-- The directive at the start of its line, with one space before its condition. -/
def plain (kind : Kind) (condition : Option String)
    (isCondition : ∀ text, condition = some text → IsCondition text) : Written where
  kind := kind
  condition := condition
  indent := .empty
  behindHash := .empty
  separator := .space
  remark := none
  carriage := .absent
  isCondition := isCondition
  separates := List.cons_ne_nil _ _

end Written

/-- The lines of the directives, one behind the other. -/
def print (written : List Written) : String :=
  String.ofList (written.flatMap Written.chars)

/-- What stands before the `#` of the directive with that number. -/
def beforeHash (written : List Written) (i : Fin written.length) : List Char :=
  (written.take i).flatMap Written.chars ++ (written.get i).indent.chars

/-! ### Characters of a line -/

theorem isBlank_of_isLineEnd {c : Char} (ends : isLineEnd c = true) : Text.isBlank c = true := by
  simp only [isLineEnd, Bool.or_eq_true, beq_iff_eq] at ends
  rcases ends with rfl | rfl <;> decide

theorem isLineEnd_of_not_isBlank {c : Char} (stays : Text.isBlank c = false) :
    isLineEnd c = false := by
  by_contra ends
  rw [isBlank_of_isLineEnd (by simpa using ends)] at stays
  cases stays

theorem isBlank_of_isKeywordChar {c : Char} (letter : isKeywordChar c = true) :
    Text.isBlank c = false :=
  Text.isBlank_of_isAlphanum (Bool.or_eq_true_iff.mpr (.inl letter))

theorem isKeywordChar_of_isBlank {c : Char} (blank : Text.isBlank c = true) :
    isKeywordChar c = false := by
  by_contra letter
  rw [isBlank_of_isKeywordChar (by simpa using letter)] at blank
  cases blank

/-- A word is cut off where its letters end. -/
theorem cut_word {word rest : List Char} (letters : ∀ c ∈ word, isKeywordChar c = true)
    (ends : ∀ c, rest.head? = some c → isKeywordChar c = false) :
    (word ++ rest).takeWhile isKeywordChar = word ∧
      (word ++ rest).dropWhile isKeywordChar = rest := by
  rw [List.takeWhile_append_of_pos letters, List.dropWhile_append_of_pos letters]
  cases rest with
  | nil => simp
  | cons c more => simp [ends c rfl]

namespace Kind

theorem ofKeyword?_keyword (kind : Kind) : ofKeyword? kind.keyword = some kind := by
  cases kind <;> decide

theorem isKeywordChar_of_mem (kind : Kind) : ∀ c ∈ kind.keyword.toList, isKeywordChar c = true := by
  have all : kind.keyword.toList.all isKeywordChar = true := by cases kind <;> decide
  exact List.all_eq_true.mp all

theorem keyword_ne_nil (kind : Kind) : kind.keyword.toList ≠ [] := by
  cases kind <;> decide

end Kind

theorem Gap.notMem (gap : Gap) {c : Char} (stays : Text.isBlank c = false) : c ∉ gap.chars := by
  intro member
  rw [gap.blank c member] at stays
  cases stays

namespace IsCondition

variable {text : String}

theorem ne_nil (condition : IsCondition text) : text.toList ≠ [] :=
  fun none => condition.nonempty (String.toList_eq_nil_iff.mp none)

/-- Trimmed text does not end with a blank. -/
theorem isBlank_getLast? (condition : IsCondition text) {c : Char}
    (last : text.toList.getLast? = some c) : Text.isBlank c = false := by
  rw [← condition.trimmed] at last
  exact Text.getLast?_dropEndWhile last

end IsCondition

/-! ### One line -/

namespace Written

variable (line : Written)

/-- What the line holds behind its condition once its end is taken off. -/
def tail : List Char :=
  lineBody (line.back ++ ['\n'])

theorem tail_of_none (bare : line.remark = none) : line.tail = [] := by
  rw [tail, back, bare]
  cases line.carriage <;> rfl

theorem tail_of_some {remark : Remark} (present : line.remark = some remark) :
    ∃ rest, line.tail = remark.gap.chars ++ ('/' :: '/' :: rest) := by
  have stays : ∀ c, (remark.gap.chars ++ ['/', '/']).getLast? = some c → isLineEnd c = false := by
    intro c last
    rw [List.getLast?_append_of_ne_nil _ (List.cons_ne_nil _ _)] at last
    obtain rfl : '/' = c := by simpa using last
    decide
  have split := Text.dropEndWhile_append_left stays (remark.text ++ (line.carriage.chars ++ ['\n']))
  refine ⟨lineBody (remark.text ++ (line.carriage.chars ++ ['\n'])), ?_⟩
  rw [tail, back, present]
  simp only [Option.elim_some, Remark.chars, List.append_assoc] at split ⊢
  exact split

/-- The tail begins with a blank, if it is not empty. -/
theorem isBlank_head?_tail {c : Char} (first : line.tail.head? = some c) :
    Text.isBlank c = true := by
  cases present : line.remark with
  | none =>
    rw [line.tail_of_none present] at first
    cases first
  | some remark =>
    obtain ⟨rest, tail_eq⟩ := line.tail_of_some present
    rw [tail_eq, List.head?_append_of_ne_nil _ remark.setOff] at first
    exact remark.gap.blank c (List.mem_of_mem_head? first)

/-- Before its comment, the tail is blank. -/
theorem isBlank_of_mem_upTo_tail {c : Char} (member : c ∈ Text.upTo ['/', '/'] line.tail) :
    Text.isBlank c = true := by
  cases present : line.remark with
  | none =>
    rw [line.tail_of_none present] at member
    cases member
  | some remark =>
    obtain ⟨rest, tail_eq⟩ := line.tail_of_some present
    have cut : Text.upTo ['/', '/'] ('/' :: '/' :: rest) = [] := by simp [Text.upTo]
    rw [tail_eq, Text.upTo_append_of_notMem (remark.gap.notMem (by decide)), cut,
      List.append_nil] at member
    exact remark.gap.blank c member

/-- What stands behind the keyword begins with a blank, if it is not empty. -/
theorem isBlank_head?_behindKeyword {c : Char}
    (first : (line.conditionPart ++ line.tail).head? = some c) : Text.isBlank c = true := by
  unfold conditionPart at first
  split at first
  · exact line.isBlank_head?_tail first
  · rw [List.append_assoc, List.head?_append_of_ne_nil _ line.separates] at first
    exact line.separator.blank c (List.mem_of_mem_head? first)

/-- The comment of the line is the first one in it. -/
theorem upTo_behindKeyword :
    Text.upTo ['/', '/'] (line.conditionPart ++ line.tail) =
      line.conditionPart ++ Text.upTo ['/', '/'] line.tail := by
  -- A slash that ends the condition makes no comment with the one that follows: a blank is between.
  have apart : ∀ c, line.tail.head? = some c → c ∉ ['/', '/'] := by
    intro c first member
    obtain rfl : c = '/' := by simpa using member
    have := line.isBlank_head?_tail first
    exact absurd this (by decide)
  unfold conditionPart
  split
  · rfl
  · rename_i text present
    rw [List.append_assoc, Text.upTo_append_of_notMem (line.separator.notMem (by decide)),
      Text.upTo_append (line.isCondition text present).noComment apart, List.append_assoc]

/-- **The condition** is what stands behind the keyword and before the comment, trimmed. -/
theorem condition_behindKeyword :
    Text.trim (Text.upTo ['/', '/'] (line.conditionPart ++ line.tail)) =
      line.condition.elim [] String.toList := by
  rw [upTo_behindKeyword]
  have blankAfter := fun c => line.isBlank_of_mem_upTo_tail (c := c)
  unfold conditionPart
  cases present : line.condition with
  | none =>
    have noneBefore (c : Char) (absent : c ∈ ([] : List Char)) : Text.isBlank c = true := by
      cases absent
    exact Text.trim_append noneBefore blankAfter []
  | some text =>
    rw [Text.trim_append line.separator.blank blankAfter]
    exact (line.isCondition text present).trimmed

theorem trimStart_behindHash (rest : List Char) :
    Text.trimStart (line.behindHash.chars ++ (line.kind.keyword.toList ++ rest)) =
      line.kind.keyword.toList ++ rest := by
  obtain ⟨c, more, keyword_eq⟩ := List.exists_cons_of_ne_nil line.kind.keyword_ne_nil
  have stays : Text.isBlank c = false :=
    isBlank_of_isKeywordChar (line.kind.isKeywordChar_of_mem c (by simp [keyword_eq]))
  rw [Text.trimStart, List.dropWhile_append_of_pos line.behindHash.blank, keyword_eq,
    List.cons_append, List.dropWhile_cons_of_neg (by simp [stays])]

/-- What stands behind the `#` is read as the kind and the condition. -/
theorem ofLine?_behindHash (position : Nat) :
    ofLine? position (line.behindHash.chars ++ (line.kind.keyword.toList ++
      (line.conditionPart ++ line.tail))) = some ⟨line.kind, line.condition, position⟩ := by
  obtain ⟨word, rest⟩ := cut_word line.kind.isKeywordChar_of_mem
    fun c first => isKeywordChar_of_isBlank (line.isBlank_head?_behindKeyword first)
  simp only [ofLine?, trimStart_behindHash, word, rest, String.ofList_toList,
    Kind.ofKeyword?_keyword, condition_behindKeyword, Option.bind_eq_bind, Option.bind_some,
    Option.pure_def]
  cases present : line.condition with
  | none => rfl
  | some text =>
    have nonempty := (line.isCondition text present).ne_nil
    simp [nonempty]

/-- The line up to its comment does not end with a blank. -/
theorem isBlank_getLast?_front {c : Char} (last : line.front.getLast? = some c) :
    Text.isBlank c = false := by
  cases present : line.condition with
  | none =>
    simp only [front, conditionPart, present, List.append_nil, ← List.append_assoc,
      ← List.cons_append] at last
    rw [List.getLast?_append_of_ne_nil _ line.kind.keyword_ne_nil] at last
    exact isBlank_of_isKeywordChar (line.kind.isKeywordChar_of_mem c (List.mem_of_getLast? last))
  | some text =>
    have condition := line.isCondition text present
    simp only [front, conditionPart, present, ← List.append_assoc, ← List.cons_append] at last
    rw [List.getLast?_append_of_ne_nil _ condition.ne_nil] at last
    exact condition.isBlank_getLast? last

theorem lineBody_chars :
    lineBody line.chars = line.front ++ line.tail := by
  rw [chars, List.append_assoc]
  exact Text.dropEndWhile_append_left
    (fun c last => isLineEnd_of_not_isBlank (line.isBlank_getLast?_front last)) _

/-- **The line is read as its directive.** -/
theorem readLine_chars (offset : Nat) :
    readLine .code offset line.chars = (some (line.directive offset), .code) := by
  have body : lineBody line.chars = line.indent.chars ++ '#' :: (line.behindHash.chars ++
      (line.kind.keyword.toList ++ (line.conditionPart ++ line.tail))) := by
    rw [lineBody_chars, front]
    simp only [List.append_assoc, List.cons_append]
  have hash : Text.isBlank '#' = false := by decide
  have trimmed : Text.trimStart (lineBody line.chars) = '#' :: (line.behindHash.chars ++
      (line.kind.keyword.toList ++ (line.conditionPart ++ line.tail))) := by
    rw [body, Text.trimStart, List.dropWhile_append_of_pos line.indent.blank,
      List.dropWhile_cons_of_neg (by simp [hash])]
  have indented : (lineBody line.chars).takeWhile Text.isBlank = line.indent.chars := by
    rw [body, List.takeWhile_append_of_pos line.indent.blank,
      List.takeWhile_cons_of_neg (by simp [hash]), List.append_nil]
  rw [readLine_directive ⟨rfl, by rw [trimmed]; rfl⟩, trimmed, indented, List.tail_cons,
    ofLine?_behindHash, directive]

theorem newline_notMem_conditionPart : '\n' ∉ line.conditionPart := by
  unfold conditionPart
  split
  · exact List.not_mem_nil
  · rename_i text present
    simp [line.separator.oneLine, (line.isCondition text present).oneLine]

theorem newline_notMem_back : '\n' ∉ line.back := by
  have carriage : '\n' ∉ line.carriage.chars := by cases line.carriage <;> decide
  unfold back
  cases line.remark with
  | none => simpa using carriage
  | some remark => simp [Remark.chars, remark.gap.oneLine, remark.oneLine, carriage]

theorem newline_notMem : '\n' ∉ line.front ++ line.back := by
  have keyword : '\n' ∉ line.kind.keyword.toList := fun member =>
    absurd (line.kind.isKeywordChar_of_mem _ member) (by decide)
  simp [front, line.indent.oneLine, line.behindHash.oneLine, keyword,
    line.newline_notMem_conditionPart, line.newline_notMem_back]

/-- A written line is one line. -/
theorem lines_chars : Text.lines line.chars = [line.chars] :=
  Text.lines_line line.newline_notMem

theorem wholeLines_chars : Text.WholeLines line.chars :=
  Text.wholeLines_newline _

/-- **One step of the scan.** A written line in front of a text gives its directive, and the text is
scanned from the next offset on. -/
theorem scanFrom_chars_append (offset : Nat) (text : List Char) :
    scanFrom .code offset (line.chars ++ text) =
      line.directive offset :: scanFrom .code (offset + Text.size line.chars) text := by
  rw [scanFrom_append line.wholeLines_chars, scanFrom_line line.lines_chars,
    Mode.after_line line.lines_chars, readLine_chars, readLine_chars]
  rfl

end Written

/-! ### A text of such lines -/

section Text

variable (line : Written) (more : List Written)

theorem beforeHash_zero : beforeHash (line :: more) 0 = line.indent.chars := rfl

theorem beforeHash_succ (i : Fin more.length) :
    beforeHash (line :: more) i.succ = line.chars ++ beforeHash more i :=
  List.append_assoc _ _ _

end Text

/-- **All steps of the scan**, from any offset on. -/
theorem scanFrom_written (offset : Nat) (written : List Written) :
    scanFrom .code offset (written.flatMap Written.chars) =
      List.ofFn fun i : Fin written.length =>
        ⟨(written.get i).kind, (written.get i).condition,
          offset + Text.size (beforeHash written i)⟩ := by
  induction written generalizing offset with
  | nil => rfl
  | cons line more ih =>
    rw [List.flatMap_cons, line.scanFrom_chars_append, ih, List.ofFn_succ]
    refine congrArg₂ List.cons rfl (congrArg List.ofFn (funext fun i => ?_))
    rw [beforeHash_succ, Text.size_append, Nat.add_assoc]
    rfl

/-- The directive with that number has its `#` there. -/
theorem exists_hash (written : List Written) (i : Fin written.length) :
    ∃ after, written.flatMap Written.chars = beforeHash written i ++ '#' :: after := by
  induction written with
  | nil => exact i.elim0
  | cons line more ih =>
    rw [List.flatMap_cons]
    cases i using Fin.cases with
    | zero =>
      rw [beforeHash_zero, Written.chars, Written.front]
      simp only [List.append_assoc, List.cons_append, List.append_cancel_left_eq, List.cons.injEq,
        true_and, exists_eq']
    | succ i =>
      obtain ⟨after, text_eq⟩ := ih i
      exact ⟨after, by rw [text_eq, beforeHash_succ, List.append_assoc]⟩

/-- **Scanning undoes writing.** A text of written directives, one on each line, is scanned as these
directives in their order, each at the offset of its `#`. -/
theorem scan_print (written : List Written) :
    scan (print written) =
        (List.ofFn fun i : Fin written.length =>
          ⟨(written.get i).kind, (written.get i).condition, Text.size (beforeHash written i)⟩) ∧
      ∀ i : Fin written.length, ∃ after,
        (print written).toList = beforeHash written i ++ '#' :: after := by
  rw [scan_eq, print, String.toList_ofList]
  refine ⟨?_, exists_hash written⟩
  rw [scanFrom_written]
  simp only [Nat.zero_add]

-- A condition that ends with a slash, right before its comment.
example :
    let condition : IsCondition "é(\"a\"/" := ⟨by decide, by decide, by decide, by decide⟩
    let line : Written :=
      { Written.plain .elseIf (some "é(\"a\"/") (by rintro _ ⟨⟩; exact condition) with
        indent := ⟨['\t', ' '], List.all_eq_true.mp rfl, by decide⟩
        remark := some ⟨.space, "/ why".toList, List.cons_ne_nil _ _, by decide⟩
        carriage := .present }
    print [line, line] = "\t #elif é(\"a\"/ /// why\r\n\t #elif é(\"a\"/ /// why\r\n" ∧
      scan (print [line, line]) =
        [⟨.elseIf, some "é(\"a\"/", 2⟩, ⟨.elseIf, some "é(\"a\"/", 27⟩] := by
  decide +kernel

end ScriptLint.Directive
