/-
**What an inserted comment does to the directives of a script.**

A rule that marks a node puts a block comment and a space right before it. The comment begins with a
slash, and there is nothing between it and what stands before the node.

* `Mode.Reaches.change` — what the scanner reads before a place does not depend on what stands
  behind it, but for a slash right before a slash.
* `Stands.scanFrom_insert`, `CodeAt.insert` — the directives and the code of a text with a comment
  in it.
* `SlashBefore` — the scanner looks in code at a slash right before an offset.
* `scan_annotate_iff` — the comment moves the directives and the code behind it and changes nothing
  else, exactly if there is no slash right before it. `scan_annotate_division` is a case with one.
-/

import ScriptLint.Ban
import ScriptLint.Proofs.Directive.Literal

namespace ScriptLint.Directive

/-! ### Another text behind a place -/

section Change

variable {mode next target : Mode} {read left other s : List Char} {barred : List (List Char)}

/-- Only two moves look for a slash: the one inside a block comment, and the one that reads a
character of code. -/
theorem Move.slash_of_mem (move : Move mode read next barred) {piece : List Char}
    (member : piece ∈ barred) (slash : '/' ∈ piece) :
    piece.length = 2 ∧
      (next = .code → mode = .code ∧ piece.head? = some '/' ∧ ∃ c, read = [c]) := by
  cases move with
  | rawInside quotes c => simp_all [fence]
  | openRaw more => simp_all
  | alone c =>
    have openers : ∀ piece ∈ codeOpeners, '/' ∈ piece →
        piece.length = 2 ∧ piece.head? = some '/' := by decide
    obtain ⟨length, starts⟩ := openers piece member slash
    exact ⟨length, fun _ => ⟨rfl, starts, c, rfl⟩⟩
  | _ => simp_all

/-- One move in front of another text that begins with a slash. -/
theorem Mode.Reads.change {y : List Char} (reads : mode.Reads read next (y ++ left))
    (slash : other.head? = some '/')
    (meets : y = [] → next = .code ∧ ¬ (mode = .code ∧ read = ['/'])) :
    mode.Reads read next (y ++ other) := by
  obtain ⟨barred, move, free⟩ := reads
  refine ⟨barred, move, fun piece member here => free piece member ?_⟩
  rw [← List.append_assoc] at here ⊢
  suffices piece <+: read ++ y from this.trans (List.prefix_append _ _)
  by_cases holds : '/' ∈ piece
  · obtain ⟨length, starts⟩ := move.slash_of_mem member holds
    by_cases none : y = []
    · obtain ⟨code, noSlash⟩ := meets none
      obtain ⟨modeCode, first, c, rfl⟩ := starts code
      obtain ⟨more, rfl⟩ := List.head?_eq_some_iff.mp first
      rw [List.append_assoc, List.singleton_append, List.cons_prefix_cons] at here
      exact (noSlash ⟨modeCode, by rw [here.1]⟩).elim
    · refine List.prefix_of_prefix_length_le here (List.prefix_append _ _) ?_
      have := List.length_pos_iff.mpr none
      have := List.length_pos_iff.mpr move.read_ne_nil
      rw [List.length_append]
      omega
  · refine Text.prefix_of_prefix_append here fun c first => ?_
    rw [slash, Option.some.injEq] at first
    exact first ▸ holds

/-- **Several moves in front of another text** that begins with a slash. Only a slash of code right
before it would be read with it. -/
theorem Mode.Reaches.change {y : List Char} (reached : mode.Reaches s target (y ++ left))
    (inLine : left ≠ []) (slash : other.head? = some '/')
    (meets : y = [] → target = .code ∧ ¬ mode.Reaches s .code ('/' :: left)) :
    ∃ read, s = read ++ (y ++ left) ∧ mode.Reaches (read ++ (y ++ other)) target (y ++ other) := by
  have inLine : y ++ left ≠ [] := by simp [inLine]
  revert meets
  refine reached.reads_induction inLine (fun _ => ⟨[], rfl, .refl _ _⟩) ?_
  intro mode next read rest reads onward ih meets
  obtain ⟨before, rfl, changed⟩ := ih fun none =>
    ⟨(meets none).1, fun slash => (meets none).2 (reads.reaches.trans slash)⟩
  refine ⟨read ++ before, by simp, ?_⟩
  rw [← List.append_assoc] at reads
  have moved : mode.Reads read next (before ++ y ++ other) := by
    refine reads.change slash fun none => ?_
    obtain ⟨rfl, rfl⟩ := List.append_eq_nil_iff.mp none
    obtain ⟨rfl, noSlash⟩ := meets rfl
    refine ⟨onward.eq_of_same, ?_⟩
    rintro ⟨rfl, rfl⟩
    exact noSlash (.refl _ _)
  rw [List.append_assoc] at moved ⊢
  exact moved.reaches.trans changed

end Change

/-! ### Places moved by an insertion -/

/-- The place where an offset lies when `n` bytes have been put in at `place`. -/
def movedOffset (place n offset : Nat) : Nat :=
  if offset < place then offset else offset + n

/-- The directive, moved up by `n` bytes if it stands behind `place`. -/
def moveUp (place n : Nat) (directive : Directive) : Directive :=
  if place < directive.position then shift n directive else directive

section Moved

variable {place n : Nat} {directives : List Directive}

theorem map_moveUp_of_le (before : ∀ d ∈ directives, d.position ≤ place) :
    directives.map (moveUp place n) = directives := by
  have same : directives.map (moveUp place n) = directives.map id :=
    List.map_congr_left fun d member => if_neg (Nat.not_lt.mpr (before d member))
  rw [same, List.map_id]

theorem map_moveUp_of_lt (behind : ∀ d ∈ directives, place < d.position) :
    directives.map (moveUp place n) = directives.map (shift n) :=
  List.map_congr_left fun d member => if_pos (behind d member)

theorem moveUp_position_le_iff (place n offset : Nat) (directive : Directive) :
    (moveUp place n directive).position ≤ movedOffset place n offset ↔
      directive.position ≤ offset := by
  have position_eq : (moveUp place n directive).position =
      if place < directive.position then directive.position + n else directive.position := by
    unfold moveUp
    split <;> rfl
  rw [position_eq, movedOffset]
  split <;> split <;> omega

/-- **No guard changes** when directives and offsets are moved together. -/
theorem guards_map_moveUp (place n : Nat) (directives : List Directive) (offset : Nat)
    (keyword : String) :
    guards (directives.map (moveUp place n)) (movedOffset place n offset) keyword =
      guards directives offset keyword := by
  have applied (regions : Regions) (directive : Directive) :
      regions.apply (moveUp place n directive) = regions.apply directive := by
    unfold moveUp
    split <;> rfl
  have replayed : Regions.replay (directives.map (moveUp place n)) (movedOffset place n offset) =
      Regions.replay directives offset := by
    simp only [Regions.replay, Regions.replayFrom, List.filter_map, List.foldl_map, applied,
      Function.comp_def, moveUp_position_le_iff]
  rw [guards, replayed, guards]

end Moved

/-! ### A comment put into a line -/

/-- A block comment on one line, and a space behind it. -/
def IsNote (note : List Char) : Prop :=
  ∃ body, note = ['/', '*'] ++ body ++ ['*', '/'] ++ [' '] ∧ ¬ ['*', '/'] <:+: body ∧ '\n' ∉ body

/-- On the line that begins behind `earlier`, the scanner looks in code at a slash right before
`left`. -/
def MeetsSlash (earlier head left : List Char) : Prop :=
  (Mode.code.after earlier).Reaches (head ++ left) .code ('/' :: left)

section Note

variable {note earlier head left ending later : List Char}

theorem IsNote.head?_eq (isNote : IsNote note) (s : List Char) : (note ++ s).head? = some '/' := by
  obtain ⟨body, rfl, -, -⟩ := isNote
  rfl

theorem IsNote.inLine (isNote : IsNote note) : '\n' ∉ note := by
  obtain ⟨body, rfl, -, inLine⟩ := isNote
  simp [inLine]

/-- From a note on, the scanner comes to what stands behind the note. -/
theorem IsNote.reaches (isNote : IsNote note) (left : List Char) :
    Mode.code.Reaches (note ++ left) .code left := by
  obtain ⟨body, rfl, noEnd, -⟩ := isNote
  have comment := (Literal.comment noEnd (' ' :: left)).passes.reaches
  have space : Mode.code.Reads [' '] .code left :=
    ⟨_, .alone ' ', by simp [codeOpeners, verbatimOpeners]⟩
  rw [List.append_assoc]
  exact comment.trans space.reaches

theorem Stands.lineBody_insert (stands : Stands .code earlier head left ending later)
    (inLine : left ≠ []) (note : List Char) :
    lineBody (head ++ (note ++ left) ++ ending) = head ++ (note ++ left) := by
  refine lineBody_append stands.ends fun c last => ?_
  have last : (lineBody (head ++ left ++ ending)).getLast? = some c := by
    rw [stands.body, List.getLast?_append_of_ne_nil _ inLine]
    rwa [← List.append_assoc, List.getLast?_append_of_ne_nil _ inLine] at last
  exact getLast?_lineBody last

/-- The line with the note is no directive either. -/
theorem Stands.onLine_insert (stands : Stands .code earlier head left ending later)
    (inLine : left ≠ []) (isNote : IsNote note) :
    OnLine earlier (head ++ (note ++ left) ++ ending) later := by
  obtain ⟨-, inside, ends⟩ := Text.isLine_iff.mp stands.isLine
  have nonempty : left ++ ending ≠ [] := by simp [inLine]
  have line_eq : head ++ (note ++ left) ++ ending = head ++ note ++ (left ++ ending) := by simp
  rw [List.append_assoc, List.dropLast_append_of_ne_nil nonempty] at inside
  rw [List.append_assoc, List.getLast?_append_of_ne_nil _ nonempty] at ends
  refine ⟨stands.whole, Text.isLine_iff.mpr ⟨by simp [inLine], ?_, ?_⟩, ?_⟩
  · rw [line_eq, List.dropLast_append_of_ne_nil nonempty]
    simp only [List.mem_append, not_or] at inside ⊢
    exact ⟨⟨inside.1, isNote.inLine⟩, inside.2⟩
  · rw [line_eq, List.getLast?_append_of_ne_nil _ nonempty]
    exact ends
  · rintro ⟨code, hash⟩
    refine stands.plain ⟨code, ?_⟩
    rw [stands.lineBody_insert inLine, Text.trimStart, List.dropWhile_append] at hash
    rw [stands.body, Text.trimStart, List.dropWhile_append]
    -- Behind blanks the note comes first, and it begins with a slash.
    by_cases blank : (List.dropWhile Text.isBlank head).isEmpty = true
    · obtain ⟨more, starts⟩ := List.head?_eq_some_iff.mp (isNote.head?_eq left)
      rw [if_pos blank, starts] at hash
      cases hash
    · rw [if_neg blank, List.head?_append_of_ne_nil _ (by simpa using blank)] at hash ⊢
      exact hash

/-- The scanner comes to the note as it came to what the note is put before. -/
theorem Stands.reaches_note (stands : Stands .code earlier head left ending later)
    (inLine : left ≠ []) (isNote : IsNote note)
    (noSlash : ¬ MeetsSlash earlier head left) :
    (Mode.code.after earlier).Reaches (head ++ (note ++ left)) .code (note ++ left) := by
  have reached : (Mode.code.after earlier).Reaches (head ++ left) .code ([] ++ left) :=
    stands.reached
  obtain ⟨read, same, changed⟩ :=
    reached.change inLine (isNote.head?_eq left) fun _ => ⟨rfl, noSlash⟩
  obtain rfl := List.append_cancel_right same
  exact changed

/-- The note does not change the mode at the end of the line. -/
theorem Stands.advance_insert (stands : Stands .code earlier head left ending later)
    (inLine : left ≠ []) (isNote : IsNote note)
    (noSlash : ¬ MeetsSlash earlier head left) :
    (Mode.code.after earlier).advance (head ++ (note ++ left) ++ ending) =
      (Mode.code.after earlier).advance (head ++ left ++ ending) := by
  rw [Mode.advance_ending stands.ends, Mode.advance_ending stands.ends, stands.reached.advance_eq,
    (stands.reaches_note inLine isNote noSlash).advance_eq, (isNote.reaches left).advance_eq]

/-- Whole lines behind the note begin and end in the same modes as without it. -/
theorem Stands.after_insert (stands : Stands .code earlier head left ending later)
    (inLine : left ≠ []) (isNote : IsNote note)
    (noSlash : ¬ MeetsSlash earlier head left)
    (more : later ≠ []) {between : List Char}
    (whole : Text.WholeLines (earlier ++ (head ++ left ++ ending) ++ between)) :
    Text.WholeLines (earlier ++ (head ++ (note ++ left) ++ ending) ++ between) ∧
      Mode.code.after (earlier ++ (head ++ (note ++ left) ++ ending) ++ between) =
        Mode.code.after (earlier ++ (head ++ left ++ ending) ++ between) := by
  have onLine := stands.onLine_insert inLine isNote
  have before := stands.whole.append (stands.isLine.wholeLines more)
  have before' := stands.whole.append (onLine.isLine.wholeLines more)
  refine ⟨before'.append (Text.WholeLines.right whole), ?_⟩
  rw [Mode.after_append before', onLine.after_eq, Mode.after_append before,
    stands.toOnLine.after_eq, stands.advance_insert inLine isNote noSlash]

/-- **The directives of a text with a note in it.** -/
theorem Stands.scanFrom_insert (stands : Stands .code earlier head left ending later)
    (inLine : left ≠ []) (isNote : IsNote note)
    (noSlash : ¬ MeetsSlash earlier head left) :
    scanFrom .code 0 (earlier ++ (head ++ (note ++ left) ++ ending) ++ later) =
      (scanFrom .code 0 (earlier ++ (head ++ left ++ ending) ++ later)).map
        (moveUp (Text.size (earlier ++ head)) (Text.size note)) := by
  rw [(stands.onLine_insert inLine isNote).scanFrom_eq, stands.toOnLine.scanFrom_eq,
    stands.advance_insert inLine isNote noSlash, List.map_append]
  have before : ∀ d ∈ scanFrom .code 0 earlier, d.position ≤ Text.size (earlier ++ head) :=
    fun d member => by
      have := scanFrom_bounds member
      rw [Text.size_append]
      omega
  have behind : ∀ mode, ∀ d ∈ scanFrom mode (Text.size (earlier ++ (head ++ left ++ ending))) later,
      Text.size (earlier ++ head) < d.position := fun mode d member => by
    have := scanFrom_bounds member
    have := Text.size_pos inLine
    simp only [Text.size_append] at *
    omega
  have size_eq : Text.size (earlier ++ (head ++ (note ++ left) ++ ending)) =
      Text.size (earlier ++ (head ++ left ++ ending)) + Text.size note := by
    simp only [Text.size_append]
    omega
  rw [map_moveUp_of_le before, map_moveUp_of_lt (behind _), size_eq, scanFrom_shift]

end Note

/-! ### Offsets in code -/

/-- The scanner of the text looks in code at a slash right before an offset. -/
def SlashBefore (text : String) (offset : Nat) : Prop :=
  ∃ before after, text.toList = before ++ '/' :: after ∧ Text.size before + 1 = offset ∧
    CodeAt text (Text.size before)

section Insertion

variable {text out : String} {note earlier head left ending later : List Char} {offset : Nat}

/-- A place of the line with the note. -/
theorem Stands.codeAt_insert (stands : Stands .code earlier head left ending later)
    (inLine : left ≠ []) (isNote : IsNote note)
    (out_eq : out.toList = earlier ++ (head ++ (note ++ left) ++ ending) ++ later)
    {head' left' : List Char} (same : head' ++ left' = head ++ (note ++ left)) (some : left' ≠ [])
    (reached : (Mode.code.after earlier).Reaches (head' ++ left') .code left') :
    CodeAt out (Text.size (earlier ++ head')) := by
  have onLine := stands.onLine_insert inLine isNote
  have body := stands.lineBody_insert inLine note
  rw [← same] at onLine body out_eq
  exact ⟨earlier, head', left', ending, later, ⟨onLine, body, reached⟩, some, out_eq, rfl⟩

/-- A place of the line before the note. -/
theorem Stands.codeAt_before {y : List Char}
    (stands : Stands .code earlier (head ++ y) left ending later) (inLine : left ≠ [])
    (isNote : IsNote note) (some : y ≠ [])
    (out_eq : out.toList = earlier ++ (head ++ y ++ (note ++ left) ++ ending) ++ later)
    (reached : (Mode.code.after earlier).Reaches (head ++ (y ++ left)) .code (y ++ left)) :
    CodeAt out (Text.size (earlier ++ head)) := by
  obtain ⟨read, same, changed⟩ :=
    reached.change inLine (isNote.head?_eq left) fun none => absurd none some
  obtain rfl := List.append_cancel_right same
  exact stands.codeAt_insert inLine isNote out_eq (by simp) (by simp [inLine]) changed

/-- A place of the line behind the note. -/
theorem Stands.codeAt_behind {y : List Char}
    (stands : Stands .code earlier head (y ++ left) ending later) (inLine : left ≠ [])
    (isNote : IsNote note)
    (noSlash : ¬ MeetsSlash earlier head (y ++ left))
    (out_eq : out.toList = earlier ++ (head ++ (note ++ (y ++ left)) ++ ending) ++ later)
    (reached : (Mode.code.after earlier).Reaches (head ++ (y ++ left)) .code left) :
    CodeAt out (Text.size (earlier ++ (head ++ y)) + Text.size note) := by
  have inLine_y : y ++ left ≠ [] := by simp [inLine]
  have toNote := stands.reaches_note inLine_y isNote noSlash
  have toPlace := (toNote.trans (isNote.reaches _)).trans (stands.reached.onward reached)
  have place : CodeAt out (Text.size (earlier ++ (head ++ note ++ y))) := by
    refine stands.codeAt_insert inLine_y isNote out_eq (by simp) inLine ?_
    simpa using toPlace
  have size_eq : Text.size (earlier ++ (head ++ y)) + Text.size note =
      Text.size (earlier ++ (head ++ note ++ y)) := by
    simp only [Text.size_append]
    omega
  rwa [size_eq]

/-- **What is code stays code** when a note is put in, unless there is a slash right before it. -/
theorem CodeAt.insert (stands : Stands .code earlier head left ending later)
    (inLine : left ≠ []) (isNote : IsNote note)
    (noSlash : ¬ MeetsSlash earlier head left)
    (text_eq : text.toList = earlier ++ (head ++ left ++ ending) ++ later)
    (out_eq : out.toList = earlier ++ (head ++ (note ++ left) ++ ending) ++ later)
    (code : CodeAt text offset) :
    CodeAt out (movedOffset (Text.size (earlier ++ head)) (Text.size note) offset) := by
  obtain ⟨earlier', head', left', ending', later', stands', inLine', text_eq', rfl⟩ := code
  have leftSize := Text.size_pos inLine
  have leftSize' := Text.size_pos inLine'
  rcases stands'.toOnLine.compare stands.toOnLine (text_eq'.symm.trans text_eq) with
    ⟨between, rfl, rfl⟩ | ⟨rfl, line_eq, rfl⟩ | ⟨between, rfl, rfl⟩
  · -- The place is on a line before the one with the note.
    have before : Text.size (earlier' ++ head') <
        Text.size (earlier' ++ (head' ++ left' ++ ending') ++ between ++ head) := by
      simp only [Text.size_append]
      omega
    rw [movedOffset, if_pos before]
    refine ⟨earlier', head', left', ending', between ++ (head ++ (note ++ left) ++ ending) ++ later,
      stands'.of_later ?_ _, inLine', ?_, rfl⟩
    · simp [inLine]
    · rw [out_eq]
      simp
  · -- The place is on the line with the note, before or behind it.
    obtain ⟨body_eq, rfl⟩ := stands'.same_line stands line_eq
    by_cases before : Text.size (earlier' ++ head') < Text.size (earlier' ++ head)
    · rw [movedOffset, if_pos before]
      simp only [Text.size_append] at before
      obtain ⟨y, rfl, rfl⟩ := Text.exists_append_of_size_le body_eq (by omega)
      have some : y ≠ [] := by
        rintro rfl
        simp at before
      exact stands.codeAt_before inLine isNote some out_eq stands'.reached
    · rw [movedOffset, if_neg before]
      simp only [Text.size_append] at before
      obtain ⟨y, rfl, rfl⟩ := Text.exists_append_of_size_le body_eq.symm (by omega)
      have reached := stands'.reached
      rw [List.append_assoc] at reached
      exact stands.codeAt_behind inLine' isNote noSlash out_eq reached
  · -- The place is on a line behind the one with the note.
    have behind : ¬ Text.size (earlier ++ (head ++ left ++ ending) ++ between ++ head') <
        Text.size (earlier ++ head) := by
      simp only [Text.size_append]
      omega
    rw [movedOffset, if_neg behind]
    have more : between ++ (head' ++ left' ++ ending') ++ later' ≠ [] := by simp [inLine']
    obtain ⟨whole, after_eq⟩ := stands.after_insert inLine isNote noSlash more stands'.whole
    refine ⟨_, head', left', ending', later',
      stands'.of_earlier whole after_eq, inLine', ?_, ?_⟩
    · rw [out_eq]
      simp
    · simp only [Text.size_append]
      omega

/-- A slash of code right before a place is one that the scanner comes to on the same line. -/
theorem Stands.slashBefore_iff (stands : Stands .code earlier head left ending later)
    (inLine : left ≠ []) (text_eq : text.toList = earlier ++ (head ++ left ++ ending) ++ later) :
    SlashBefore text (Text.size (earlier ++ head)) ↔ MeetsSlash earlier head left := by
  have slashSize : Text.size ['/'] = 1 := rfl
  constructor
  · rintro ⟨before, after, split_eq, size_eq, code⟩
    have parts : before ++ ['/'] ++ after = earlier ++ head ++ (left ++ ending ++ later) := by
      simpa using split_eq.symm.trans text_eq
    obtain ⟨before_eq, -⟩ :=
      Text.append_inj_of_size parts (by rw [Text.size_append, slashSize, size_eq])
    -- The slash is on the line of the place, as no line ends with a slash.
    rcases List.eq_nil_or_concat head with rfl | ⟨front, last, rfl⟩
    · rw [List.append_nil] at before_eq
      have whole := stands.whole
      rw [← before_eq] at whole
      rcases whole with none | newline
      · simp at none
      · simp at newline
    · rw [List.concat_eq_append, ← List.append_assoc] at before_eq
      obtain ⟨rfl, last_eq⟩ := List.append_inj' before_eq rfl
      obtain rfl : '/' = last := by simpa using last_eq
      rw [List.concat_eq_append] at stands text_eq ⊢
      have leftSize := Text.size_pos inLine
      have inside : Text.size (earlier ++ front) <
          Text.size (earlier ++ (front ++ ['/'] ++ left ++ ending)) := by
        simp only [Text.size_append]
        omega
      obtain ⟨head', left', ending', line_eq, place, stands'⟩ :=
        stands.toOnLine.exists_stands text_eq code (by simp) inside
      obtain ⟨body_eq, -⟩ := stands.same_line stands' line_eq
      rw [List.append_assoc] at body_eq
      obtain ⟨rfl, rfl⟩ := Text.append_inj_of_size body_eq (by simpa using place.symm)
      rw [MeetsSlash, List.append_assoc]
      exact stands'.reached
  · intro reached
    obtain ⟨read, same⟩ := reached.exists_append
    have head_eq : head = read ++ ['/'] := by
      rw [← List.singleton_append, ← List.append_assoc] at same
      exact List.append_cancel_right same
    subst head_eq
    have line_eq : read ++ ['/'] ++ left = read ++ '/' :: left := by simp
    have onLine := stands.toOnLine
    have body := stands.body
    rw [MeetsSlash, line_eq] at reached
    rw [line_eq] at onLine body text_eq
    refine ⟨earlier ++ read, left ++ ending ++ later, ?_, ?_, earlier, read, '/' :: left, ending,
      later, ⟨onLine, body, reached⟩, by simp, text_eq, rfl⟩
    · rw [text_eq]
      simp
    · rw [← List.append_assoc, Text.size_append _ ['/'], slashSize]

/-- A note behind a slash of code is part of a line comment. -/
theorem Stands.not_codeAt_of_slash (stands : Stands .code earlier head left ending later)
    (inLine : left ≠ []) (isNote : IsNote note)
    (slash : MeetsSlash earlier head left)
    (out_eq : out.toList = earlier ++ (head ++ (note ++ left) ++ ending) ++ later) :
    ¬ CodeAt out (Text.size (earlier ++ head) + Text.size note) := by
  intro code
  have leftSize := Text.size_pos inLine
  obtain ⟨head', left', ending', line_eq, place, stands'⟩ :=
    (stands.onLine_insert inLine isNote).exists_stands out_eq code
      (by rw [Text.size_append]; omega) (by simp only [Text.size_append]; omega)
  -- The same place of the line with the note, in two ways.
  have body := stands'.body
  rw [← line_eq, stands.lineBody_insert inLine, ← List.append_assoc] at body
  obtain ⟨rfl, rfl⟩ := Text.append_inj_of_size body (by
    simp only [Text.size_append] at place ⊢
    omega)
  have slash : (Mode.code.after earlier).Reaches (head ++ left) .code (['/'] ++ left) := slash
  obtain ⟨read, same, changed⟩ := slash.change inLine (isNote.head?_eq left) (by simp)
  have head_eq : head = read ++ ['/'] := by
    rw [← List.append_assoc] at same
    exact List.append_cancel_right same
  have line_eq : read ++ (['/'] ++ (note ++ left)) = head ++ note ++ left := by
    rw [head_eq]
    simp
  rw [line_eq, ← List.append_assoc] at changed
  -- Between two slashes the scanner stops.
  have stuck := changed.onward stands'.reached
  obtain ⟨more, starts⟩ := List.head?_eq_some_iff.mp (isNote.head?_eq left)
  rw [List.append_assoc, starts, List.singleton_append] at stuck
  have lengths := congrArg List.length stuck.eq_of_lineComment
  rw [← starts, List.length_cons, List.length_append] at lengths
  omega

end Insertion

/-! ### The comments of the rules -/

theorem isNote_of_fixMethod {kind : Ban.Kind} {comment : String}
    (annotates : kind.fixMethod = .annotate comment) : IsNote (comment ++ " ").toList := by
  cases kind with
  | editorApi => cases annotates
  | spreadsheetImport => cases annotates
  | spreadsheetCall =>
    cases annotates
    exact ⟨" unity-lint: editor-only spreadsheet API ".toList, by decide, by decide +kernel,
      by decide⟩
  | frameQuery =>
    cases annotates
    exact ⟨" unity-lint: LINQ allocates every frame ".toList, by decide, by decide +kernel,
      by decide⟩

/-- One annotation, at a place where the text can be cut. -/
theorem applyAll?_annotate {text : String} {target : Span} {before after : List Char}
    (text_eq : text.toList = before ++ after) (place : Text.size before = target.start)
    (comment : String) :
    Edit.applyAll? text [.annotate target comment] =
      some ⟨String.ofList (before ++ (comment ++ " ").toList ++ after), 1, 0⟩ := by
  have cut := Text.cut?_size before after
  rw [place, ← text_eq] at cut
  simp [Edit.applyAll?, Edit.replacement?, Edit.Progress.step?, Replacement.clashes,
    Replacement.perform?, cut]

/-- **What the comment of a rule does** at an offset that the scanner looks at in code, on a line
that is no directive. Every directive behind it moves by its length, no guard changes and what is
code stays code, exactly if no slash of code stands right before the offset. -/
theorem scan_annotate_iff {kind : Ban.Kind} {comment : String}
    (annotates : kind.fixMethod = .annotate comment) {text : String} {target : Span}
    (visited : CodeAt text target.start) :
    ∃ outcome, Edit.applyAll? text [.annotate target comment] = some outcome ∧
      ((scan outcome.text =
          (scan text).map (moveUp target.start (Text.size (comment ++ " ").toList)) ∧
        (∀ offset keyword,
          guards (scan outcome.text)
              (movedOffset target.start (Text.size (comment ++ " ").toList) offset) keyword =
            guards (scan text) offset keyword) ∧
        ∀ offset, CodeAt text offset → CodeAt outcome.text
          (movedOffset target.start (Text.size (comment ++ " ").toList) offset)) ↔
      ¬ SlashBefore text target.start) := by
  have isNote := isNote_of_fixMethod annotates
  obtain ⟨earlier, head, left, ending, later, stands, inLine, text_eq, place⟩ := visited
  set note := (comment ++ " ").toList with note_eq
  have split_eq : text.toList = earlier ++ head ++ (left ++ ending ++ later) := by
    rw [text_eq]
    simp
  refine ⟨_, applyAll?_annotate split_eq place comment, ?_⟩
  set out := String.ofList (earlier ++ head ++ note ++ (left ++ ending ++ later)) with out_def
  have out_eq : out.toList = earlier ++ (head ++ (note ++ left) ++ ending) ++ later := by
    rw [out_def, String.toList_ofList]
    simp
  rw [← place, stands.slashBefore_iff inLine text_eq]
  constructor
  · rintro ⟨-, -, code⟩ slash
    have moved := code _ ⟨earlier, head, left, ending, later, stands, inLine, text_eq, rfl⟩
    rw [movedOffset, if_neg (Nat.lt_irrefl _)] at moved
    exact stands.not_codeAt_of_slash inLine isNote slash out_eq moved
  · intro noSlash
    have scanned : scan out =
        (scan text).map (moveUp (Text.size (earlier ++ head)) (Text.size note)) := by
      rw [scan_eq, scan_eq, out_eq, text_eq]
      exact stands.scanFrom_insert inLine isNote noSlash
    refine ⟨scanned, fun offset keyword => ?_, fun offset code => ?_⟩
    · rw [scanned, guards_map_moveUp]
    · exact code.insert stands inLine isNote noSlash text_eq out_eq

/-- A call right behind a comment. The slash before the call is not one of code. -/
theorem scan_annotate_iff_comment :
    CodeAt "x = /**/y.Any();\n#if A\n" 8 ∧
      ∃ outcome, Edit.applyAll? "x = /**/y.Any();\n#if A\n"
          [.annotate ⟨8, 15⟩ "/* unity-lint: LINQ allocates every frame */"] = some outcome ∧
        scan outcome.text = (scan "x = /**/y.Any();\n#if A\n").map (moveUp 8 45) := by
  have inside : Mode.code.Reaches "x = /**/y.Any();".toList .blockComment "*/y.Any();".toList :=
    .move (by decide) (.move (by decide) (.move (by decide) (.move (by decide) (.move (by decide)
      (.refl _ _)))))
  have behind : Mode.blockComment.Reaches "*/y.Any();".toList .code "y.Any();".toList :=
    .move (by decide) (.refl _ _)
  have stands : Stands .code [] "x = /**/".toList "y.Any();".toList ['\n'] "#if A\n".toList :=
    ⟨⟨by decide, Text.isLine_iff.mpr (by decide), by decide +kernel⟩, by decide,
      inside.trans behind⟩
  have visited : CodeAt "x = /**/y.Any();\n#if A\n" 8 :=
    ⟨_, _, _, _, _, stands, by decide, by decide, by decide⟩
  have noSlash : ¬ SlashBefore "x = /**/y.Any();\n#if A\n" 8 := by
    intro slash
    have slash : Mode.code.Reaches "x = /**/y.Any();".toList .code "/y.Any();".toList :=
      (stands.slashBefore_iff (by decide) (by decide)).mp slash
    rcases inside.total slash with onward | back
    · cases onward with
      | move _ onward => exact absurd onward.length_le (by decide)
    · exact absurd back.length_le (by decide)
  obtain ⟨outcome, applied, same⟩ := @scan_annotate_iff .frameQuery _ rfl _ ⟨8, 15⟩ visited
  exact ⟨visited, outcome, applied, (same.mpr noSlash).1⟩

/-- Behind a division sign the comment is part of a line comment. It hides the string that is opened
behind it, and a line of that string becomes a directive. -/
theorem scan_annotate_division :
    CodeAt "a /b.Any(@\"\n#if X\n\");\n" 3 ∧
      ∃ outcome, Edit.applyAll? "a /b.Any(@\"\n#if X\n\");\n"
          [.annotate ⟨3, 20⟩ "/* unity-lint: LINQ allocates every frame */"] = some outcome ∧
        scan outcome.text ≠ (scan "a /b.Any(@\"\n#if X\n\");\n").map (moveUp 3 45) := by
  have reached : Mode.code.Reaches "a /b.Any(@\"".toList .code "b.Any(@\"".toList :=
    .move (by decide) (.move (by decide) (.move (by decide) (.refl _ _)))
  have stands : Stands .code [] "a /".toList "b.Any(@\"".toList ['\n'] "#if X\n\");\n".toList :=
    ⟨⟨by decide, Text.isLine_iff.mpr (by decide), by decide +kernel⟩, by decide, reached⟩
  have split_eq : "a /b.Any(@\"\n#if X\n\");\n".toList =
      "a /".toList ++ "b.Any(@\"\n#if X\n\");\n".toList := by decide
  exact ⟨⟨_, _, _, _, _, stands, by decide, by decide, by decide⟩, _,
    applyAll?_annotate split_eq (by decide) _, by decide +kernel⟩

end ScriptLint.Directive
