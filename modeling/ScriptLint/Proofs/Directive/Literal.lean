/-
**A literal over several lines hides the directives in it, and nothing behind it.**

* `Mode.Passes` — moves over a piece of text that may hold ends of lines. `Mode.Passes.reaches`
  makes them on one line, `Passing.passes` makes them over the lines of a text.
* `Literal` — block comments, verbatim strings and raw strings, by their texts alone.
  `Literal.passes` says that the scanner passes each of them from code to code.
* `scan_literal` — no directive stands in a literal, the scanner is in code behind it, and the lines
  behind it are scanned as if they were alone.
-/

import ScriptLint.Proofs.Directive.Places

namespace ScriptLint.Directive

/-! ### Moves over several lines -/

/-- Moves of the table over `s`, in front of `left`. The end of a line is read by itself and inside
a literal only. -/
inductive Mode.Passes : Mode → List Char → Mode → List Char → Prop where
  | nil (mode : Mode) (left : List Char) : Passes mode [] mode left
  | cons {mode next target : Mode} {read rest left : List Char}
      (reads : mode.Reads read next (rest ++ left))
      (inLine : '\n' ∈ read → read = ['\n'] ∧ next ≠ .code)
      (onward : Passes next rest target left) : Passes mode (read ++ rest) target left

namespace Mode

variable {mode target : Mode} {s left : List Char}

/-- On one line, moves of the table are what the scanner does. -/
theorem Passes.reaches (passes : mode.Passes s target left) :
    mode.Reaches (s ++ left) target left := by
  induction passes with
  | nil => exact .refl _ _
  | cons reads _ _ ih =>
    rw [List.append_assoc]
    exact reads.reaches.trans ih

end Mode

/-- As `Stands`, but on the line with its end. The scanner has found the directives `found` before
the line. If more text follows, so does more of the line. -/
structure Passing (found : List Directive) (mode : Mode) (earlier head tail later : List Char) :
    Prop extends OnLine earlier (head ++ tail) later where
  found_eq : scanFrom .code 0 earlier = found
  reached : (Mode.code.after earlier).Reaches (head ++ tail) mode tail
  open_of_later : later ≠ [] → tail ≠ []

namespace Passing

variable {found : List Directive} {mode next target : Mode}
  {earlier head tail later read rest s left : List Char}

theorem newline_mem (passing : Passing found mode earlier head tail later) (more : later ≠ []) :
    '\n' ∈ tail := by
  obtain ⟨-, -, ends⟩ := Text.isLine_iff.mp passing.isLine
  have last := ends.resolve_left more
  rw [List.getLast?_append_of_ne_nil head (passing.open_of_later more)] at last
  exact List.mem_of_getLast? last

/-- One move stays on the line. -/
theorem exists_tail (passing : Passing found mode earlier head tail later)
    (inLine : '\n' ∈ read → read = ['\n'] ∧ next ≠ .code) (same : tail ++ later = read ++ rest) :
    ∃ behind, tail = read ++ behind ∧ rest = behind ++ later := by
  rcases List.append_eq_append_iff.mp same with ⟨beyond, rfl, rfl⟩ | ⟨behind, tail_eq, rest_eq⟩
  · by_cases none : beyond = []
    · subst none
      exact ⟨[], by simp, by simp⟩
    · -- What goes over the end of the line holds this end, and more.
      have more : beyond ++ rest ≠ [] := by simp [none]
      have single := (inLine (List.mem_append_left beyond (passing.newline_mem more))).1
      have lengths := congrArg List.length single
      have := List.length_pos_iff.mpr none
      have := List.length_pos_iff.mpr (passing.open_of_later more)
      simp only [List.length_append, List.length_singleton] at lengths
      omega
  · exact ⟨behind, tail_eq, rest_eq⟩

/-- **One move**, from a line to the next if it reads the end of the line. -/
theorem step (passing : Passing found mode earlier head (read ++ tail) later)
    (reads : mode.Reads read next (tail ++ later))
    (inLine : '\n' ∈ read → read = ['\n'] ∧ next ≠ .code) :
    ∃ earlier' head' tail' later', Passing found next earlier' head' tail' later' ∧
      earlier' ++ head' = earlier ++ head ++ read ∧ tail' ++ later' = tail ++ later := by
  have reached := passing.reached.trans reads.restrict.reaches
  by_cases more : later ≠ [] ∧ tail = []
  · obtain ⟨more, rfl⟩ := more
    have inside := (inLine (by simpa using passing.newline_mem more)).2
    have advanced := reached.advance_eq
    rw [Mode.advance] at advanced
    obtain ⟨following, rest, rfl, onLine, after_eq, found_eq⟩ :=
      passing.toOnLine.next more (advanced ▸ inside)
    refine ⟨_, [], following, rest, ⟨onLine, found_eq.trans passing.found_eq, ?_, fun _ => ?_⟩,
      by simp, by simp⟩
    · rw [after_eq, advanced]
      exact .refl _ _
    · exact (Text.isLine_iff.mp onLine.isLine).1
  · push Not at more
    have onLine := passing.toOnLine
    rw [← List.append_assoc] at onLine reached
    exact ⟨earlier, head ++ read, tail, later, ⟨onLine, passing.found_eq, reached, more⟩, by simp,
      rfl⟩

/-- **Many moves**, over as many lines as they take. -/
theorem passes (passing : Passing found mode earlier head tail later)
    (same : tail ++ later = s ++ left) (passes : mode.Passes s target left) :
    ∃ earlier' head' tail' later', Passing found target earlier' head' tail' later' ∧
      earlier' ++ head' = earlier ++ head ++ s ∧ tail' ++ later' = left := by
  induction passes generalizing earlier head tail later with
  | nil => exact ⟨earlier, head, tail, later, passing, by simp, same⟩
  | @cons mode next target read rest left reads inLine _ ih =>
    rw [List.append_assoc] at same
    obtain ⟨behind, rfl, rest_eq⟩ := passing.exists_tail inLine same
    rw [rest_eq] at reads
    obtain ⟨earlier₁, head₁, tail₁, later₁, passing₁, before_eq, after_eq⟩ :=
      passing.step reads inLine
    obtain ⟨earlier₂, head₂, tail₂, later₂, passing₂, before_eq₂, after_eq₂⟩ :=
      ih passing₁ (after_eq.trans rest_eq.symm)
    exact ⟨earlier₂, head₂, tail₂, later₂, passing₂,
      by rw [before_eq₂, before_eq, List.append_assoc], after_eq₂⟩

/-- The line goes up to the first newline. -/
theorem tail_eq (passing : Passing found mode earlier head tail later) (inLine : '\n' ∉ rest)
    (same : tail ++ later = rest ++ ['\n'] ++ left) : tail = rest ++ ['\n'] ∧ later = left := by
  obtain ⟨-, inside, -⟩ := Text.isLine_iff.mp passing.isLine
  rcases List.append_eq_append_iff.mp same with ⟨beyond, tail_eq, rfl⟩ | ⟨beyond, rfl, rfl⟩
  · rcases List.eq_nil_or_concat beyond with rfl | ⟨front, last, rfl⟩
    · exact ⟨by simpa using tail_eq.symm, rfl⟩
    · -- The line would end before the first newline.
      have newline := passing.newline_mem (by simp)
      rw [List.concat_eq_append, ← List.append_assoc] at tail_eq
      obtain ⟨rest_eq, -⟩ := List.append_inj' tail_eq rfl
      rw [rest_eq] at inLine
      exact (inLine (List.mem_append_left _ newline)).elim
  · rcases List.eq_nil_or_concat beyond with rfl | ⟨front, last, rfl⟩
    · exact ⟨by simp, by simp⟩
    · -- The line would go on behind it.
      rw [List.concat_eq_append, ← List.append_assoc, ← List.append_assoc, List.dropLast_concat]
        at inside
      simp at inside

/-- The directives before the line, and those behind it. -/
theorem scanFrom_eq (passing : Passing found mode earlier head tail later) :
    scanFrom .code 0 (earlier ++ head ++ (tail ++ later)) =
      found ++ scanFrom (mode.advance tail) (Text.size (earlier ++ head ++ tail)) later := by
  have directives := passing.toOnLine.scanFrom_eq
  rw [passing.found_eq, passing.reached.advance_eq] at directives
  simpa using directives

/-- Behind a character of a line, the end of the line can be taken away again. -/
theorem stands (passing : Passing found mode earlier head tail later) {c : Char}
    (last : (earlier ++ head).getLast? = some c) (inside : isLineEnd c = false) :
    ∃ left ending, tail = left ++ ending ∧ Stands mode earlier head left ending later := by
  have last : head.getLast? = some c := by
    rcases passing.whole with rfl | newline
    · simpa using last
    · by_cases none : head = []
      · rw [none, List.append_nil, newline, Option.some.injEq] at last
        subst last
        cases inside
      · rwa [List.getLast?_append_of_ne_nil _ none] at last
  obtain ⟨ending, line_eq, ends⟩ := exists_ending (head ++ tail)
  have absent : c ∉ ending := fun member => by
    rw [ends c member] at inside
    cases inside
  obtain ⟨left, body_eq, rfl⟩ := Text.exists_append_of_getLast? line_eq last absent
  have onLine := passing.toOnLine
  obtain ⟨read, same, reached⟩ := passing.reached.restrict
  obtain rfl := List.append_cancel_right same
  rw [← List.append_assoc] at onLine body_eq
  exact ⟨left, ending, rfl, onLine, body_eq, reached⟩

end Passing

namespace Stands

variable {mode : Mode} {earlier head left ending later : List Char}

/-- A place of a line before its end. -/
theorem passing (stands : Stands mode earlier head left ending later) (inLine : left ≠ []) :
    Passing (scanFrom .code 0 earlier) mode earlier head (left ++ ending) later := by
  have onLine := stands.toOnLine
  have reached := stands.reached.ending stands.ends inLine
  rw [List.append_assoc] at onLine reached
  exact ⟨onLine, rfl, reached, fun _ => by simp [inLine]⟩

end Stands

/-! ### Literals over several lines -/

/-- What stands between the quotes of a verbatim string: a quote is written twice. -/
inductive VerbatimBody : List Char → Prop where
  | nil : VerbatimBody []
  | doubled {s : List Char} : VerbatimBody s → VerbatimBody ('"' :: '"' :: s)
  | plain {c : Char} {s : List Char} : c ≠ '"' → VerbatimBody s → VerbatimBody (c :: s)

/-- What stands between the fences of a raw string. It is not empty: two fences without anything
between them are one longer fence. -/
structure RawBody (quotes : Nat) (body : List Char) : Prop where
  starts : ∃ c, body.head? = some c ∧ c ≠ '"'
  ends : ∃ c, body.getLast? = some c ∧ c ≠ '"'
  short : ¬ List.replicate quotes '"' <:+: body

/-- One whole literal that may run over several lines, given what follows it. -/
inductive Literal : List Char → List Char → Prop where
  /-- A block comment. -/
  | comment {body : List Char} (noEnd : ¬ ['*', '/'] <:+: body) (after : List Char) :
      Literal (['/', '*'] ++ body ++ ['*', '/']) after
  /-- A verbatim string, interpolated or not. -/
  | verbatim {opener body after : List Char} (opens : opener ∈ verbatimOpeners)
      (verbatim : VerbatimBody body) (closes : after.head? ≠ some '"') :
      Literal (opener ++ body ++ ['"']) after
  /-- A raw string, interpolated or not. -/
  | raw {dollar body : List Char} {quotes : Nat} (interpolated : dollar = [] ∨ dollar = ['$'])
      (three : 3 ≤ quotes) (raw : RawBody quotes body) (after : List Char) :
      Literal (dollar ++ List.replicate quotes '"' ++ body ++ List.replicate quotes '"') after

namespace Mode

variable {mode next target : Mode} {read s body left : List Char}

theorem Reads.passes (reads : mode.Reads read next left)
    (inLine : '\n' ∈ read → read = ['\n'] ∧ next ≠ .code) : mode.Passes read next left := by
  rw [← List.append_nil read]
  exact .cons reads inLine (.nil _ _)

/-- A character inside a literal, be it an end of line. -/
theorem Passes.inside {c : Char} (literal : mode ≠ .code) (reads : mode.Reads [c] mode (s ++ left))
    (onward : mode.Passes s target left) : mode.Passes (c :: s) target left := by
  refine .cons reads (fun newline => ⟨?_, literal⟩) onward
  rw [List.mem_singleton.mp newline]

theorem passes_comment (noEnd : ¬ ['*', '/'] <:+: body) (left : List Char) :
    Mode.blockComment.Passes (body ++ ['*', '/']) .code left := by
  induction body with
  | nil => exact Reads.passes ⟨_, .commentClose, by simp⟩ (by decide)
  | cons c rest ih =>
    rw [List.cons_append]
    refine .inside (by decide) ⟨_, .commentInside c, ?_⟩
      (ih fun inside => noEnd (List.infix_cons inside))
    simp only [List.mem_singleton, forall_eq]
    intro closes
    cases rest with
    | nil => simp at closes
    | cons d more =>
      simp only [List.cons_append, List.nil_append, List.cons_prefix_cons] at closes
      obtain ⟨rfl, rfl, -⟩ := closes
      exact noEnd ⟨[], more, rfl⟩

theorem passes_verbatim (verbatim : VerbatimBody body) (closes : left.head? ≠ some '"') :
    Mode.verbatim.Passes (body ++ ['"']) .code left := by
  induction verbatim with
  | nil =>
    refine Reads.passes ⟨_, .verbatimClose, ?_⟩ (by decide)
    simp only [List.mem_singleton, forall_eq, List.cons_append, List.nil_append,
      List.cons_prefix_cons, true_and]
    rintro ⟨more, rfl⟩
    exact closes rfl
  | @doubled s _ ih =>
    show Mode.verbatim.Passes (['"', '"'] ++ (s ++ ['"'])) .code left
    exact .cons ⟨_, .verbatimDoubled, by simp⟩ (by decide) ih
  | @plain c s other _ ih =>
    exact .inside (by decide) ⟨_, .verbatimInside c, by simpa using Ne.symm other⟩ ih

theorem passes_raw {quotes : Nat} (three : 3 ≤ quotes)
    (ends : ∀ c, body.getLast? = some c → c ≠ '"')
    (short : ¬ List.replicate quotes '"' <:+: body) (left : List Char) :
    (Mode.raw quotes).Passes (body ++ List.replicate quotes '"') .code left := by
  induction body with
  | nil =>
    rw [List.nil_append, ← fence_eq (by omega)]
    refine Reads.passes ⟨_, .rawClose quotes, by simp⟩ fun newline => ?_
    simp [fence] at newline
  | cons c rest ih =>
    rw [List.cons_append]
    refine .inside (by simp) ⟨_, .rawInside quotes c, ?_⟩
      (ih (fun d last => ends d (by rw [List.getLast?_cons, last]; rfl))
        fun inside => short (List.infix_cons inside))
    simp only [List.mem_singleton, forall_eq]
    intro closes
    -- The last character of the body is no quote, so a fence would stand in the body before it.
    obtain ⟨front, last, body_eq⟩ :=
      (List.eq_nil_or_concat (c :: rest)).resolve_left (List.cons_ne_nil _ _)
    rw [List.concat_eq_append] at body_eq
    have noQuote : last ≠ '"' := ends last (by rw [body_eq]; simp)
    have text_eq : [c] ++ (rest ++ List.replicate quotes '"' ++ left) =
        front ++ last :: (List.replicate quotes '"' ++ left) := by
      calc [c] ++ (rest ++ List.replicate quotes '"' ++ left)
          = c :: rest ++ (List.replicate quotes '"' ++ left) := by simp
        _ = _ := by rw [body_eq]; simp
    rw [text_eq, fence_eq (by omega)] at closes
    have inFront := Text.prefix_of_prefix_append closes fun x first member => by
      rw [List.head?_cons, Option.some.injEq] at first
      exact noQuote (first.trans (List.eq_of_mem_replicate member))
    refine short ?_
    rw [body_eq]
    exact inFront.isInfix.trans (List.prefix_append _ _).isInfix

/-- The opening fence of a raw string. -/
theorem reads_fence {quotes : Nat} (three : 3 ≤ quotes) (ends : ¬ ['"'] <+: left) :
    Mode.code.Reads (List.replicate quotes '"') (.raw quotes) left := by
  obtain ⟨more, rfl⟩ := Nat.exists_eq_add_of_le three
  have fence_eq : List.replicate (3 + more) '"' = '"' :: '"' :: '"' :: List.replicate more '"' := by
    rw [Nat.add_comm]
    rfl
  rw [fence_eq]
  refine ⟨_, .openRaw more, ?_⟩
  simpa only [List.mem_singleton, forall_eq, List.prefix_append_right_inj] using ends

/-- Two fences with nothing between them are one longer fence: no raw string is empty. -/
theorem advance_fences {quotes : Nat} (three : 3 ≤ quotes) :
    Mode.code.advance (List.replicate quotes '"' ++ List.replicate quotes '"') =
      .raw (quotes + quotes) := by
  have opening : Mode.code.Reads (List.replicate (quotes + quotes) '"') (.raw (quotes + quotes))
      [] := reads_fence (by omega) (by simp)
  have advanced := opening.advance_eq
  rwa [List.append_nil, Mode.advance, ← List.replicate_append_replicate] at advanced

/-- The mark of an interpolated raw string. -/
theorem reads_dollar {quotes : Nat} (three : 3 ≤ quotes) (s left : List Char) :
    Mode.code.Reads ['$'] .code (List.replicate quotes '"' ++ s ++ left) := by
  obtain ⟨more, rfl⟩ := Nat.exists_eq_add_of_le' three
  exact ⟨_, .alone '$', by simp [codeOpeners, verbatimOpeners, List.replicate_succ]⟩

end Mode

namespace RawBody

variable {quotes : Nat} {body : List Char}

theorem noQuote_append (raw : RawBody quotes body) (s : List Char) : ¬ ['"'] <+: body ++ s := by
  obtain ⟨first, starts, noQuote⟩ := raw.starts
  obtain ⟨rest, rfl⟩ := List.head?_eq_some_iff.mp starts
  simpa using noQuote.symm

theorem noQuote_getLast (raw : RawBody quotes body) :
    ∀ c, body.getLast? = some c → c ≠ '"' := by
  obtain ⟨last, ends, noQuote⟩ := raw.ends
  intro c found
  rw [ends, Option.some.injEq] at found
  exact found ▸ noQuote

end RawBody

/-- **The scanner passes a literal** from code to code. -/
theorem Literal.passes {literal after : List Char} (isLiteral : Literal literal after) :
    Mode.code.Passes literal .code after := by
  cases isLiteral with
  | @comment body noEnd =>
    have opening : Mode.code.Reads ['/', '*'] .blockComment (body ++ ['*', '/'] ++ after) :=
      ⟨_, .openComment, by simp⟩
    rw [List.append_assoc]
    exact .cons opening (by decide) (Mode.passes_comment noEnd after)
  | @verbatim opener body _ opens verbatim closes =>
    have opening : Mode.code.Reads opener .verbatim (body ++ ['"'] ++ after) :=
      ⟨_, .openVerbatim opens, by simp⟩
    have inLine : ∀ opener ∈ verbatimOpeners, '\n' ∉ opener := by decide
    rw [List.append_assoc]
    exact .cons opening (fun newline => (inLine opener opens newline).elim)
      (Mode.passes_verbatim verbatim closes)
  | @raw dollar body quotes interpolated three raw =>
    have fenced : Mode.code.Passes
        (List.replicate quotes '"' ++ (body ++ List.replicate quotes '"')) .code after := by
      have opening :=
        Mode.reads_fence three (raw.noQuote_append (List.replicate quotes '"' ++ after))
      rw [← List.append_assoc] at opening
      exact .cons opening (fun newline => by simp at newline)
        (Mode.passes_raw three raw.noQuote_getLast raw.short after)
    rw [List.append_assoc, List.append_assoc]
    rcases interpolated with rfl | rfl
    · exact fenced
    · exact .cons (Mode.reads_dollar three _ after) (by decide) fenced

theorem Literal.edges {literal after : List Char} (isLiteral : Literal literal after) :
    (∃ c, literal.head? = some c ∧ isLineEnd c = false) ∧
      ∃ c, literal.getLast? = some c ∧ isLineEnd c = false := by
  cases isLiteral with
  | comment noEnd =>
    refine ⟨⟨'/', by simp, rfl⟩, '/', ?_, rfl⟩
    rw [List.getLast?_append_of_ne_nil _ (by simp)]
    rfl
  | verbatim opens verbatim closes =>
    refine ⟨?_, '"', by simp, rfl⟩
    simp only [verbatimOpeners, List.mem_cons, List.not_mem_nil, or_false] at opens
    rcases opens with rfl | rfl | rfl | rfl | rfl <;> exact ⟨_, rfl, rfl⟩
  | @raw dollar body quotes interpolated three raw =>
    obtain ⟨more, rfl⟩ := Nat.exists_eq_add_of_le' three
    refine ⟨?_, '"', by simp [List.getLast?_replicate], rfl⟩
    rcases interpolated with rfl | rfl <;> exact ⟨_, rfl, rfl⟩

/-- **A literal over several lines.** Where the scanner comes in code, on a line that is no
directive, to a literal, no directive stands in the literal; the scanner comes in code to the end of
the literal; and if it is in code at the end of that line too, the lines behind are scanned as if
they were alone. -/
theorem scan_literal {before literal after : String}
    (isLiteral : Literal literal.toList after.toList)
    (stands : Mode.code.StandsAt before.toList (literal ++ after).toList) :
    (∀ directive ∈ scan (before ++ literal ++ after),
      ¬ (Text.size before.toList ≤ directive.position ∧
        directive.position < Text.size (before ++ literal).toList)) ∧
    Mode.code.StandsAt (before ++ literal).toList after.toList ∧
    ∀ rest following : String, after = rest ++ "\n" ++ following → '\n' ∉ rest.toList →
      Mode.code.advance rest.toList = .code →
      ∃ found, (∀ directive ∈ found, directive.position < Text.size before.toList) ∧
        scan (before ++ literal ++ after) = found ++
          (scan following).map (shift (Text.size (before ++ literal ++ rest ++ "\n").toList)) := by
  obtain ⟨earlier, head, left, ending, later, stands, before_eq, after_eq⟩ := stands
  obtain ⟨⟨first, starts, inside⟩, last, ends, insideLast⟩ := isLiteral.edges
  rw [String.toList_append] at after_eq
  have inLine : left ≠ [] := by
    refine stands.left_ne_nil ?_ inside
    rw [← after_eq, List.head?_append, starts]
    rfl
  obtain ⟨earlier', head', tail, later', passing, before_eq', after_eq'⟩ :=
    (stands.passing inLine).passes after_eq.symm isLiteral.passes
  rw [← before_eq] at before_eq'
  have early : ∀ directive ∈ scanFrom .code 0 earlier,
      directive.position < Text.size before.toList := fun directive member => by
    have := scanFrom_bounds member
    rw [before_eq, Text.size_append]
    omega
  have directives := passing.scanFrom_eq
  rw [before_eq', after_eq', ← String.toList_append, ← String.toList_append, ← scan_eq]
    at directives
  rw [← String.toList_append] at before_eq'
  refine ⟨fun directive member within => ?_, ?_, fun rest following same inLine code => ?_⟩
  · rw [directives] at member
    rcases List.mem_append.mp member with found | behind
    · have := early directive found
      omega
    · have := scanFrom_bounds behind
      rw [Text.size_append] at this
      omega
  · have last : (earlier' ++ head').getLast? = some last := by
      rw [before_eq', String.toList_append, List.getLast?_append, ends]
      rfl
    obtain ⟨left', ending', rfl, stands'⟩ := passing.stands last insideLast
    exact ⟨earlier', head', left', ending', later', stands', before_eq'.symm, after_eq'.symm⟩
  · rw [same, String.toList_append, String.toList_append] at after_eq'
    obtain ⟨rfl, rfl⟩ := passing.tail_eq inLine after_eq'
    have place : (before ++ literal).toList ++ (rest.toList ++ ['\n']) =
        (before ++ literal ++ rest ++ "\n").toList := by simp
    refine ⟨_, early, ?_⟩
    rw [directives, place, Mode.advance_ending (by simp [isLineEnd]), code, scan_eq following,
      ← scanFrom_eq_map_shift]

/-- A raw string whose lines read like directives and like the ends of other literals. -/
theorem scan_literal_raw :
    Literal "$\"\"\"\n#else\n\"\" */\n\"\"\"".toList ");\n#endif\n".toList ∧
      Mode.code.StandsAt "#if A\n  F(".toList
        ("$\"\"\"\n#else\n\"\" */\n\"\"\"" ++ ");\n#endif\n").toList ∧
      ∃ found, (∀ directive ∈ found, directive.position < Text.size "#if A\n  F(".toList) ∧
        scan ("#if A\n  F(" ++ "$\"\"\"\n#else\n\"\" */\n\"\"\"" ++ ");\n#endif\n") =
          found ++ (scan "#endif\n").map (shift (Text.size
            ("#if A\n  F(" ++ "$\"\"\"\n#else\n\"\" */\n\"\"\"" ++ ");" ++ "\n").toList)) := by
  have raw : RawBody 3 "\n#else\n\"\" */\n".toList :=
    ⟨⟨'\n', by decide, by decide⟩, ⟨'\n', by decide, by decide⟩, by decide +kernel⟩
  have isLiteral : Literal "$\"\"\"\n#else\n\"\" */\n\"\"\"".toList ");\n#endif\n".toList :=
    .raw (.inr rfl) (by decide) raw _
  have stands : Mode.code.StandsAt "#if A\n  F(".toList
      ("$\"\"\"\n#else\n\"\" */\n\"\"\"" ++ ");\n#endif\n").toList := by
    have start : Mode.code.after "#if A\n".toList = .code := by decide +kernel
    refine ⟨"#if A\n".toList, "  F(".toList, "$\"\"\"".toList, ['\n'],
      "#else\n\"\" */\n\"\"\");\n#endif\n".toList,
      ⟨⟨by decide, Text.isLine_iff.mpr (by decide), by decide +kernel⟩, by decide, ?_⟩, rfl,
      by decide⟩
    rw [start]
    exact .move (by decide) (.move (by decide) (.move (by decide) (.move (by decide) (.refl _ _))))
  obtain ⟨-, -, behind⟩ := scan_literal isLiteral stands
  exact ⟨isLiteral, stands, behind ");" "#endif\n" rfl (by decide) (by decide +kernel)⟩

end ScriptLint.Directive
