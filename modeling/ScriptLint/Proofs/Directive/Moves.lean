/-
**What the scanner can do in one move, and in several.**

* `Quoted`, `Unclosed` — what follows the opening quote of a literal on one line, with or without a
  closing quote.
* `Move` — the moves of the scanner as a table, with what each one reads and what must not stand
  where it is made. `Mode.Reads.step_eq` says that the scanner makes these moves,
  `Mode.reads_or_skips` that it makes no others but those to the end of the line.
* `Mode.advance_ending` — an end of line changes no mode.
* `Mode.Reaches` — several moves inside a line, none of which skips a line comment.
  `Mode.Reaches.reads_induction` takes them as moves of the table.
* `Mode.Reaches.advance_eq` — the mode at the end of a line can be told from any place reached.
-/

import ScriptLint.Proofs.Directive.Lines

namespace ScriptLint.Directive

/-! ### Literals on one line -/

/-- What follows the opening quote of a literal, up to the closing quote. -/
inductive Quoted (quote : Char) : List Char → Prop where
  | close : Quoted quote [quote]
  | escaped (c : Char) {s : List Char} : Quoted quote s → Quoted quote ('\\' :: c :: s)
  | plain {c : Char} {s : List Char} :
      c ≠ quote → c ≠ '\\' → Quoted quote s → Quoted quote (c :: s)

/-- What follows the opening quote of a literal that is not closed. -/
inductive Unclosed (quote : Char) : List Char → Prop where
  | nil : Unclosed quote []
  | backslash : Unclosed quote ['\\']
  | escaped (c : Char) {s : List Char} : Unclosed quote s → Unclosed quote ('\\' :: c :: s)
  | plain {c : Char} {s : List Char} :
      c ≠ quote → c ≠ '\\' → Unclosed quote s → Unclosed quote (c :: s)

theorem afterQuoted_plain {quote c : Char} {s : List Char} (different : c ≠ quote)
    (noEscape : c ≠ '\\') : afterQuoted quote (c :: s) = afterQuoted quote s := by
  rw [afterQuoted, if_neg different]
  intro _ _ escape
  exact absurd escape noEscape

theorem afterQuoted_close {quote : Char} {s : List Char} (noEscape : quote ≠ '\\') :
    afterQuoted quote (quote :: s) = s := by
  rw [afterQuoted, if_pos rfl]
  intro _ _ escape
  exact absurd escape noEscape

theorem Quoted.afterQuoted_append {quote : Char} {body : List Char} (quoted : Quoted quote body)
    (noEscape : quote ≠ '\\') (left : List Char) : afterQuoted quote (body ++ left) = left := by
  induction quoted with
  | close => exact afterQuoted_close noEscape
  | escaped c _ ih =>
    rw [List.cons_append, List.cons_append, afterQuoted]
    exact ih
  | plain different plain _ ih =>
    rw [List.cons_append, afterQuoted_plain different plain]
    exact ih

theorem Unclosed.afterQuoted_eq {quote : Char} {s : List Char} (unclosed : Unclosed quote s)
    (noEscape : quote ≠ '\\') : afterQuoted quote s = [] := by
  induction unclosed with
  | nil => rfl
  | backslash =>
    rw [afterQuoted, if_neg noEscape.symm, afterQuoted]
    simp
  | escaped c _ ih =>
    rw [afterQuoted]
    exact ih
  | plain different plain _ ih =>
    rw [afterQuoted_plain different plain]
    exact ih

/-- A literal is closed or not. -/
theorem quoted_or_unclosed (quote : Char) (s : List Char) :
    (∃ body left, s = body ++ left ∧ Quoted quote body) ∨ Unclosed quote s := by
  fun_induction afterQuoted quote s with
  | case1 => exact .inr .nil
  | case2 c rest ih =>
    rcases ih with ⟨body, left, rfl, quoted⟩ | unclosed
    · exact .inl ⟨'\\' :: c :: body, left, rfl, .escaped c quoted⟩
    · exact .inr (.escaped c unclosed)
  | case3 rest noEscape => exact .inl ⟨[quote], rest, rfl, .close⟩
  | case4 c rest noEscape different ih =>
    by_cases backslash : c = '\\'
    · subst backslash
      cases rest with
      | nil => exact .inr .backslash
      | cons d more => exact (noEscape d more rfl rfl).elim
    · rcases ih with ⟨body, left, rfl, quoted⟩ | unclosed
      · exact .inl ⟨c :: body, left, rfl, .plain different backslash quoted⟩
      · exact .inr (.plain different backslash unclosed)

/-! ### The moves, as a table -/

/-- The quotes that close a raw string opened by that many. -/
def fence (quotes : Nat) : List Char :=
  '"' :: List.replicate (quotes - 1) '"'

theorem fence_eq {quotes : Nat} (closes : 0 < quotes) :
    fence quotes = List.replicate quotes '"' := by
  rw [fence, ← List.replicate_succ, Nat.sub_add_cancel closes]

/-- What opens a verbatim string. -/
def verbatimOpeners : List (List Char) :=
  [['@', '"'], ['@', '@', '"'], ['@', '$', '"'], ['$', '@', '"'], ['$', '$', '"']]

/-- What code does not read as one character. -/
def codeOpeners : List (List Char) :=
  ['/', '/'] :: ['/', '*'] :: ['"'] :: ['\''] :: verbatimOpeners

/-- The moves of the scanner that stay before the end of the line: the mode, what is read, the mode
after that, and what must not stand where the move is made. -/
inductive Move : Mode → List Char → Mode → List (List Char) → Prop where
  | commentClose : Move .blockComment ['*', '/'] .code []
  | commentInside (c : Char) : Move .blockComment [c] .blockComment [['*', '/']]
  | verbatimDoubled : Move .verbatim ['"', '"'] .verbatim []
  | verbatimClose : Move .verbatim ['"'] .code [['"', '"']]
  | verbatimInside (c : Char) : Move .verbatim [c] .verbatim [['"']]
  | rawClose (quotes : Nat) : Move (.raw quotes) (fence quotes) .code []
  | rawInside (quotes : Nat) (c : Char) : Move (.raw quotes) [c] (.raw quotes) [fence quotes]
  | openComment : Move .code ['/', '*'] .blockComment []
  | openVerbatim {opener : List Char} (opens : opener ∈ verbatimOpeners) :
      Move .code opener .verbatim []
  | openRaw (more : Nat) :
      Move .code ('"' :: '"' :: '"' :: List.replicate more '"') (.raw (3 + more))
        ['"' :: '"' :: '"' :: List.replicate more '"' ++ ['"']]
  | quoted {quote : Char} {body : List Char} (isQuote : quote = '"' ∨ quote = '\'')
      (closed : Quoted quote body) : Move .code (quote :: body) .code [['"', '"', '"']]
  | alone (c : Char) : Move .code [c] .code codeOpeners

/-- In front of `left`, the scanner reads `read` in one move. -/
def Mode.Reads (mode : Mode) (read : List Char) (next : Mode) (left : List Char) : Prop :=
  ∃ barred, Move mode read next barred ∧ ∀ piece ∈ barred, ¬ piece <+: read ++ left

/-- A place in code from which the scanner goes to the end of the line. -/
inductive Skips : List Char → Prop where
  | lineComment (s : List Char) : Skips ('/' :: '/' :: s)
  | unclosed {quote : Char} {s : List Char} (isQuote : quote = '"' ∨ quote = '\'')
      (unclosed : Unclosed quote s) : Skips (quote :: s)

/-- A quote in code, unless three of them open a raw string. -/
theorem Mode.step_quote {quote : Char} {rest : List Char} (isQuote : quote = '"' ∨ quote = '\'')
    (noRaw : ¬ ['"', '"', '"'] <+: quote :: rest) :
    Mode.code.step quote rest = (.code, afterQuoted quote rest) := by
  rcases isQuote with rfl | rfl
  · unfold Mode.step
    dsimp only
    split <;> simp_all
  · rfl

theorem Unclosed.noRaw {quote : Char} {s : List Char} (unclosed : Unclosed quote s) :
    ¬ ['"', '"', '"'] <+: quote :: s := by
  rintro ⟨after, opens⟩
  simp only [List.cons_append, List.cons.injEq] at opens
  obtain ⟨rfl, rfl⟩ := opens
  cases unclosed with
  | plain different _ _ => exact different rfl

theorem Skips.step_eq {c : Char} {rest : List Char} (skips : Skips (c :: rest)) :
    Mode.code.step c rest = (.code, []) := by
  cases skips with
  | lineComment => rfl
  | unclosed isQuote unclosed =>
    have noEscape : c ≠ '\\' := by rcases isQuote with rfl | rfl <;> decide
    rw [Mode.step_quote isQuote unclosed.noRaw, unclosed.afterQuoted_eq noEscape]

/-- The quotes of a fence, and what follows them. -/
theorem takeWhile_fence {left : List Char} (ends : ¬ ['"'] <+: left) (more : Nat) :
    List.takeWhile (· == '"') (List.replicate more '"' ++ left) = List.replicate more '"' ∧
      List.dropWhile (· == '"') (List.replicate more '"' ++ left) = left := by
  have quotes : ∀ c ∈ List.replicate more '"', (c == '"') = true := by simp
  rw [List.takeWhile_append_of_pos quotes, List.dropWhile_append_of_pos quotes]
  cases left with
  | nil => simp
  | cons c rest =>
    have other : c ≠ '"' := by
      rintro rfl
      exact ends (by simp)
    simp [other]

/-- The table says what the scanner does. -/
theorem Mode.Reads.step_eq {mode next : Mode} {c : Char} {read left : List Char}
    (reads : mode.Reads (c :: read) next left) : mode.step c (read ++ left) = (next, left) := by
  obtain ⟨barred, move, free⟩ := reads
  cases move with
  | commentClose => rfl
  | commentInside =>
    simp only [List.mem_singleton, forall_eq, List.cons_append, List.nil_append] at free ⊢
    unfold Mode.step
    dsimp only
    split
    · exact (free (by simp)).elim
    · rfl
  | verbatimDoubled => rfl
  | verbatimClose =>
    simp only [List.mem_singleton, forall_eq, List.cons_append, List.nil_append] at free ⊢
    unfold Mode.step
    dsimp only
    split <;> simp_all
  | verbatimInside =>
    simp only [List.mem_singleton, forall_eq, List.cons_append, List.nil_append] at free ⊢
    unfold Mode.step
    dsimp only
    split <;> simp_all
  | rawClose quotes =>
    rw [Mode.step, Text.isPrefixOf?_append]
    rfl
  | rawInside quotes =>
    simp only [List.mem_singleton, forall_eq, List.cons_append, List.nil_append] at free ⊢
    rw [Mode.step]
    split
    · rename_i after found
      rw [if_neg]
      rintro rfl
      exact free ⟨after, by rw [fence, List.cons_append, List.append_eq_of_isPrefixOf?_eq_some found]⟩
    · rfl
  | openComment => rfl
  | openVerbatim opens =>
    simp only [verbatimOpeners, List.mem_cons, List.cons.injEq, List.not_mem_nil, or_false] at opens
    obtain ⟨rfl, rfl⟩ | ⟨rfl, rfl⟩ | ⟨rfl, rfl⟩ | ⟨rfl, rfl⟩ | ⟨rfl, rfl⟩ := opens <;> rfl
  | openRaw more =>
    simp only [List.mem_singleton, forall_eq, List.prefix_append_right_inj] at free
    obtain ⟨quotes, rest⟩ := takeWhile_fence free more
    show (Mode.raw (3 + (List.takeWhile (· == '"') (List.replicate more '"' ++ left)).length),
      List.dropWhile (· == '"') (List.replicate more '"' ++ left)) = _
    rw [quotes, rest, List.length_replicate]
  | quoted isQuote closed =>
    simp only [List.mem_singleton, forall_eq, List.cons_append] at free
    have noEscape : c ≠ '\\' := by rcases isQuote with rfl | rfl <;> decide
    rw [Mode.step_quote isQuote free, closed.afterQuoted_append noEscape]
  | alone =>
    simp only [codeOpeners, verbatimOpeners, List.forall_mem_cons, List.cons_append,
      List.nil_append] at free ⊢
    unfold Mode.step
    dsimp only
    split <;> simp_all

theorem replicate_takeWhile_quote (s : List Char) :
    List.replicate (s.takeWhile (· == '"')).length '"' = s.takeWhile (· == '"') := by
  refine (List.eq_replicate_length.mpr fun c member => ?_).symm
  simpa using List.all_eq_true.mp List.all_takeWhile c member

theorem Mode.reads_raw (after : List Char) :
    ∃ read next left, ['"', '"', '"'] ++ after = read ++ left ∧ Mode.code.Reads read next left := by
  refine ⟨_, _, after.dropWhile (· == '"'), ?_, _,
    .openRaw (after.takeWhile (· == '"')).length, ?_⟩
  · rw [replicate_takeWhile_quote]
    simp [List.takeWhile_append_dropWhile]
  · simp only [List.mem_singleton, forall_eq, List.prefix_append_right_inj]
    rintro ⟨more, same⟩
    have stays := List.head?_dropWhile_not (· == '"') after
    rw [← same] at stays
    simp at stays

/-- The table is complete, but for the moves that go to the end of the line. -/
theorem Mode.reads_or_skips (mode : Mode) {s : List Char} (nonempty : s ≠ []) :
    (∃ read next left, s = read ++ left ∧ mode.Reads read next left) ∨
      mode = .code ∧ Skips s := by
  obtain ⟨c, rest, rfl⟩ := List.exists_cons_of_ne_nil nonempty
  -- Each mode first looks for what it does not read as one character.
  cases mode with
  | blockComment =>
    left
    by_cases closes : ['*', '/'] <+: c :: rest
    · obtain ⟨left, same⟩ := closes
      exact ⟨_, _, left, same.symm, _, .commentClose, by simp⟩
    · exact ⟨[c], _, rest, rfl, _, .commentInside c, by simpa using closes⟩
  | verbatim =>
    left
    by_cases doubled : ['"', '"'] <+: c :: rest
    · obtain ⟨left, same⟩ := doubled
      exact ⟨_, _, left, same.symm, _, .verbatimDoubled, by simp⟩
    · by_cases closes : c = '"'
      · subst closes
        exact ⟨['"'], _, rest, rfl, _, .verbatimClose, by simpa using doubled⟩
      · exact ⟨[c], _, rest, rfl, _, .verbatimInside c, by simpa using Ne.symm closes⟩
  | raw quotes =>
    left
    by_cases closes : fence quotes <+: c :: rest
    · obtain ⟨left, same⟩ := closes
      exact ⟨_, _, left, same.symm, _, .rawClose quotes, by simp⟩
    · exact ⟨[c], _, rest, rfl, _, .rawInside quotes c, by simpa using closes⟩
  | code =>
    by_cases comment : ['/', '/'] <+: c :: rest
    · obtain ⟨left, same⟩ := comment
      exact .inr ⟨rfl, same ▸ .lineComment left⟩
    by_cases block : ['/', '*'] <+: c :: rest
    · obtain ⟨left, same⟩ := block
      exact .inl ⟨_, _, left, same.symm, _, .openComment, by simp⟩
    by_cases verbatim : ∃ opener ∈ verbatimOpeners, opener <+: c :: rest
    · obtain ⟨opener, opens, left, same⟩ := verbatim
      exact .inl ⟨_, _, left, same.symm, _, .openVerbatim opens, by simp⟩
    by_cases raw : ['"', '"', '"'] <+: c :: rest
    · obtain ⟨after, same⟩ := raw
      exact .inl (same ▸ reads_raw after)
    by_cases isQuote : c = '"' ∨ c = '\''
    · rcases quoted_or_unclosed c rest with ⟨body, left, rfl, closed⟩ | unclosed
      · exact .inl ⟨c :: body, _, left, rfl, _, .quoted isQuote closed, by simpa using raw⟩
      · exact .inr ⟨rfl, .unclosed isQuote unclosed⟩
    · refine .inl ⟨[c], _, rest, rfl, _, .alone c, fun piece member => ?_⟩
      push Not at verbatim isQuote
      simp only [codeOpeners, List.mem_cons] at member
      rcases member with rfl | rfl | rfl | rfl | member
      · exact comment
      · exact block
      · simpa using isQuote.1.symm
      · simpa using isQuote.2.symm
      · exact verbatim piece member

/-! ### What a move depends on -/

section Locality

variable {mode next : Mode} {read left : List Char} {barred : List (List Char)}

theorem Move.read_ne_nil (move : Move mode read next barred) : read ≠ [] := by
  cases move with
  | openVerbatim opens =>
    rintro rfl
    revert opens
    decide
  | _ => simp [fence]

/-- What is barred holds no end of line. -/
theorem Move.barred_inLine (move : Move mode read next barred) :
    ∀ piece ∈ barred, piece ≠ [] ∧ ∀ c ∈ piece, isLineEnd c = false := by
  cases move with
  | rawInside quotes c => simp [fence, isLineEnd]
  | openRaw more => simp [isLineEnd, or_imp, forall_and]
  | alone c => simp [codeOpeners, verbatimOpeners, isLineEnd]
  | _ => simp [isLineEnd]

/-- In every mode some move reads one character and stays in the mode. -/
theorem Move.single (mode : Mode) (c : Char) : ∃ barred, Move mode [c] mode barred := by
  cases mode with
  | code => exact ⟨_, .alone c⟩
  | blockComment => exact ⟨_, .commentInside c⟩
  | verbatim => exact ⟨_, .verbatimInside c⟩
  | raw quotes => exact ⟨_, .rawInside quotes c⟩

/-- A move sees no more in a shorter text. -/
theorem Mode.Reads.restrict {more : List Char} (reads : mode.Reads read next (left ++ more)) :
    mode.Reads read next left := by
  obtain ⟨barred, move, free⟩ := reads
  refine ⟨barred, move, fun piece member here => free piece member ?_⟩
  rw [← List.append_assoc]
  exact here.trans (List.prefix_append _ _)

/-- A move does not see an end of line. -/
theorem Mode.Reads.ending {ending : List Char} (ends : ∀ c ∈ ending, isLineEnd c = true)
    (reads : mode.Reads read next left) : mode.Reads read next (left ++ ending) := by
  obtain ⟨barred, move, free⟩ := reads
  refine ⟨barred, move, fun piece member here => free piece member ?_⟩
  rw [← List.append_assoc] at here
  refine Text.prefix_of_prefix_append here fun c first inside => ?_
  have inLine := (move.barred_inLine piece member).2 c inside
  rw [ends c (List.mem_of_mem_head? first)] at inLine
  cases inLine

theorem Mode.reads_lineEnd (mode : Mode) {c : Char} (ends : isLineEnd c = true)
    (left : List Char) : mode.Reads [c] mode left := by
  obtain ⟨barred, move⟩ := Move.single mode c
  refine ⟨barred, move, fun piece member here => ?_⟩
  obtain ⟨nonempty, inLine⟩ := move.barred_inLine piece member
  obtain ⟨p, more, rfl⟩ := List.exists_cons_of_ne_nil nonempty
  rw [List.singleton_append, List.cons_prefix_cons] at here
  have := inLine p List.mem_cons_self
  rw [here.1, ends] at this
  cases this

theorem unclosed_of_plain {quote : Char} {s : List Char}
    (plain : ∀ c ∈ s, c ≠ quote ∧ c ≠ '\\') : Unclosed quote s := by
  induction s with
  | nil => exact .nil
  | cons c more ih =>
    obtain ⟨here, more⟩ := List.forall_mem_cons.mp plain
    exact .plain here.1 here.2 (ih more)

theorem Unclosed.append {quote : Char} {s t : List Char} (unclosed : Unclosed quote s)
    (plain : ∀ c ∈ t, c ≠ quote ∧ c ≠ '\\') : Unclosed quote (s ++ t) := by
  induction unclosed with
  | nil => exact unclosed_of_plain plain
  | backslash =>
    cases t with
    | nil => exact .backslash
    | cons c more =>
      exact .escaped c (unclosed_of_plain (List.forall_mem_cons.mp plain).2)
  | escaped c _ ih => exact .escaped c ih
  | plain different noEscape _ ih => exact .plain different noEscape ih

theorem Skips.ending {s ending : List Char} (ends : ∀ c ∈ ending, isLineEnd c = true)
    (skips : Skips s) : Skips (s ++ ending) := by
  cases skips with
  | lineComment s => exact .lineComment _
  | unclosed isQuote unclosed =>
    refine .unclosed isQuote (unclosed.append fun c member => ?_)
    have := ends c member
    rcases isQuote with rfl | rfl <;> constructor <;> rintro rfl <;> revert this <;> decide

/-- The mode at the end of the line can be told after any move. -/
theorem Mode.Reads.advance_eq (reads : mode.Reads read next left) :
    mode.advance (read ++ left) = next.advance left := by
  obtain ⟨barred, move, free⟩ := reads
  obtain ⟨c, more, rfl⟩ := List.exists_cons_of_ne_nil move.read_ne_nil
  have reads : mode.Reads (c :: more) next left := ⟨barred, move, free⟩
  rw [List.cons_append, Mode.advance, reads.step_eq]

theorem Skips.advance_eq {s : List Char} (skips : Skips s) : Mode.code.advance s = .code := by
  cases s with
  | nil => rw [Mode.advance]
  | cons c rest => rw [Mode.advance, skips.step_eq, Mode.advance]

theorem Mode.advance_lineEnds {ending : List Char} (ends : ∀ c ∈ ending, isLineEnd c = true)
    (mode : Mode) : mode.advance ending = mode := by
  induction ending with
  | nil => rw [Mode.advance]
  | cons c more ih =>
    obtain ⟨here, others⟩ := List.forall_mem_cons.mp ends
    calc mode.advance ([c] ++ more) = mode.advance more := (mode.reads_lineEnd here more).advance_eq
      _ = mode := ih others

/-- **An end of line changes no mode.** -/
theorem Mode.advance_ending {ending : List Char} (ends : ∀ c ∈ ending, isLineEnd c = true)
    (mode : Mode) (s : List Char) : mode.advance (s ++ ending) = mode.advance s := by
  induction length : s.length using Nat.strongRecOn generalizing mode s with
  | ind n ih =>
    by_cases empty : s = []
    · subst empty
      rw [List.nil_append, mode.advance_lineEnds ends, Mode.advance]
    · rcases mode.reads_or_skips empty with ⟨read, next, left, rfl, reads⟩ | ⟨rfl, skips⟩
      · have shorter : left.length < n := by
          obtain ⟨barred, move, -⟩ := reads
          have := List.length_pos_iff.mpr move.read_ne_nil
          rw [← length, List.length_append]
          omega
        rw [List.append_assoc, (reads.ending ends).advance_eq, reads.advance_eq,
          ih _ shorter next left rfl]
      · rw [skips.advance_eq, (skips.ending ends).advance_eq]

end Locality

/-! ### Several moves -/

/-- The scanner comes from one place of a line to another one, `left` being what it has not read
there. It comes to no place of a line comment, whose start is the last place it looks at. -/
inductive Mode.Reaches : Mode → List Char → Mode → List Char → Prop where
  | refl (mode : Mode) (s : List Char) : Reaches mode s mode s
  | move {mode target : Mode} {c : Char} {rest left : List Char}
      (noComment : ¬ (mode = .code ∧ ['/', '/'] <+: c :: rest))
      (onward : Reaches (mode.step c rest).1 (mode.step c rest).2 target left) :
      Reaches mode (c :: rest) target left

namespace Mode

variable {mode next target : Mode} {s read rest left : List Char}

theorem Reaches.trans {other : Mode} {least : List Char} (first : mode.Reaches s target left)
    (second : target.Reaches left other least) : mode.Reaches s other least := by
  induction first with
  | refl => exact second
  | move noComment _ ih => exact .move noComment (ih second)

theorem Reads.exists_cons (reads : mode.Reads read next left) : ∃ c more, read = c :: more := by
  obtain ⟨barred, move, -⟩ := reads
  exact List.exists_cons_of_ne_nil move.read_ne_nil

/-- A move that the table has is no line comment. -/
theorem Reads.noComment (reads : mode.Reads read next left) :
    ¬ (mode = .code ∧ ['/', '/'] <+: read ++ left) := by
  rintro ⟨rfl, comment⟩
  obtain ⟨barred, move, free⟩ := reads
  cases move with
  | openComment => simp at comment
  | openVerbatim opens =>
    simp only [verbatimOpeners, List.mem_cons, List.not_mem_nil, or_false] at opens
    rcases opens with rfl | rfl | rfl | rfl | rfl <;> simp at comment
  | openRaw more => simp at comment
  | quoted isQuote closed => rcases isQuote with rfl | rfl <;> simp at comment
  | alone c => exact free _ List.mem_cons_self comment

theorem Reads.reaches (reads : mode.Reads read next left) :
    mode.Reaches (read ++ left) next left := by
  obtain ⟨c, more, rfl⟩ := reads.exists_cons
  rw [List.cons_append]
  refine .move reads.noComment ?_
  rw [reads.step_eq]
  exact .refl next left

/-- **Moves of the table.** The way to a place before the end of the line has only moves of the
table. -/
@[elab_as_elim]
theorem Reaches.reads_induction {motive : Mode → List Char → Prop}
    (reached : mode.Reaches s target left) (inLine : left ≠ []) (here : motive target left)
    (reads : ∀ {mode next read rest}, mode.Reads read next rest → next.Reaches rest target left →
      motive next rest → motive mode (read ++ rest)) : motive mode s := by
  induction reached with
  | refl => exact here
  | @move mode target c rest left noComment onward ih =>
    rcases mode.reads_or_skips (List.cons_ne_nil c rest) with
      ⟨read, next, behind, same, table⟩ | ⟨rfl, skips⟩
    · obtain ⟨first, more, rfl⟩ := table.exists_cons
      rw [List.cons_append, List.cons.injEq] at same
      obtain ⟨rfl, rfl⟩ := same
      rw [table.step_eq] at onward ih
      exact reads table onward (ih inLine here reads)
    · rw [skips.step_eq] at onward
      cases onward with
      | refl => exact (inLine rfl).elim

/-- What is left to read is the end of what was to be read. -/
theorem Reaches.exists_append (reached : mode.Reaches s target left) :
    ∃ read, s = read ++ left := by
  by_cases inLine : left = []
  · exact ⟨s, by rw [inLine, List.append_nil]⟩
  · refine reached.reads_induction inLine ⟨[], rfl⟩ fun {_ _ read _} _ _ ih => ?_
    obtain ⟨more, rfl⟩ := ih
    exact ⟨read ++ more, (List.append_assoc _ _ _).symm⟩

theorem Reaches.length_le (reached : mode.Reaches s target left) : left.length ≤ s.length := by
  obtain ⟨read, rfl⟩ := reached.exists_append
  rw [List.length_append]
  omega

/-- **The mode at the end of a line** can be told from any place that the scanner reaches. -/
theorem Reaches.advance_eq (reached : mode.Reaches s target left) :
    mode.advance s = target.advance left := by
  induction reached with
  | refl => rfl
  | move _ _ ih => rw [Mode.advance, ih]

/-- Of two places that the scanner reaches, it reaches one from the other. -/
theorem Reaches.total {other : Mode} {least : List Char} (first : mode.Reaches s target left)
    (second : mode.Reaches s other least) :
    target.Reaches left other least ∨ other.Reaches least target left := by
  induction first with
  | refl => exact .inl second
  | move noComment onward ih =>
    cases second with
    | refl => exact .inr (.move noComment onward)
    | move _ second => exact ih second

theorem Reaches.eq_of_same (reached : mode.Reaches s target s) : mode = target := by
  cases reached with
  | refl => rfl
  | @move _ _ c rest _ _ onward =>
    have := onward.length_le
    have := mode.step_length c rest
    simp only [List.length_cons] at *
    omega

theorem Reaches.eq_of_lineComment (reached : Mode.code.Reaches ('/' :: '/' :: s) target left) :
    left = '/' :: '/' :: s := by
  cases reached with
  | refl => rfl
  | move noComment _ => exact (noComment ⟨rfl, by simp⟩).elim

/-- Of two places of a line, the scanner comes from the first one to the second one. -/
theorem Reaches.onward {y : List Char} {last : Mode} (first : mode.Reaches s target (y ++ left))
    (second : mode.Reaches s last left) : target.Reaches (y ++ left) last left := by
  rcases first.total second with onward | back
  · exact onward
  · have none : y = [] := by
      have shorter := back.length_le
      rw [List.length_append] at shorter
      exact List.eq_nil_of_length_eq_zero (by omega)
    subst none
    rw [back.eq_of_same]
    exact .refl _ _

/-- A shorter line is read in the same way up to its end. -/
theorem Reaches.restrict {more : List Char} (reached : mode.Reaches s target (left ++ more)) :
    ∃ read, s = read ++ (left ++ more) ∧ mode.Reaches (read ++ left) target left := by
  by_cases inLine : left ++ more = []
  · obtain ⟨rfl, rfl⟩ := List.append_eq_nil_iff.mp inLine
    exact ⟨s, by simp, by simpa using reached⟩
  · refine reached.reads_induction inLine ⟨[], rfl, .refl _ _⟩ fun {_ _ read _} reads _ ih => ?_
    obtain ⟨before, rfl, shorter⟩ := ih
    refine ⟨read ++ before, by simp, ?_⟩
    rw [← List.append_assoc] at reads
    rw [List.append_assoc]
    exact reads.restrict.reaches.trans shorter

/-- With its end of line, a line is read in the same way. -/
theorem Reaches.ending {ending : List Char} (ends : ∀ c ∈ ending, isLineEnd c = true)
    (reached : mode.Reaches s target left) (inLine : left ≠ []) :
    mode.Reaches (s ++ ending) target (left ++ ending) := by
  refine reached.reads_induction inLine (.refl _ _) fun {_ _ read rest} reads _ ih => ?_
  rw [List.append_assoc]
  exact (reads.ending ends).reaches.trans ih

end Mode

end ScriptLint.Directive
