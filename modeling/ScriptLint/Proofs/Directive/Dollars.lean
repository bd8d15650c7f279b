/-
**Raw strings with several dollar signs.**

The scanner takes the last two dollar signs and the first quote behind them for the start of a
verbatim string. What it makes of the rest depends on the number of quotes and on those in the body.

* `DollarString` — such a literal; `DollarString.IsPaired` — its fences are odd, and the quotes in its
  body come in pairs.
* `DollarString.passes_opening` — behind an odd fence the scanner is inside a verbatim string, behind
  an even one in code.
* `Passing.reaches_stands` — what the scanner does between two places of one line.
* `scan_dollarString` — no part of the body is read as code exactly if the literal is paired. Then the
  literal hides its lines and nothing behind it. Behind an even fence the lines of the body are
  scanned as if they were alone.
-/

import ScriptLint.Proofs.Directive.Literal

namespace ScriptLint.Directive

/-- A raw string with several dollar signs before its opening fence. -/
structure DollarString where
  dollars : Nat
  quotes : Nat
  body : String
  several : 2 ≤ dollars
  three : 3 ≤ quotes
  raw : RawBody quotes body.toList

namespace DollarString

def opening (literal : DollarString) : String :=
  String.ofList (List.replicate literal.dollars '$' ++ List.replicate literal.quotes '"')

def closing (literal : DollarString) : String :=
  String.ofList (List.replicate literal.quotes '"')

def text (literal : DollarString) : String :=
  literal.opening ++ literal.body ++ literal.closing

/-- With its doubled quotes the literal reads like a verbatim string. -/
def IsPaired (literal : DollarString) : Prop :=
  literal.quotes % 2 = 1 ∧ VerbatimBody literal.body.toList

end DollarString

/-! ### Quotes in pairs -/

theorem verbatimBody_replicate (pairs : Nat) : VerbatimBody (List.replicate (2 * pairs) '"') := by
  induction pairs with
  | zero => exact .nil
  | succ pairs ih => exact .doubled ih

/-- A body whose quotes do not come in pairs has a first quote without a partner. -/
theorem exists_unpaired {body : List Char} (unpaired : ¬ VerbatimBody body) :
    ∃ inner outer, body = inner ++ ['"'] ++ outer ∧ VerbatimBody inner ∧
      outer.head? ≠ some '"' := by
  induction length : body.length using Nat.strongRecOn generalizing body with
  | ind n ih =>
    match body with
    | [] => exact (unpaired .nil).elim
    | c :: rest =>
      by_cases quote : c = '"'
      · subst quote
        by_cases doubled : rest.head? = some '"'
        · obtain ⟨more, rfl⟩ := List.head?_eq_some_iff.mp doubled
          obtain ⟨inner, outer, rfl, paired, stops⟩ :=
            ih more.length (by simp only [List.length_cons] at length; omega)
              (fun paired => unpaired (.doubled paired)) rfl
          exact ⟨'"' :: '"' :: inner, outer, rfl, .doubled paired, stops⟩
        · exact ⟨[], rest, rfl, .nil, doubled⟩
      · obtain ⟨inner, outer, rfl, paired, stops⟩ :=
          ih rest.length (by simp only [List.length_cons] at length; omega)
            (fun paired => unpaired (.plain quote paired)) rfl
        exact ⟨c :: inner, outer, rfl, .plain quote paired, stops⟩

namespace Mode

variable {mode middle target : Mode} {s t left : List Char}

theorem Passes.trans (first : mode.Passes s middle (t ++ left))
    (second : middle.Passes t target left) : mode.Passes (s ++ t) target left := by
  generalize behind : t ++ left = all at first
  induction first with
  | nil => exact second
  | cons reads inLine _ ih =>
    subst behind
    rw [List.append_assoc]
    rw [← List.append_assoc] at reads
    exact .cons reads inLine (ih second rfl)

/-- Inside a verbatim string, quotes in pairs are passed. -/
theorem passes_pairs (paired : VerbatimBody s) (left : List Char) :
    Mode.verbatim.Passes s .verbatim left := by
  induction paired with
  | nil => exact .nil _ _
  | @doubled s _ ih =>
    show Mode.verbatim.Passes (['"', '"'] ++ s) .verbatim left
    exact .cons ⟨_, .verbatimDoubled, by simp⟩ (by decide) ih
  | @plain c s other _ ih =>
    exact .inside (by decide) ⟨_, .verbatimInside c, by simpa using Ne.symm other⟩ ih

/-- An odd number of quotes ends a verbatim string. -/
theorem passes_fence {quotes : Nat} (odd : quotes % 2 = 1) (closes : left.head? ≠ some '"') :
    Mode.verbatim.Passes (List.replicate quotes '"') .code left := by
  have quotes_eq : quotes = 2 * (quotes / 2) + 1 := by omega
  rw [quotes_eq, List.replicate_succ']
  exact passes_verbatim (verbatimBody_replicate _) closes

/-- The last two dollar signs, with a quote behind them, open a verbatim string. -/
theorem passes_dollars (more : Nat) (left : List Char) :
    Mode.code.Passes (List.replicate (more + 2) '$' ++ ['"']) .verbatim left := by
  induction more with
  | zero =>
    refine Reads.passes ⟨_, .openVerbatim ?_, by simp⟩ (by decide)
    decide
  | succ more ih =>
    rw [List.replicate_succ, List.cons_append, ← List.singleton_append]
    refine .cons ⟨_, .alone '$', ?_⟩ (by decide) ih
    simp [codeOpeners, verbatimOpeners, List.replicate_succ]

end Mode

namespace DollarString

variable (literal : DollarString) {left : List Char}

/-- The mode in which the scanner comes to the body. -/
def bodyMode : Mode :=
  if literal.quotes % 2 = 1 then .verbatim else .code

theorem passes_opening (starts : left.head? ≠ some '"') :
    Mode.code.Passes literal.opening.toList literal.bodyMode left := by
  obtain ⟨more, dollars_eq⟩ := Nat.exists_eq_add_of_le' literal.several
  obtain ⟨quotes, quotes_eq⟩ : ∃ quotes, literal.quotes = quotes + 1 :=
    ⟨literal.quotes - 1, by have := literal.three; omega⟩
  have opening_eq : literal.opening.toList =
      List.replicate (more + 2) '$' ++ ['"'] ++ List.replicate quotes '"' := by
    rw [opening, String.toList_ofList, dollars_eq, quotes_eq]
    simp [List.replicate_succ]
  rw [opening_eq]
  refine (Mode.passes_dollars more _).trans ?_
  unfold bodyMode
  split
  next odd =>
    have half : quotes = 2 * (quotes / 2) := by omega
    rw [half]
    exact Mode.passes_pairs (verbatimBody_replicate _) left
  next even => exact Mode.passes_fence (by omega) starts

theorem noQuote_body (s : List Char) : (literal.body.toList ++ s).head? ≠ some '"' := by
  obtain ⟨c, starts, other⟩ := literal.raw.starts
  rw [List.head?_append, starts]
  simpa using other

theorem IsPaired.passes {literal : DollarString} (paired : literal.IsPaired)
    (closes : left.head? ≠ some '"') : Mode.code.Passes literal.text.toList .code left := by
  have opening := literal.passes_opening
    (literal.noQuote_body (literal.closing.toList ++ left))
  rw [bodyMode, if_pos paired.1, ← List.append_assoc] at opening
  have closing : Mode.verbatim.Passes literal.closing.toList .code left := by
    rw [DollarString.closing, String.toList_ofList]
    exact Mode.passes_fence paired.1 closes
  rw [text, String.toList_append, String.toList_append, List.append_assoc]
  exact opening.trans ((Mode.passes_pairs paired.2 _).trans closing)

end DollarString

/-! ### Places of one line -/

section Places

variable {found : List Directive} {mode target : Mode}
  {before piece after earlier head tail left ending later s x z : List Char}

theorem Stands.ending_ne_nil (stands : Stands mode earlier head left ending later)
    (more : later ≠ []) : ending ≠ [] := by
  rintro rfl
  have newline := (Text.isLine_iff.mp stands.isLine).2.2.resolve_left more
  have body := stands.body
  rw [List.append_nil] at body newline
  cases getLast?_lineBody (body ▸ newline)

/-- A piece that begins inside a line is passed from where the scanner stands. -/
theorem Mode.StandsAt.passes (stands : mode.StandsAt before (piece ++ after))
    (inside : ∃ c, piece.head? = some c ∧ isLineEnd c = false)
    (passes : mode.Passes piece target after) :
    ∃ found earlier head tail later, Passing found target earlier head tail later ∧
      earlier ++ head = before ++ piece ∧ tail ++ later = after ∧
      ∀ directive ∈ found, directive.position < Text.size before := by
  obtain ⟨earlier, head, left, ending, later, stands, rfl, same⟩ := stands
  obtain ⟨c, starts, inLine⟩ := inside
  have onLine : left ≠ [] := by
    refine stands.left_ne_nil ?_ inLine
    rw [← same, List.head?_append, starts]
    rfl
  obtain ⟨earlier', head', tail, later', passing, before_eq, after_eq⟩ :=
    (stands.passing onLine).passes same.symm passes
  refine ⟨_, earlier', head', tail, later', passing, before_eq, after_eq, fun directive member => ?_⟩
  have := scanFrom_bounds member
  rw [Text.size_append]
  omega

/-- Behind the last quote of a piece the scanner stands again. -/
theorem Mode.StandsAt.behind (stands : mode.StandsAt before (piece ++ after))
    (inside : ∃ c, piece.head? = some c ∧ isLineEnd c = false) (ends : piece.getLast? = some '"')
    (passes : mode.Passes piece target after) : target.StandsAt (before ++ piece) after := by
  obtain ⟨found, earlier, head, tail, later, passing, before_eq, after_eq, -⟩ :=
    stands.passes inside passes
  have last : (earlier ++ head).getLast? = some '"' := by
    rw [before_eq, List.getLast?_append, ends]
    rfl
  obtain ⟨left, ending, rfl, stands⟩ := passing.stands last rfl
  exact ⟨earlier, head, left, ending, later, stands, before_eq.symm, after_eq.symm⟩

/-- From a place of a line to another one behind it that the scanner comes to. -/
theorem Passing.reaches_stands (passing : Passing found mode earlier head (x ++ z) later)
    (more : z ≠ []) (stands : target.StandsAt (earlier ++ head ++ x) (z ++ later)) :
    ∃ left ending, z = left ++ ending ∧ (∀ c ∈ ending, isLineEnd c = true) ∧
      mode.Reaches (x ++ left) target left := by
  obtain ⟨earlier', head', left, ending, later', stands, before_eq, after_eq⟩ := stands
  have same : earlier ++ (head ++ (x ++ z)) ++ later =
      earlier' ++ (head' ++ left ++ ending) ++ later' := by
    calc earlier ++ (head ++ (x ++ z)) ++ later = earlier ++ head ++ x ++ (z ++ later) := by simp
      _ = earlier' ++ (head' ++ left ++ ending) ++ later' := by rw [before_eq, after_eq]; simp
  rcases passing.toOnLine.compare stands.toOnLine same with
    ⟨between, rfl, -⟩ | ⟨rfl, line_eq, -⟩ | ⟨between, rfl, later_eq⟩
  · -- The second line would begin behind `z`.
    have lengths := congrArg List.length before_eq
    have := List.length_pos_iff.mpr more
    simp only [List.length_append] at lengths
    omega
  · rw [List.append_assoc, List.append_cancel_left_eq] at before_eq
    subst before_eq
    have tail_eq : z = left ++ ending := by
      simpa only [List.append_assoc, List.append_cancel_left_eq] using line_eq
    have reached := passing.reached
    rw [tail_eq, ← List.append_assoc x] at reached
    obtain ⟨read, line_eq, reached⟩ := reached.restrict
    obtain rfl := List.append_cancel_right line_eq
    have second := stands.reached
    rw [List.append_assoc] at second
    exact ⟨left, ending, tail_eq, stands.ends, reached.onward second⟩
  · -- The second line would end before `z`, without a newline.
    have lengths := congrArg List.length before_eq
    simp only [List.length_append] at lengths
    have none : ending = [] := List.eq_nil_of_length_eq_zero (by omega)
    refine (stands.ending_ne_nil ?_ none).elim
    rw [later_eq]
    simp [more]

/-- Where the scanner is inside a literal, it is not in code. -/
theorem Passing.not_stands (passing : Passing found mode earlier head tail later)
    (more : tail ≠ []) (literal : mode ≠ .code) :
    ¬ Mode.code.StandsAt (earlier ++ head) (tail ++ later) := by
  intro stands
  obtain ⟨left, ending, -, -, reached⟩ :=
    Passing.reaches_stands (x := []) passing more (by rwa [List.append_nil])
  exact literal reached.eq_of_same

/-- Between the quotes of a pair the scanner does not stop. -/
theorem Passing.not_stands_between
    (passing : Passing found .verbatim earlier head ('"' :: '"' :: tail) later) :
    ¬ Mode.code.StandsAt (earlier ++ head ++ ['"']) ('"' :: tail ++ later) := by
  intro stands
  obtain ⟨left, ending, line_eq, ends, reached⟩ :=
    Passing.reaches_stands (x := ['"']) (z := '"' :: tail) passing (List.cons_ne_nil _ _) stands
  cases left with
  | nil =>
    have := ends '"' (by rw [← List.nil_append ending, ← line_eq]; exact List.mem_cons_self)
    cases this
  | cons c rest =>
    rw [List.cons_append, List.cons.injEq] at line_eq
    obtain ⟨rfl, -⟩ := line_eq
    cases reached with
    | move _ onward =>
      have shorter : (('"' :: rest).length) ≤ rest.length := onward.length_le
      rw [List.length_cons] at shorter
      omega

/-- **A text of paired quotes** that the scanner passes inside a verbatim string holds no place of
code. -/
theorem Passing.not_stands_pairs (passing : Passing found .verbatim earlier head tail later)
    (paired : VerbatimBody s) (same : tail ++ later = s ++ after) {inner outer : List Char}
    (s_eq : s = inner ++ outer) (inside : outer ≠ []) :
    ¬ Mode.code.StandsAt (earlier ++ head ++ inner) (outer ++ after) := by
  induction paired generalizing earlier head tail later inner with
  | nil => exact absurd (List.append_eq_nil_iff.mp s_eq.symm).2 inside
  | @doubled s paired ih =>
    have same' : tail ++ later = ['"', '"'] ++ (s ++ after) := same
    have inLine : '\n' ∈ ['"', '"'] → ['"', '"'] = ['\n'] ∧ Mode.verbatim ≠ .code := by decide
    obtain ⟨behind, rfl, rest_eq⟩ := passing.exists_tail inLine same'
    match inner with
    | [] =>
      rw [List.append_nil, ← List.nil_append outer, ← s_eq, ← same]
      exact passing.not_stands (by simp) (by decide)
    | [c] =>
      rw [List.singleton_append, List.cons.injEq] at s_eq
      obtain ⟨rfl, rfl⟩ := s_eq
      rw [List.cons_append, rest_eq, ← List.cons_append]
      exact passing.not_stands_between
    | c :: d :: inner =>
      simp only [List.cons_append, List.cons.injEq] at s_eq
      obtain ⟨rfl, rfl, s_eq⟩ := s_eq
      obtain ⟨earlier', head', tail', later', passing', before_eq, after_eq⟩ :=
        passing.step ⟨_, .verbatimDoubled, by simp⟩ inLine
      have onward := ih passing' (after_eq.trans rest_eq.symm) s_eq
      rw [before_eq] at onward
      simpa using onward
  | @plain c s other paired ih =>
    have same' : tail ++ later = [c] ++ (s ++ after) := same
    have inLine : '\n' ∈ [c] → [c] = ['\n'] ∧ Mode.verbatim ≠ .code := by
      intro newline
      exact ⟨by rw [List.mem_singleton.mp newline], by decide⟩
    obtain ⟨behind, rfl, rest_eq⟩ := passing.exists_tail inLine same'
    match inner with
    | [] =>
      rw [List.append_nil, ← List.nil_append outer, ← s_eq, ← same]
      exact passing.not_stands (by simp) (by decide)
    | d :: inner =>
      rw [List.cons_append, List.cons.injEq] at s_eq
      obtain ⟨rfl, s_eq⟩ := s_eq
      obtain ⟨earlier', head', tail', later', passing', before_eq, after_eq⟩ :=
        passing.step ⟨_, .verbatimInside c, by simpa using Ne.symm other⟩ inLine
      have onward := ih passing' (after_eq.trans rest_eq.symm) s_eq
      rw [before_eq] at onward
      simpa using onward

end Places

/-! ### The literal in a text -/

theorem DollarString.edges (literal : DollarString) :
    (∃ c, literal.opening.toList.head? = some c ∧ isLineEnd c = false) ∧
      literal.opening.toList.getLast? = some '"' ∧ literal.text.toList.getLast? = some '"' := by
  obtain ⟨more, dollars_eq⟩ := Nat.exists_eq_add_of_le' literal.several
  obtain ⟨quotes, quotes_eq⟩ := Nat.exists_eq_add_of_le' literal.three
  refine ⟨⟨'$', ?_, rfl⟩, ?_, ?_⟩
  · rw [opening, String.toList_ofList, dollars_eq]
    rfl
  · rw [opening, String.toList_ofList, quotes_eq, List.replicate_succ' (n := quotes + 2)]
    simp
  · rw [text, closing, String.toList_append, String.toList_ofList, quotes_eq,
      List.replicate_succ' (n := quotes + 2)]
    simp

theorem DollarString.starts (literal : DollarString) :
    ∃ c, literal.text.toList.head? = some c ∧ isLineEnd c = false := by
  obtain ⟨⟨c, starts, inLine⟩, -⟩ := literal.edges
  refine ⟨c, ?_, inLine⟩
  rw [text, String.toList_append, String.toList_append, List.append_assoc, List.head?_append, starts]
  rfl

section Text

variable {literal : DollarString} {before after : String}

theorem DollarString.exists_code (unpaired : ¬ literal.IsPaired)
    (stands : Mode.code.StandsAt before.toList (literal.text ++ after).toList) :
    ∃ inner outer : String, literal.body = inner ++ outer ∧ outer ≠ "" ∧
      Mode.code.StandsAt (before ++ literal.opening ++ inner).toList
        (outer ++ literal.closing ++ after).toList := by
  obtain ⟨⟨first, starts, inLine⟩, ends, -⟩ := literal.edges
  simp only [text, String.toList_append, List.append_assoc] at stands
  have opening := literal.passes_opening
    (literal.noQuote_body (literal.closing.toList ++ after.toList))
  by_cases odd : literal.quotes % 2 = 1
  · -- The first quote without a partner ends the verbatim string that the opening has begun.
    obtain ⟨inner, outer, body_eq, paired, stops⟩ :=
      exists_unpaired fun verbatim => unpaired ⟨odd, verbatim⟩
    have more : outer ≠ [] := by
      rintro rfl
      exact literal.raw.noQuote_getLast '"' (by rw [body_eq]; simp) rfl
    have closes : (outer ++ (literal.closing.toList ++ after.toList)).head? ≠ some '"' := by
      rw [List.head?_append_of_ne_nil _ more]
      exact stops
    rw [DollarString.bodyMode, if_pos odd, body_eq, List.append_assoc] at opening
    rw [body_eq, List.append_assoc (inner ++ ['"']), ← List.append_assoc] at stands
    have begins : (literal.opening.toList ++ (inner ++ ['"'])).head? = some first := by
      rw [List.head?_append, starts]
      rfl
    have behind := stands.behind ⟨first, begins, inLine⟩ (by simp)
      (opening.trans (Mode.passes_verbatim paired closes))
    refine ⟨String.ofList (inner ++ ['"']), String.ofList outer, ?_, by simpa using more, ?_⟩
    · rw [← String.ofList_append, ← body_eq, String.ofList_toList]
    · simpa using behind
  · rw [DollarString.bodyMode, if_neg odd] at opening
    refine ⟨"", literal.body, by simp, ?_, ?_⟩
    · intro empty
      obtain ⟨c, begins, -⟩ := literal.raw.starts
      rw [empty] at begins
      cases begins
    · simpa using stands.behind ⟨first, starts, inLine⟩ ends opening

theorem DollarString.IsPaired.not_code (paired : literal.IsPaired)
    (stands : Mode.code.StandsAt before.toList (literal.text ++ after).toList)
    {inner outer : String} (body_eq : literal.body = inner ++ outer) (inside : outer ≠ "") :
    ¬ Mode.code.StandsAt (before ++ literal.opening ++ inner).toList
      (outer ++ literal.closing ++ after).toList := by
  have opening := literal.passes_opening
    (literal.noQuote_body (literal.closing.toList ++ after.toList))
  rw [DollarString.bodyMode, if_pos paired.1] at opening
  simp only [text, String.toList_append, List.append_assoc] at stands
  obtain ⟨found, earlier, head, tail, later, passing, before_eq, after_eq, -⟩ :=
    stands.passes literal.edges.1 opening
  have hidden := passing.not_stands_pairs paired.2 after_eq
    (by rw [body_eq, String.toList_append]) (by simpa using inside)
  rw [before_eq] at hidden
  simpa using hidden

theorem DollarString.IsPaired.scan_bounds (paired : literal.IsPaired)
    (closes : after.toList.head? ≠ some '"')
    (stands : Mode.code.StandsAt before.toList (literal.text ++ after).toList) :
    ∀ directive ∈ scan (before ++ literal.text ++ after),
      ¬ (Text.size before.toList ≤ directive.position ∧
        directive.position < Text.size (before ++ literal.text).toList) := by
  intro directive member within
  rw [String.toList_append] at stands
  obtain ⟨found, earlier, head, tail, later, passing, before_eq, after_eq, early⟩ :=
    stands.passes literal.starts (paired.passes closes)
  have directives := passing.scanFrom_eq
  rw [before_eq, after_eq, ← String.toList_append, ← String.toList_append, ← scan_eq]
    at directives
  rw [directives] at member
  rcases List.mem_append.mp member with here | behind
  · have := early directive here
    omega
  · have := scanFrom_bounds behind
    rw [Text.size_append] at this
    omega

/-- Behind an even fence, the lines of the body are lines of the text. -/
theorem DollarString.scan_lines (even : literal.quotes % 2 = 0) {lines : String}
    (body_eq : literal.body = "\n" ++ lines)
    (stands : Mode.code.StandsAt before.toList (literal.text ++ after).toList) :
    ∃ found, (∀ directive ∈ found, directive.position < Text.size before.toList) ∧
      scan (before ++ literal.text ++ after) = found ++
        (scan (lines ++ literal.closing ++ after)).map
          (shift (Text.size (before ++ literal.opening ++ "\n").toList)) := by
  have opening := literal.passes_opening
    (literal.noQuote_body (literal.closing.toList ++ after.toList))
  rw [DollarString.bodyMode, if_neg (by omega)] at opening
  simp only [text, String.toList_append, List.append_assoc] at stands
  obtain ⟨found, earlier, head, tail, later, passing, before_eq, after_eq, early⟩ :=
    stands.passes literal.edges.1 opening
  have next : tail ++ later = [] ++ ['\n'] ++ (lines ++ literal.closing ++ after).toList := by
    rw [after_eq, body_eq]
    simp
  obtain ⟨rfl, rfl⟩ := passing.tail_eq (by simp) next
  have directives := passing.scanFrom_eq
  rw [before_eq, after_eq, List.nil_append, Mode.advance_lineEnds (by simp [isLineEnd])]
    at directives
  refine ⟨found, early, ?_⟩
  rw [scan_eq, scan_eq (lines ++ literal.closing ++ after), ← scanFrom_eq_map_shift]
  simpa [text] using directives

end Text

/-- **A raw string with several dollar signs**, where the scanner comes to it in code, on a line that
is no directive. No part of its body is read as code exactly if it is paired. If it is, no directive
stands in it and the scanner comes in code to its end. If its fences are even and its body begins on
the next line, the lines of the body are scanned as if they were alone. -/
theorem scan_dollarString (literal : DollarString) {before after : String}
    (closes : after.toList.head? ≠ some '"')
    (stands : Mode.code.StandsAt before.toList (literal.text ++ after).toList) :
    ((∀ inner outer : String, literal.body = inner ++ outer → outer ≠ "" →
        ¬ Mode.code.StandsAt (before ++ literal.opening ++ inner).toList
          (outer ++ literal.closing ++ after).toList) ↔ literal.IsPaired) ∧
    (literal.IsPaired →
      (∀ directive ∈ scan (before ++ literal.text ++ after),
        ¬ (Text.size before.toList ≤ directive.position ∧
          directive.position < Text.size (before ++ literal.text).toList)) ∧
      Mode.code.StandsAt (before ++ literal.text).toList after.toList) ∧
    (literal.quotes % 2 = 0 → ∀ lines : String, literal.body = "\n" ++ lines →
      ∃ found, (∀ directive ∈ found, directive.position < Text.size before.toList) ∧
        scan (before ++ literal.text ++ after) = found ++
          (scan (lines ++ literal.closing ++ after)).map
            (shift (Text.size (before ++ literal.opening ++ "\n").toList))) := by
  refine ⟨⟨fun hidden => ?_, fun paired inner outer body_eq inside => ?_⟩,
    fun paired => ⟨paired.scan_bounds closes stands, ?_⟩,
    fun even lines body_eq => DollarString.scan_lines even body_eq stands⟩
  · by_contra unpaired
    obtain ⟨inner, outer, body_eq, inside, code⟩ := DollarString.exists_code unpaired stands
    exact hidden inner outer body_eq inside code
  · exact paired.not_code stands body_eq inside
  · rw [String.toList_append] at stands ⊢
    exact stands.behind literal.starts literal.edges.2.2 (paired.passes closes)

/-- A paired literal, whose lines read like directives. -/
def pairedString : DollarString where
  dollars := 3
  quotes := 3
  body := "\n#else \"\"\n"
  several := by decide
  three := by decide
  raw := ⟨⟨'\n', by decide, by decide⟩, ⟨'\n', by decide, by decide⟩, by decide +kernel⟩

theorem scan_dollarString_paired :
    Mode.code.StandsAt "#if A\n  F(".toList (pairedString.text ++ ");\n#endif\n").toList ∧
      pairedString.IsPaired ∧
      (∀ directive ∈ scan ("#if A\n  F(" ++ pairedString.text ++ ");\n#endif\n"),
        ¬ (Text.size "#if A\n  F(".toList ≤ directive.position ∧
          directive.position < Text.size ("#if A\n  F(" ++ pairedString.text).toList)) ∧
      Mode.code.StandsAt ("#if A\n  F(" ++ pairedString.text).toList ");\n#endif\n".toList := by
  have start : Mode.code.after "#if A\n".toList = .code := by decide +kernel
  have stands : Mode.code.StandsAt "#if A\n  F(".toList
      (pairedString.text ++ ");\n#endif\n").toList := by
    refine ⟨"#if A\n".toList, "  F(".toList, "$$$\"\"\"".toList, ['\n'],
      "#else \"\"\n\"\"\");\n#endif\n".toList,
      ⟨⟨by decide, Text.isLine_iff.mpr (by decide), by decide +kernel⟩, by decide, ?_⟩, rfl,
      by decide⟩
    rw [start]
    exact .move (by decide) (.move (by decide) (.move (by decide) (.move (by decide) (.refl _ _))))
  have paired : pairedString.IsPaired := by
    refine ⟨rfl, ?_⟩
    show VerbatimBody ['\n', '#', 'e', 'l', 's', 'e', ' ', '"', '"', '\n']
    exact .plain (by decide) (.plain (by decide) (.plain (by decide) (.plain (by decide)
      (.plain (by decide) (.plain (by decide) (.plain (by decide) (.doubled
        (.plain (by decide) .nil))))))))
  exact ⟨stands, paired, (scan_dollarString pairedString (by decide) stands).2.1 paired⟩

/-- A literal with quoted words in its body, and a line behind them that reads like a directive. -/
def quotingString : DollarString where
  dollars := 2
  quotes := 3
  body := "\n\x7b \"a\": 1 \x7d\n#if X\n"
  several := by decide
  three := by decide
  raw := ⟨⟨'\n', by decide, by decide⟩, ⟨'\n', by decide, by decide⟩, by decide +kernel⟩

/-- The line is taken for a directive. -/
theorem scan_dollarString_quoting :
    Mode.code.StandsAt "var s = ".toList (quotingString.text ++ ";\n").toList ∧
      ∃ directive ∈ scan ("var s = " ++ quotingString.text ++ ";\n"),
        Text.size "var s = ".toList ≤ directive.position ∧
          directive.position < Text.size ("var s = " ++ quotingString.text).toList := by
  refine ⟨⟨[], "var s = ".toList, "$$\"\"\"".toList, ['\n'],
    "\x7b \"a\": 1 \x7d\n#if X\n\"\"\";\n".toList,
    ⟨⟨by decide, Text.isLine_iff.mpr (by decide), by decide +kernel⟩, by decide, ?_⟩, rfl,
    by decide⟩, ⟨.openIf, some "X", 25⟩, by decide +kernel, by decide, by decide⟩
  exact .move (by decide) (.move (by decide) (.move (by decide) (.move (by decide)
    (.move (by decide) (.move (by decide) (.move (by decide) (.move (by decide) (.refl _ _))))))))

end ScriptLint.Directive
