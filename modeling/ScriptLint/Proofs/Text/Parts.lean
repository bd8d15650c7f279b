/-
**Sizes, cuts, ends and lines of a text put together.**

* `cut?_eq_some_iff` — a cut at an offset is the one way to write a text as two parts, the first of
  which has that many bytes; `IsPlace` — there is such a way.
* `dropEndWhile_eq_rdropWhile` — dropping at the end is what the library says it is;
  `dropEndWhile_append` — what is removed there, and what is not.
* `trim_append` — what trimming leaves of a text between blanks; `trim_trim` — nothing is left to trim.
* `upTo_append` — what stands before a piece, past a text that does not hold it; `hasInfix_upTo` — that
  does not hold the piece.
* `hasInfix_iff` — what it means that a text holds a piece.
* `WholeLines` — a text at whose end a new line begins: the empty one, and one that ends with a
  newline.
* `lines_append` — whole lines are cut into lines apart from what follows them.
* `flatten_lines` — the lines put together are the text.
* `IsLine`, `isLine_iff` — the first line of a text.
* `exists_lastLine`, `exists_firstLine` — the parts of a line on both sides of a place.
-/

import Mathlib.Data.List.Basic
import Mathlib.Data.List.DropRight
import Mathlib.Data.List.TakeWhile
import ScriptLint.Text.Find
import ScriptLint.Text.Measure

namespace ScriptLint.Text

/-! ### Sizes -/

@[simp] theorem size_nil : size [] = 0 := rfl

@[simp] theorem size_cons (c : Char) (s : List Char) : size (c :: s) = c.utf8Size + size s := rfl

@[simp] theorem size_append (s t : List Char) : size (s ++ t) = size s + size t := by
  induction s with
  | nil => simp
  | cons c rest ih =>
    rw [List.cons_append, size_cons, size_cons, ih]
    omega

@[simp] theorem size_reverse (s : List Char) : size s.reverse = size s := by
  induction s with
  | nil => rfl
  | cons c rest ih =>
    rw [List.reverse_cons, size_append, ih, size_cons, size_cons, size_nil]
    omega

theorem size_pos {s : List Char} (nonempty : s ≠ []) : 0 < size s := by
  cases s with
  | nil => exact absurd rfl nonempty
  | cons c rest =>
    have := c.utf8Size_pos
    rw [size_cons]
    omega

theorem eq_nil_of_size {s : List Char} (empty : size s = 0) : s = [] := by
  by_contra nonempty
  have := size_pos nonempty
  omega

/-- Of two ways to write a text as two parts, the sizes of the first parts tell which is which. -/
theorem append_inj_of_size {a b c d : List Char} (same : a ++ b = c ++ d)
    (sizes : size a = size c) : a = c ∧ b = d := by
  induction a generalizing c with
  | nil =>
    have : c = [] := eq_nil_of_size sizes.symm
    subst this
    exact ⟨rfl, same⟩
  | cons x rest ih =>
    cases c with
    | nil =>
      have := x.utf8Size_pos
      simp only [size_cons, size_nil] at sizes
      omega
    | cons y more =>
      simp only [List.cons_append, List.cons.injEq] at same
      obtain ⟨rfl, same⟩ := same
      simp only [size_cons, Nat.add_left_cancel_iff] at sizes
      obtain ⟨rfl, rest_eq⟩ := ih same sizes
      exact ⟨rfl, rest_eq⟩

/-- A first part that is not larger is a beginning of the other first part. -/
theorem exists_append_of_size_le {a b c d : List Char} (same : a ++ b = c ++ d)
    (smaller : size a ≤ size c) : ∃ middle, c = a ++ middle ∧ b = middle ++ d := by
  rcases List.append_eq_append_iff.mp same with ⟨middle, first, second⟩ | ⟨middle, first, second⟩
  · exact ⟨middle, first, second⟩
  · have : middle = [] := by
      apply eq_nil_of_size
      rw [first, size_append] at smaller
      omega
    subst this
    exact ⟨[], by simpa using first.symm, by simpa using second.symm⟩

/-- Of two ways to cut a text, the one that ends its first part on a character that the other has
not in its second part comes first. -/
theorem exists_append_of_getLast? {a b c d : List Char} {x : Char} (same : a ++ b = c ++ d)
    (last : a.getLast? = some x) (absent : x ∉ d) :
    ∃ middle, c = a ++ middle ∧ b = middle ++ d := by
  rcases List.append_eq_append_iff.mp same with ⟨middle, first, second⟩ | ⟨beyond, rfl, rfl⟩
  · exact ⟨middle, first, second⟩
  · by_cases none : beyond = []
    · exact ⟨[], by simp [none], by simp [none]⟩
    · rw [List.getLast?_append_of_ne_nil _ none] at last
      exact (absent (List.mem_append_left _ (List.mem_of_getLast? last))).elim

/-! ### Cuts -/

theorem cut?_size (before after : List Char) :
    cut? (size before) (before ++ after) = some (before, after) := by
  induction before with
  | nil => simp [cut?]
  | cons c rest ih =>
    have positive := c.utf8Size_pos
    obtain ⟨n, eq⟩ : ∃ n, size (c :: rest) = n + 1 := ⟨size (c :: rest) - 1, by simp; omega⟩
    have left : n + 1 - c.utf8Size = size rest := by
      rw [← eq, size_cons]
      omega
    have fits : c.utf8Size ≤ n + 1 := by
      rw [← eq, size_cons]
      omega
    rw [eq, List.cons_append, cut?, if_pos fits, left, ih]
    rfl

/-- **A cut** is a way to write the text as two parts, the first of the given size. -/
theorem cut?_eq_some_iff {offset : Nat} {s before after : List Char} :
    cut? offset s = some (before, after) ↔ s = before ++ after ∧ size before = offset := by
  constructor
  · intro found
    induction s generalizing offset before with
    | nil =>
      cases offset with
      | zero => simp_all [cut?]
      | succ n => simp [cut?] at found
    | cons c rest ih =>
      cases offset with
      | zero =>
        simp only [cut?, Option.some.injEq, Prod.mk.injEq] at found
        obtain ⟨rfl, rfl⟩ := found
        exact ⟨rfl, rfl⟩
      | succ n =>
        rw [cut?] at found
        split at found
        · obtain ⟨⟨inner, _⟩, innerFound, pair⟩ := Option.map_eq_some_iff.mp found
          simp only [Prod.mk.injEq] at pair
          obtain ⟨rfl, rfl⟩ := pair
          obtain ⟨rest_eq, inner_size⟩ := ih innerFound
          refine ⟨by rw [rest_eq, List.cons_append], ?_⟩
          rw [size_cons, inner_size]
          omega
        · cases found
  · rintro ⟨rfl, rfl⟩
    exact cut?_size before after

/-- The text can be cut at the offset: it is no offset inside a character or beyond the end. -/
def IsPlace (s : List Char) (offset : Nat) : Prop :=
  ∃ before after, s = before ++ after ∧ size before = offset

theorem isPlace_iff {s : List Char} {offset : Nat} :
    (cut? offset s).isSome = true ↔ IsPlace s offset := by
  rw [Option.isSome_iff_exists]
  constructor
  · rintro ⟨⟨before, after⟩, found⟩
    exact ⟨before, after, cut?_eq_some_iff.mp found⟩
  · rintro ⟨before, after, parts⟩
    exact ⟨(before, after), cut?_eq_some_iff.mpr parts⟩

theorem IsPlace.le_size {text : List Char} {offset : Nat} (place : IsPlace text offset) :
    offset ≤ size text := by
  obtain ⟨before, after, rfl, rfl⟩ := place
  rw [size_append]
  exact Nat.le_add_right _ _

instance (s : List Char) (offset : Nat) : Decidable (IsPlace s offset) :=
  decidable_of_iff _ isPlace_iff

/-! ### Ends -/

theorem isBlank_of_isAlphanum {c : Char} (letter : c.isAlphanum = true) : isBlank c = false := by
  delta Char.isAlphanum Char.isAlpha Char.isUpper Char.isLower Char.isDigit at letter
  have code : c.toNat = c.val.toNat := rfl
  simp only [Bool.or_eq_true, Bool.and_eq_true, decide_eq_true_eq, ge_iff_le,
    UInt32.le_iff_toNat_le] at letter
  unfold isBlank
  simp at letter ⊢
  omega

section Ends

variable {p : Char → Bool}

theorem dropEndWhile_eq_rdropWhile (p : Char → Bool) (s : List Char) :
    dropEndWhile p s = s.rdropWhile p := rfl

theorem dropEndWhile_eq_self {s : List Char} (stays : ∀ c, s.getLast? = some c → p c = false) :
    dropEndWhile p s = s := by
  rw [dropEndWhile_eq_rdropWhile, List.rdropWhile_eq_self_iff]
  intro nonempty
  exact Bool.eq_false_iff.mp (stays _ (List.getLast?_eq_some_getLast nonempty))

theorem getLast?_dropEndWhile {s : List Char} {c : Char}
    (last : (dropEndWhile p s).getLast? = some c) : p c = false := by
  obtain ⟨nonempty, rfl⟩ := List.mem_getLast?_eq_getLast last
  exact Bool.eq_false_iff.mpr (List.rdropWhile_last_not p s nonempty)

theorem exists_dropEndWhile (p : Char → Bool) (s : List Char) :
    ∃ t, s = dropEndWhile p s ++ t ∧ ∀ c ∈ t, p c = true :=
  ⟨s.rtakeWhile p, (List.rdropWhile_append_rtakeWhile ..).symm, fun _ => List.mem_rtakeWhile_imp⟩

/-- Removed characters at the end of a text make no difference. -/
theorem dropEndWhile_append_right {t : List Char} (removed : ∀ c ∈ t, p c = true) (s : List Char) :
    dropEndWhile p (s ++ t) = dropEndWhile p s := by
  unfold dropEndWhile
  rw [List.reverse_append, List.dropWhile_append_of_pos fun c member =>
    removed c (List.mem_reverse.mp member)]

/-- A tail of removed characters goes, up to the last character that stays. -/
theorem dropEndWhile_append {s t : List Char} (removed : ∀ c ∈ t, p c = true)
    (stays : ∀ c, s.getLast? = some c → p c = false) : dropEndWhile p (s ++ t) = s := by
  rw [dropEndWhile_append_right removed, dropEndWhile_eq_self stays]

/-- What stays at the end of a text stays behind whatever ends in a character that stays. -/
theorem dropEndWhile_append_left {s : List Char}
    (stays : ∀ c, s.getLast? = some c → p c = false) (t : List Char) :
    dropEndWhile p (s ++ t) = s ++ dropEndWhile p t := by
  obtain ⟨removed, split, all⟩ := exists_dropEndWhile p t
  have last : ∀ c, (s ++ dropEndWhile p t).getLast? = some c → p c = false := by
    intro c last
    rcases List.eq_nil_or_concat' (dropEndWhile p t) with none | ⟨front, final, concat⟩
    · rw [none, List.append_nil] at last
      exact stays c last
    · rw [concat, ← List.append_assoc, List.getLast?_concat] at last
      exact getLast?_dropEndWhile (s := t) (by rw [concat, List.getLast?_concat, last])
  calc dropEndWhile p (s ++ t) = dropEndWhile p (s ++ dropEndWhile p t ++ removed) := by
        rw [List.append_assoc, ← split]
    _ = s ++ dropEndWhile p t := dropEndWhile_append all last

/-- Blanks around a text make no difference once it is trimmed. -/
theorem trim_append {before after : List Char} (blankBefore : ∀ c ∈ before, isBlank c = true)
    (blankAfter : ∀ c ∈ after, isBlank c = true) (s : List Char) :
    trim (before ++ s ++ after) = trim s := by
  unfold trim trimStart
  rw [List.append_assoc, List.dropWhile_append_of_pos blankBefore, List.dropWhile_append]
  split
  · rename_i none
    rw [List.isEmpty_iff.mp none, List.dropWhile_eq_nil_iff.mpr blankAfter]
  · exact dropEndWhile_append_right blankAfter _

/-- Text between two characters that are not blank stays as it is. -/
theorem trim_eq_self {s : List Char} (first : ∀ c, s.head? = some c → isBlank c = false)
    (last : ∀ c, s.getLast? = some c → isBlank c = false) : trim s = s := by
  have start : trimStart s = s := by
    cases s with
    | nil => rfl
    | cons c rest => exact List.dropWhile_cons_of_neg (by simp [first c rfl])
  rw [trim, start, trimEnd, dropEndWhile_eq_self last]

theorem isPrefix_trim (s : List Char) : trim s <+: trimStart s := by
  obtain ⟨removed, split, -⟩ := exists_dropEndWhile isBlank (trimStart s)
  exact ⟨removed, split.symm⟩

/-- Trimming leaves a part of a text. -/
theorem isInfix_trim (s : List Char) : trim s <:+: s :=
  (isPrefix_trim s).isInfix.trans (List.dropWhile_suffix isBlank).isInfix

theorem trim_trim (s : List Char) : trim (trim s) = trim s := by
  refine trim_eq_self (fun c first => ?_) fun c last => getLast?_dropEndWhile last
  obtain ⟨rest, trim_eq⟩ := List.head?_eq_some_iff.mp first
  obtain ⟨removed, start_eq⟩ := isPrefix_trim s
  have stays := List.head?_dropWhile_not isBlank s
  rw [trim_eq, List.cons_append] at start_eq
  rwa [← trimStart, ← start_eq] at stays

theorem hasInfix_iff {piece s : List Char} : hasInfix piece s = true ↔ piece <:+: s := by
  induction s with
  | nil => simp [hasInfix]
  | cons c rest ih =>
    rw [hasInfix, Bool.or_eq_true, List.isPrefixOf_iff_prefix, ih, List.infix_cons_iff]

theorem hasInfix_self (s : List Char) : hasInfix s s = true :=
  hasInfix_iff.mpr List.infix_rfl

end Ends

/-! ### Pieces at the start -/

theorem isPrefixOf?_append (piece after : List Char) :
    List.isPrefixOf? piece (piece ++ after) = some after :=
  List.isPrefixOf?_eq_some_iff_append_eq.mpr rfl

/-- A piece is not looked for behind a character that it does not hold. -/
theorem prefix_of_prefix_append {piece s t : List Char} (here : piece <+: s ++ t)
    (absent : ∀ c, t.head? = some c → c ∉ piece) : piece <+: s := by
  induction s generalizing piece with
  | nil =>
    cases piece with
    | nil => exact List.nil_prefix
    | cons p more =>
      obtain ⟨rest, rfl⟩ := here
      exact (absent p rfl List.mem_cons_self).elim
  | cons c s ih =>
    cases piece with
    | nil => exact List.nil_prefix
    | cons p more =>
      rw [List.cons_append, List.cons_prefix_cons] at here
      exact List.cons_prefix_cons.mpr ⟨here.1,
        ih here.2 fun c first member => absent c first (List.mem_cons_of_mem _ member)⟩

/-- What does not hold a piece is passed over, if the piece cannot begin in it and end behind it. -/
theorem upTo_append {piece s t : List Char} (none : hasInfix piece s = false)
    (absent : ∀ c, t.head? = some c → c ∉ piece) : upTo piece (s ++ t) = s ++ upTo piece t := by
  induction s with
  | nil => rfl
  | cons c rest ih =>
    rw [hasInfix, Bool.or_eq_false_iff] at none
    have notHere : ¬ piece.isPrefixOf (c :: rest ++ t) = true := fun here => by
      have inside := prefix_of_prefix_append (List.isPrefixOf_iff_prefix.mp here) absent
      rw [List.isPrefixOf_iff_prefix.mpr inside] at none
      cases none.1
    rw [List.cons_append] at notHere ⊢
    rw [upTo, if_neg notHere, ih none.2, List.cons_append]

/-- A text that does not hold the first character of a piece is passed over. -/
theorem upTo_append_of_notMem {p : Char} {s : List Char} (absent : p ∉ s) (piece t : List Char) :
    upTo (p :: piece) (s ++ t) = s ++ upTo (p :: piece) t := by
  induction s with
  | nil => rfl
  | cons c rest ih =>
    rw [List.mem_cons, not_or] at absent
    rw [List.cons_append, upTo, if_neg (by simp [absent.1]), ih absent.2, List.cons_append]

theorem isPrefix_upTo (piece s : List Char) : upTo piece s <+: s := by
  induction s with
  | nil => exact List.nil_prefix
  | cons c rest ih =>
    rw [upTo]
    split
    · exact List.nil_prefix
    · exact (List.cons_prefix_cons).mpr ⟨rfl, ih⟩

/-- What stands before the first occurrence of a piece does not hold it. -/
theorem hasInfix_upTo {piece : List Char} (nonempty : piece ≠ []) (s : List Char) :
    hasInfix piece (upTo piece s) = false := by
  rw [Bool.eq_false_iff, ne_eq, hasInfix_iff]
  induction s with
  | nil => simpa [upTo] using nonempty
  | cons c rest ih =>
    by_cases here : piece <+: c :: rest
    · rw [upTo, if_pos (List.isPrefixOf_iff_prefix.mpr here)]
      simpa using nonempty
    · rw [upTo, if_neg (mt List.isPrefixOf_iff_prefix.mp here), List.infix_cons_iff]
      rintro (first | later)
      · exact here (first.trans (List.cons_prefix_cons.mpr ⟨rfl, isPrefix_upTo piece rest⟩))
      · exact ih later

/-! ### Lines -/

/-- A new line begins at the end of the text. -/
def WholeLines (s : List Char) : Prop :=
  s = [] ∨ s.getLast? = some '\n'

instance (s : List Char) : Decidable (WholeLines s) :=
  inferInstanceAs (Decidable (_ ∨ _))

theorem wholeLines_newline (s : List Char) : WholeLines (s ++ ['\n']) := .inr (by simp)

theorem WholeLines.append {s t : List Char} (first : WholeLines s) (second : WholeLines t) :
    WholeLines (s ++ t) := by
  rcases second with rfl | second
  · rwa [List.append_nil]
  · refine .inr ?_
    rw [List.getLast?_append, second]
    rfl

theorem WholeLines.right {s t : List Char} (whole : WholeLines (s ++ t)) : WholeLines t := by
  by_cases none : t = []
  · exact .inl none
  · rcases whole with empty | last
    · exact .inl (List.append_eq_nil_iff.mp empty).2
    · rw [List.getLast?_append_of_ne_nil _ none] at last
      exact .inr last

theorem lines_newline_cons (s : List Char) : lines ('\n' :: s) = ['\n'] :: lines s := by
  simp [lines]

theorem lines_cons {c : Char} (inside : c ≠ '\n') (s : List Char) :
    lines (c :: s) = (c :: (lines s).headD []) :: (lines s).tail := by
  rw [lines, if_neg inside]
  cases lines s <;> rfl

theorem lines_eq_nil {s : List Char} (none : lines s = []) : s = [] := by
  cases s with
  | nil => rfl
  | cons c rest =>
    by_cases newline : c = '\n'
    · rw [newline, lines_newline_cons] at none
      cases none
    · rw [lines_cons newline] at none
      cases none

/-- The lines put together are the text. -/
theorem flatten_lines (s : List Char) : (lines s).flatten = s := by
  induction s with
  | nil => rfl
  | cons c rest ih =>
    by_cases newline : c = '\n'
    · rw [newline, lines_newline_cons, List.flatten_cons, ih]
      rfl
    · rw [lines_cons newline]
      cases lines_rest : lines rest with
      | nil =>
        rw [lines_eq_nil lines_rest]
        rfl
      | cons line more =>
        rw [lines_rest] at ih
        show c :: (line ++ more.flatten) = c :: rest
        rw [← ih, List.flatten_cons]

/-- **Whole lines** are cut into lines apart from what follows them. -/
theorem lines_append {s : List Char} (whole : WholeLines s) (t : List Char) :
    lines (s ++ t) = lines s ++ lines t := by
  induction s with
  | nil => rfl
  | cons c rest ih =>
    have tail : WholeLines rest := WholeLines.right (show WholeLines ([c] ++ rest) from whole)
    by_cases newline : c = '\n'
    · subst newline
      rw [List.cons_append, lines_newline_cons, lines_newline_cons, ih tail]
      rfl
    · have nonempty : rest ≠ [] := by
        rintro rfl
        rcases whole with none | last
        · cases none
        · exact newline (by simpa using last)
      have some : lines rest ≠ [] := fun none => nonempty (lines_eq_nil none)
      rw [List.cons_append, lines_cons newline, lines_cons newline, ih tail]
      cases lines_rest : lines rest with
      | nil => exact absurd lines_rest some
      | cons line more => rfl

/-- The text that follows a line does not belong to it. -/
def IsLine (line later : List Char) : Prop :=
  lines (line ++ later) = line :: lines later

/-- **A line** has no newline but at its end, and has one there unless it is the last one. -/
theorem isLine_iff {line later : List Char} :
    IsLine line later ↔
      line ≠ [] ∧ '\n' ∉ line.dropLast ∧ (later = [] ∨ line.getLast? = some '\n') := by
  unfold IsLine
  induction line with
  | nil =>
    have longer : lines later ≠ [] :: lines later := fun same => by
      simpa using congrArg List.length same
    simp [longer]
  | cons c rest ih =>
    by_cases newline : c = '\n'
    · subst newline
      rw [List.cons_append, lines_newline_cons]
      cases rest <;> simp
    · rw [List.cons_append, lines_cons newline]
      cases rest with
      | nil =>
        cases later with
        | nil => simp [lines]
        | cons d more =>
          have some : lines (d :: more) ≠ [] := fun none => by cases lines_eq_nil none
          obtain ⟨line, others, lines_eq⟩ := List.exists_cons_of_ne_nil some
          simp [lines_eq, newline]
      | cons d more =>
        have some : lines (d :: more ++ later) ≠ [] := fun none => by cases lines_eq_nil none
        obtain ⟨line, others, lines_eq⟩ := List.exists_cons_of_ne_nil some
        rw [lines_eq] at ih ⊢
        simp only [List.headD_cons, List.tail_cons, List.cons.injEq, true_and] at ih ⊢
        rw [ih]
        simp [Ne.symm newline]

theorem IsLine.wholeLines {line later : List Char} (isLine : IsLine line later)
    (more : later ≠ []) : WholeLines line :=
  .inr ((isLine_iff.mp isLine).2.2.resolve_left more)

theorem exists_isLine {s : List Char} (nonempty : s ≠ []) :
    ∃ line later, s = line ++ later ∧ IsLine line later := by
  induction s with
  | nil => exact absurd rfl nonempty
  | cons c rest ih =>
    by_cases newline : c = '\n'
    · subst newline
      exact ⟨['\n'], rest, rfl, lines_newline_cons rest⟩
    · by_cases last : rest = []
      · subst last
        exact ⟨[c], [], rfl, isLine_iff.mpr (by simp)⟩
      · obtain ⟨line, later, rfl, isLine⟩ := ih last
        obtain ⟨nonempty, inside, ends⟩ := isLine_iff.mp isLine
        obtain ⟨d, more, rfl⟩ := List.exists_cons_of_ne_nil nonempty
        refine ⟨c :: d :: more, later, rfl, isLine_iff.mpr ⟨by simp, ?_, by simpa using ends⟩⟩
        simpa [Ne.symm newline] using inside

theorem IsLine.lines_eq {line : List Char} (last : IsLine line []) : lines line = [line] := by
  rwa [IsLine, List.append_nil] at last

/-- A text without a newline, and the newline that ends it, are one line. -/
theorem lines_line {s : List Char} (inside : '\n' ∉ s) : lines (s ++ ['\n']) = [s ++ ['\n']] :=
  (isLine_iff.mpr (by simp [inside])).lines_eq

/-- The last line of a text begins where a new line may begin. -/
theorem exists_lastLine (s : List Char) :
    ∃ earlier, s = earlier ++ (s.reverse.takeWhile (· != '\n')).reverse ∧ WholeLines earlier := by
  refine ⟨(s.reverse.dropWhile (· != '\n')).reverse, ?_, ?_⟩
  · rw [← List.reverse_append, List.takeWhile_append_dropWhile, List.reverse_reverse]
  · cases rest : s.reverse.dropWhile (· != '\n') with
    | nil => exact .inl rfl
    | cons c more =>
      have newline := List.head?_dropWhile_not (· != '\n') s.reverse
      rw [rest] at newline
      refine .inr ?_
      rw [List.getLast?_reverse, List.head?_cons]
      simpa using newline

/-- The first line of a text ends with a newline, or with the text. -/
theorem exists_firstLine (s : List Char) :
    ∃ ending later, s = s.takeWhile (· != '\n') ++ ending ++ later ∧
      (ending = [] ∨ ending = ['\n']) ∧
      size ending = if (s.takeWhile (· != '\n')).length < s.length then 1 else 0 := by
  have parts : s.takeWhile (· != '\n') ++ s.dropWhile (· != '\n') = s :=
    List.takeWhile_append_dropWhile
  cases rest : s.dropWhile (· != '\n') with
  | nil =>
    rw [rest, List.append_nil] at parts
    exact ⟨[], [], by simp [parts], .inl rfl, by rw [if_neg (by rw [parts]; omega)]; rfl⟩
  | cons c later =>
    have newline : c = '\n' := by
      have := List.head?_dropWhile_not (· != '\n') s
      rw [rest] at this
      simpa using this
    rw [rest, newline] at parts
    refine ⟨['\n'], later, by rw [List.append_assoc]; exact parts.symm, .inr rfl, ?_⟩
    have shorter := congrArg List.length parts
    simp only [List.length_append, List.length_cons] at shorter
    rw [if_pos (by omega)]
    rfl

end ScriptLint.Text
