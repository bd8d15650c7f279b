/-
**The scanner on bytes.**

The directives of a text can be found by going through its bytes, with the text cut only where a
comment or a raw string is to be closed and where a directive is taken apart. Some steps then end
inside a character: one byte of a wide character is passed at a time, and a backslash takes one byte
with it, whatever that byte belongs to. Here every cut has to be at a character boundary, or the
scanner has no result. It always has one, and the same as the scanner on characters.

* `Mode.turn?`, `Mode.advanceAt?` — one turn of the scanner inside a line, and all of them.
* `readLineAt?`, `scanAt?` — a line, and a text.
* `Mode.advanceAt?_append` — a scanner at a character boundary sees only what follows it.
* `Mode.advanceAt?_pass` — a character of which each byte is passed alone is passed.
* `Mode.Reads.advanceAt?_eq` — each move on characters is one turn, or several, or a part of one.
* `Mode.advanceAt?_eq`, `readLineAt?_eq`, `scanLinesAt?_eq` — no cut fails.
-/

import Mathlib.Data.List.Find
import ScriptLint.Proofs.Directive.Moves
import ScriptLint.Proofs.Text.Octets

namespace ScriptLint.Directive

/-! ### Going through the bytes of a line -/

/-- The byte behind a literal on one line, from byte `i` inside it. The backslash takes one byte
with it, so the byte may lie inside a character, and beyond the line. -/
def skipQuoted (line : List Char) (quote : Char) (i : Nat) : Nat :=
  if i < Text.size line then
    if Text.hasAt line i '\\' then
      skipQuoted line quote (i + 2)
    else if Text.hasAt line i quote then
      i + 1
    else
      skipQuoted line quote (i + 1)
  else
    i
termination_by Text.size line - i

/-- The number of quotes from byte `i` on. -/
def quotesAt (line : List Char) (i : Nat) : Nat :=
  (((Text.octets line).drop i).takeWhile (· == '"'.toUInt8)).length

namespace Mode

/-- A turn at byte `i` in a mode that lasts up to `closer`: the line is cut there, and what is cut
off is searched. -/
def seek? (mode : Mode) (closer line : List Char) (i : Nat) : Option (Mode × Nat) :=
  (Text.from? i line).map fun left =>
    match Text.offsetOf? closer left with
    | some n => (.code, i + n + Text.size closer)
    | none => (mode, Text.size line)

/-- A turn at byte `i` of a line: the mode after it, and the byte of the next turn, which is the end
of the line where the scanner need not look further. There is no result if a cut fails. -/
def turn? (mode : Mode) (line : List Char) (i : Nat) : Option (Mode × Nat) :=
  match mode with
  | .blockComment => seek? .blockComment ['*', '/'] line i
  | .raw quotes => seek? (.raw quotes) (List.replicate quotes '"') line i
  | .verbatim =>
    if Text.spells line i ['"', '"'] then
      some (.verbatim, i + 2)
    else if Text.spells line i ['"'] then
      some (.code, i + 1)
    else
      some (.verbatim, i + 1)
  | .code =>
    if Text.spells line i ['/', '/'] then
      some (.code, Text.size line)
    else if Text.spells line i ['/', '*'] then
      some (.blockComment, i + 2)
    else if let some opener := verbatimOpeners.find? (Text.spells line i) then
      some (.verbatim, i + opener.length)
    else if Text.spells line i ['"'] then
      if 3 ≤ quotesAt line i then
        some (.raw (quotesAt line i), i + quotesAt line i)
      else
        some (.code, skipQuoted line '"' (i + 1))
    else if Text.spells line i ['\''] then
      some (.code, skipQuoted line '\'' (i + 1))
    else
      some (.code, i + 1)

/-- The mode at the end of a line that is read from byte `i` on. A turn that does not go forward
would be taken forever, so it has no result either. -/
def advanceAt? (mode : Mode) (line : List Char) (i : Nat) : Option Mode :=
  if i < Text.size line then
    match mode.turn? line i with
    | some (next, j) => if i < j then next.advanceAt? line j else none
    | none => none
  else
    some mode
termination_by Text.size line - i

end Mode

/-- The directive written after a `#`, with the text cut at the end of the keyword and at a comment.
The outer `none` is a cut that fails, the inner one a word that makes no directive. -/
def ofLineAt? (position : Nat) (afterHash : List Char) : Option (Option Directive) := do
  let content := Text.trimStart afterHash
  let (keyword, tail) ← Text.cut? (Text.size (content.takeWhile isKeywordChar)) content
  match Kind.ofKeyword? (String.ofList keyword) with
  | none => pure none
  | some kind =>
    let shown ← match Text.offsetOf? ['/', '/'] tail with
      | none => pure tail
      | some n => (Text.cut? n tail).map Prod.fst
    let condition := Text.trim shown
    pure (some ⟨kind, if condition.isEmpty then none else some (String.ofList condition), position⟩)

/-- The directive of a line that begins at `offset`, and the mode after the line. Only a line that
begins in code is cut at its indent. -/
def readLineAt? (mode : Mode) (offset : Nat) (line : List Char) :
    Option (Option Directive × Mode) := do
  let body := lineBody line
  let indent := Text.size body - Text.size (Text.trimStart body)
  let content ← (if mode = .code then Text.from? indent body else some [])
  match content with
  | '#' :: afterHash => pure (← ofLineAt? (offset + indent) afterHash, mode)
  | _ => pure (none, ← mode.advanceAt? body 0)

/-- The directives of lines that begin at `offset` in `mode`. -/
def scanLinesAt? (mode : Mode) (offset : Nat) : List (List Char) → Option (List Directive)
  | [] => some []
  | line :: more => do
    let (directive, next) ← readLineAt? mode offset line
    let others ← scanLinesAt? next (offset + Text.size line) more
    pure (directive.toList ++ others)

/-- The directives of a text, if every cut is at a character boundary. -/
def scanAt? (text : String) : Option (List Directive) :=
  scanLinesAt? .code 0 (Text.lines text.toList)

/-! ### What follows a character boundary -/

theorem skipQuoted_append (before rest : List Char) (quote : Char) (k : Nat) :
    skipQuoted (before ++ rest) quote (Text.size before + k) =
      Text.size before + skipQuoted rest quote k := by
  fun_induction skipQuoted rest quote k with
  | case1 i here escape ih =>
    rw [skipQuoted, if_pos (Text.add_lt_size_append.mpr here), Text.hasAt_append, if_pos escape,
      Nat.add_assoc, ih]
  | case2 i here plain close =>
    rw [skipQuoted, if_pos (Text.add_lt_size_append.mpr here), Text.hasAt_append, if_neg plain,
      Text.hasAt_append, if_pos close, Nat.add_assoc]
  | case3 i here plain other ih =>
    rw [skipQuoted, if_pos (Text.add_lt_size_append.mpr here), Text.hasAt_append, if_neg plain,
      Text.hasAt_append, if_neg other, Nat.add_assoc, ih]
  | case4 i beyond => rw [skipQuoted, if_neg (mt Text.add_lt_size_append.mp beyond)]

theorem quotesAt_append (before rest : List Char) (k : Nat) :
    quotesAt (before ++ rest) (Text.size before + k) = quotesAt rest k := by
  rw [quotesAt, Text.drop_octets, quotesAt]

namespace Mode

theorem seek?_append (mode : Mode) (closer before rest : List Char) (k : Nat) :
    mode.seek? closer (before ++ rest) (Text.size before + k) =
      (mode.seek? closer rest k).map (Prod.map id (Text.size before + ·)) := by
  rw [seek?, seek?, Text.from?_append, Option.map_map]
  congr 1
  funext left
  rw [Function.comp_apply]
  cases Text.offsetOf? closer left with
  | none => simp
  | some n => simp [Nat.add_assoc]

theorem turn?_append (mode : Mode) (before rest : List Char) (k : Nat) :
    mode.turn? (before ++ rest) (Text.size before + k) =
      (mode.turn? rest k).map (Prod.map id (Text.size before + ·)) := by
  cases mode with
  | blockComment => exact seek?_append _ _ before rest k
  | raw quotes => exact seek?_append _ _ before rest k
  | verbatim =>
    simp only [turn?, Nat.add_assoc, Text.spells_append]
    split_ifs <;> rfl
  | code =>
    have openers : Text.spells (before ++ rest) (Text.size before + k) = Text.spells rest k :=
      funext (Text.spells_append before rest k)
    simp only [turn?, openers, Nat.add_assoc, quotesAt_append, skipQuoted_append, Text.size_append]
    cases verbatimOpeners.find? (Text.spells rest k) <;> split_ifs <;> rfl

/-- **A scanner at a character boundary** sees only what follows it. -/
theorem advanceAt?_append (mode : Mode) (before rest : List Char) (k : Nat) :
    mode.advanceAt? (before ++ rest) (Text.size before + k) = mode.advanceAt? rest k := by
  fun_induction advanceAt? mode rest k with
  | case1 mode i here next j turn forward ih =>
    rw [advanceAt?, if_pos (Text.add_lt_size_append.mpr here), turn?_append, turn]
    simp only [Option.map_some, Prod.map_apply, id_eq]
    rw [if_pos (Nat.add_lt_add_left forward _), ih]
  | case2 mode i here next j turn stuck =>
    rw [advanceAt?, if_pos (Text.add_lt_size_append.mpr here), turn?_append, turn]
    simp only [Option.map_some, Prod.map_apply, id_eq]
    rw [if_neg (by omega)]
  | case3 mode i here failed =>
    rw [advanceAt?, if_pos (Text.add_lt_size_append.mpr here), turn?_append, failed]
    rfl
  | case4 mode i beyond => rw [advanceAt?, if_neg (mt Text.add_lt_size_append.mp beyond)]

theorem advanceAt?_beyond (mode : Mode) {line : List Char} {i : Nat} (beyond : Text.size line ≤ i) :
    mode.advanceAt? line i = some mode := by
  rw [advanceAt?, if_neg (Nat.not_lt.mpr beyond)]

theorem advanceAt?_of_turn? {mode next : Mode} {line : List Char} {i j : Nat}
    (turn : mode.turn? line i = some (next, j)) (inside : i < Text.size line) (forward : i < j) :
    mode.advanceAt? line i = next.advanceAt? line j := by
  rw [advanceAt?, if_pos inside, turn]
  exact if_pos forward

/-- A turn that ends at a character boundary. -/
theorem advanceAt?_land {mode next : Mode} {read left : List Char} (nonempty : read ≠ [])
    (turn : mode.turn? (read ++ left) 0 = some (next, Text.size read)) :
    mode.advanceAt? (read ++ left) 0 = next.advanceAt? left 0 := by
  have forward := Text.size_pos nonempty
  rw [advanceAt?_of_turn? turn (by rw [Text.size_append]; omega) forward]
  exact next.advanceAt?_append read left 0

/-- A turn that ends the line. -/
theorem advanceAt?_finish {mode next : Mode} {line : List Char} {j : Nat} (nonempty : line ≠ [])
    (turn : mode.turn? line 0 = some (next, j)) (beyond : Text.size line ≤ j) :
    mode.advanceAt? line 0 = some next := by
  have forward := Text.size_pos nonempty
  rw [advanceAt?_of_turn? turn forward (by omega), next.advanceAt?_beyond beyond]

/-- **A character passed byte by byte.** -/
theorem advanceAt?_pass {mode : Mode} {c : Char} {left : List Char}
    (passes : ∀ k < c.utf8Size, mode.turn? (c :: left) k = some (mode, k + 1)) :
    mode.advanceAt? (c :: left) 0 = mode.advanceAt? left 0 := by
  have upTo (k : Nat) (inside : k ≤ c.utf8Size) :
      mode.advanceAt? (c :: left) 0 = mode.advanceAt? (c :: left) k := by
    induction k with
    | zero => rfl
    | succ k ih =>
      rw [ih (Nat.le_of_lt inside), advanceAt?_of_turn? (passes k inside) _ (Nat.lt_succ_self k)]
      rw [Text.size_cons]
      omega
  rw [upTo _ le_rfl]
  exact mode.advanceAt?_append [c] left 0

end Mode

/-! ### Literals on one line -/

/-- The bytes of a character from byte `k` on are skipped, if none is looked for. -/
theorem skipQuoted_pass {quote c : Char} {left : List Char} {k : Nat} (inside : k ≤ c.utf8Size)
    (plain : ∀ j, k ≤ j → j < c.utf8Size →
      Text.hasAt (c :: left) j '\\' = false ∧ Text.hasAt (c :: left) j quote = false) :
    skipQuoted (c :: left) quote k = c.utf8Size + skipQuoted left quote 0 := by
  induction remaining : c.utf8Size - k generalizing k with
  | zero =>
    obtain rfl : k = c.utf8Size := by omega
    exact skipQuoted_append [c] left quote 0
  | succ n ih =>
    obtain ⟨noEscape, noQuote⟩ := plain k le_rfl (by omega)
    rw [skipQuoted, if_pos (by rw [Text.size_cons]; omega), noEscape, noQuote]
    exact ih (by omega) (fun j after => plain j (by omega)) (by omega)

section Literal

variable {quote : Char}

theorem skipQuoted_plain {c : Char} (ascii : quote.toNat < 128) (different : c ≠ quote)
    (noEscape : c ≠ '\\') (left : List Char) :
    skipQuoted (c :: left) quote 0 = c.utf8Size + skipQuoted left quote 0 := by
  refine skipQuoted_pass (Nat.zero_le _) fun j _ inside => ⟨?_, ?_⟩
  · exact Text.hasAt_eq_false (by decide) inside fun _ => noEscape
  · exact Text.hasAt_eq_false ascii inside fun _ => different

/-- The character behind a backslash is skipped, although only its first byte goes with the
backslash. -/
theorem skipQuoted_escaped (ascii : quote.toNat < 128) (c : Char) (left : List Char) :
    skipQuoted ('\\' :: c :: left) quote 0 = 1 + c.utf8Size + skipQuoted left quote 0 := by
  have backslash : Text.hasAt ('\\' :: c :: left) 0 '\\' = true :=
    (Text.hasAt_cons_iff (by decide) (Char.utf8Size_pos _)).mpr ⟨rfl, rfl⟩
  rw [skipQuoted, if_pos (Text.size_pos (List.cons_ne_nil _ _)), if_pos backslash, Nat.add_assoc]
  refine (skipQuoted_append ['\\'] (c :: left) quote 1).trans (congrArg (1 + ·) ?_)
  -- From the second byte on, no byte of the character is one of ASCII.
  refine skipQuoted_pass c.utf8Size_pos fun j behind inside => ⟨?_, ?_⟩
  · exact Text.hasAt_eq_false (by decide) inside fun first => absurd first (by omega)
  · exact Text.hasAt_eq_false ascii inside fun first => absurd first (by omega)

example : skipQuoted ['\\', 'é', '"', 'x'] '"' 0 = 4 := by cbv

theorem Quoted.skipQuoted_append {body : List Char} (quoted : Quoted quote body)
    (ascii : quote.toNat < 128) (noEscape : quote ≠ '\\') (left : List Char) :
    skipQuoted (body ++ left) quote 0 = Text.size body := by
  induction quoted with
  | close =>
    have plain : Text.hasAt ([quote] ++ left) 0 '\\' = false := by
      rw [Text.hasAt_zero (by decide)]
      simpa using noEscape
    have closes : Text.hasAt ([quote] ++ left) 0 quote = true := by
      rw [Text.hasAt_zero ascii]
      simp
    have inside : 0 < Text.size ([quote] ++ left) := Text.size_pos (List.cons_ne_nil _ _)
    rw [skipQuoted, if_pos inside, plain, closes, Text.size_cons, Text.utf8Size_of_ascii ascii]
    rfl
  | escaped c _ ih =>
    rw [List.cons_append, List.cons_append, skipQuoted_escaped ascii, ih, Text.size_cons,
      Text.size_cons, Nat.add_assoc]
    rfl
  | plain different noEscape _ ih =>
    rw [List.cons_append, skipQuoted_plain ascii different noEscape, ih, Text.size_cons]

theorem Unclosed.size_le_skipQuoted {s : List Char} (unclosed : Unclosed quote s)
    (ascii : quote.toNat < 128) : Text.size s ≤ skipQuoted s quote 0 := by
  induction unclosed with
  | nil => exact Nat.zero_le _
  | backslash =>
    have backslash : Text.hasAt ['\\'] 0 '\\' = true := by decide
    rw [skipQuoted, if_pos (by decide), if_pos backslash, skipQuoted, if_neg (by decide)]
    decide
  | escaped c _ ih =>
    rw [skipQuoted_escaped ascii, Text.size_cons, Text.size_cons]
    have one : '\\'.utf8Size = 1 := rfl
    omega
  | plain different noEscape _ ih =>
    rw [skipQuoted_plain ascii different noEscape, Text.size_cons]
    omega

end Literal

/-- Quotes counted in bytes. -/
theorem quotesAt_zero (s : List Char) : quotesAt s 0 = (s.takeWhile (· == '"')).length := by
  rw [quotesAt, List.drop_zero]
  induction s with
  | nil => rfl
  | cons c rest ih =>
    by_cases isQuote : c = '"'
    · subst isQuote
      rw [Text.octets_cons, Text.utf8EncodeChar_of_ascii (by decide), List.singleton_append,
        List.takeWhile_cons_of_pos (by simp), List.takeWhile_cons_of_pos (by simp),
        List.length_cons, ih, List.length_cons]
    · have other : Text.hasAt (c :: rest) 0 '"' = false := by
        rw [Text.hasAt_zero (by decide)]
        simpa using isQuote
      rw [Text.hasAt] at other
      rw [List.takeWhile_cons_of_neg (by simpa using isQuote)]
      cases octets : Text.octets (c :: rest) with
      | nil => rfl
      | cons octet more =>
        rw [octets, List.getElem?_cons_zero] at other
        rw [List.takeWhile_cons_of_neg (by simpa using other)]
        rfl

theorem three_le_quotesAt {s : List Char} : 3 ≤ quotesAt s 0 ↔ ['"', '"', '"'] <+: s := by
  rw [quotesAt_zero]
  constructor
  · intro many
    have three : ['"', '"', '"'] <+: s.takeWhile (· == '"') := by
      rw [← replicate_takeWhile_quote s]
      exact List.prefix_replicate_iff.mpr ⟨many, rfl⟩
    exact three.trans (List.takeWhile_prefix _)
  · rintro ⟨after, rfl⟩
    simp

/-! ### The moves, in bytes -/

namespace Mode

section Seek

variable {mode : Mode} {closer : List Char}
  (seeks : ∀ line i, mode.turn? line i = mode.seek? closer line i)

include seeks

theorem advanceAt?_absent {s : List Char} (absent : Text.offsetOf? closer s = none) :
    mode.advanceAt? s 0 = some mode := by
  by_cases empty : s = []
  · subst empty
    exact mode.advanceAt?_beyond le_rfl
  · refine advanceAt?_finish empty ?_ (le_refl (Text.size s))
    rw [seeks, seek?, Text.from?_zero, Option.map_some, absent]

variable (nonempty : closer ≠ [])

include nonempty

theorem advanceAt?_found {s : List Char} {n : Nat} (found : Text.offsetOf? closer s = some n) :
    mode.advanceAt? s 0 = Mode.code.advanceAt? s (n + Text.size closer) := by
  have turn : mode.turn? s 0 = some (.code, n + Text.size closer) := by
    rw [seeks, seek?, Text.from?_zero, Option.map_some, found]
    simp
  have forward := Text.size_pos nonempty
  refine advanceAt?_of_turn? turn (Text.size_pos ?_) (by omega)
  rintro rfl
  rw [Text.offsetOf?, if_neg nonempty] at found
  cases found

theorem advanceAt?_close (left : List Char) :
    mode.advanceAt? (closer ++ left) 0 = Mode.code.advanceAt? left 0 := by
  rw [advanceAt?_found seeks nonempty (Text.offsetOf?_append closer left), Nat.zero_add]
  exact Mode.code.advanceAt?_append closer left 0

/-- A search goes on behind a character as it would begin there. -/
theorem advanceAt?_inside {c : Char} {left : List Char} (other : ¬ closer <+: c :: left) :
    mode.advanceAt? (c :: left) 0 = mode.advanceAt? left 0 := by
  have offset := Text.offsetOf?_cons other
  cases found : Text.offsetOf? closer left with
  | none =>
    rw [found, Option.map_none] at offset
    rw [advanceAt?_absent seeks found, advanceAt?_absent seeks offset]
  | some n =>
    rw [found, Option.map_some] at offset
    rw [advanceAt?_found seeks nonempty found, advanceAt?_found seeks nonempty offset,
      Nat.add_assoc]
    exact Mode.code.advanceAt?_append [c] left (n + Text.size closer)

end Seek

/-- Where nothing opens, code is passed. -/
theorem turn?_alone {line : List Char} {i : Nat}
    (free : ∀ piece ∈ codeOpeners, Text.spells line i piece = false) :
    Mode.code.turn? line i = some (.code, i + 1) := by
  simp only [codeOpeners, List.forall_mem_cons] at free
  obtain ⟨comment, block, string, character, verbatim⟩ := free
  have noOpener : verbatimOpeners.find? (Text.spells line i) = none := by
    rw [List.find?_eq_none]
    intro opener member
    simp [verbatim opener member]
  simp [turn?, comment, block, string, character, noOpener]

/-- The mode of a string that at least one quote closes. -/
def Fenced : Mode → Prop
  | .raw quotes => 0 < quotes
  | _ => True

end Mode

theorem Move.fenced {mode next : Mode} {read : List Char} {barred : List (List Char)}
    (move : Move mode read next barred) (fenced : mode.Fenced) : next.Fenced := by
  cases move with
  | rawInside => exact fenced
  | openRaw more => exact Nat.add_pos_left (by decide) more
  | _ => trivial

/-- A raw string that some quotes close lasts up to its fence. -/
theorem Mode.seeks_fence {quotes : Nat} (fenced : (Mode.raw quotes).Fenced) (line : List Char)
    (i : Nat) : (Mode.raw quotes).turn? line i = (Mode.raw quotes).seek? (fence quotes) line i := by
  rw [turn?, fence_eq fenced]

/-- No move is barred inside a character. -/
theorem spells_eq_false {pieces : List (List Char)} {c : Char} {left : List Char}
    (free : ∀ piece ∈ pieces, ¬ piece <+: c :: left)
    (ascii : ∀ piece ∈ pieces, Text.isAscii piece = true ∧ piece ≠ []) {k : Nat}
    (inside : k < c.utf8Size) : ∀ piece ∈ pieces, Text.spells (c :: left) k piece = false := by
  intro piece member
  obtain ⟨low, nonempty⟩ := ascii piece member
  rw [Bool.eq_false_iff, ne_eq, Text.spells_cons_iff low nonempty inside]
  exact fun found => free piece member found.2

theorem Mode.advanceAt?_alone {c : Char} {left : List Char}
    (free : ∀ piece ∈ codeOpeners, ¬ piece <+: c :: left) :
    Mode.code.advanceAt? (c :: left) 0 = Mode.code.advanceAt? left 0 := by
  have ascii : ∀ piece ∈ codeOpeners, Text.isAscii piece = true ∧ piece ≠ [] := by decide
  exact advanceAt?_pass fun k inside => turn?_alone (spells_eq_false free ascii inside)

theorem Mode.advanceAt?_verbatimInside {c : Char} {left : List Char}
    (other : ¬ ['"'] <+: c :: left) :
    Mode.verbatim.advanceAt? (c :: left) 0 = Mode.verbatim.advanceAt? left 0 := by
  refine advanceAt?_pass fun k inside => ?_
  have string : Text.spells (c :: left) k ['"'] = false :=
    spells_eq_false (by simpa using other) (by decide) inside ['"'] (List.mem_singleton_self _)
  have doubled : Text.spells (c :: left) k ['"', '"'] = false := by
    rw [Text.spells, Text.spells, Bool.and_true] at string
    rw [Text.spells, string, Bool.false_and]
  rw [turn?, doubled, string]
  rfl

theorem find?_verbatimOpeners (s : List Char) :
    verbatimOpeners.find? (Text.spells s 0) = verbatimOpeners.find? (·.isPrefixOf s) := by
  have ascii : ∀ opener ∈ verbatimOpeners, Text.isAscii opener = true := by decide
  exact List.find?_congr fun opener member => Text.spells_zero (ascii opener member) s

theorem Mode.turn?_opener {opener : List Char} (opens : opener ∈ verbatimOpeners)
    (left : List Char) :
    Mode.code.turn? (opener ++ left) 0 = some (.verbatim, Text.size opener) := by
  simp only [verbatimOpeners, List.mem_cons, List.not_mem_nil, or_false] at opens
  rw [turn?, Text.spells_zero rfl, Text.spells_zero rfl, find?_verbatimOpeners]
  rcases opens with rfl | rfl | rfl | rfl | rfl <;> rfl

/-- A quote in code opens a raw string or a literal on one line. -/
theorem Mode.turn?_string (rest : List Char) :
    Mode.code.turn? ('"' :: rest) 0 =
      if 3 ≤ quotesAt ('"' :: rest) 0 then
        some (.raw (quotesAt ('"' :: rest) 0), quotesAt ('"' :: rest) 0)
      else
        some (.code, 1 + skipQuoted rest '"' 0) := by
  have skip : skipQuoted ('"' :: rest) '"' 1 = 1 + skipQuoted rest '"' 0 :=
    skipQuoted_append ['"'] rest '"' 0
  rw [turn?, Text.spells_zero rfl, Text.spells_zero rfl, find?_verbatimOpeners,
    Text.spells_zero rfl, Nat.zero_add, Nat.zero_add, skip]
  rfl

theorem Mode.turn?_raw {left : List Char} (ends : ¬ ['"'] <+: left) (more : Nat) :
    Mode.code.turn? ('"' :: '"' :: '"' :: List.replicate more '"' ++ left) 0 =
      some (.raw (3 + more), 3 + more) := by
  have quotes : quotesAt ('"' :: '"' :: '"' :: List.replicate more '"' ++ left) 0 = 3 + more := by
    have run := (takeWhile_fence ends (more + 3)).1
    rw [quotesAt_zero]
    refine (congrArg List.length run).trans ?_
    rw [List.length_replicate, Nat.add_comm]
  rw [List.cons_append, turn?_string, ← List.cons_append, quotes, if_pos (by omega)]

theorem Mode.turn?_quote {quote : Char} {rest : List Char} (isQuote : quote = '"' ∨ quote = '\'')
    (noRaw : ¬ ['"', '"', '"'] <+: quote :: rest) :
    Mode.code.turn? (quote :: rest) 0 = some (.code, 1 + skipQuoted rest quote 0) := by
  rcases isQuote with rfl | rfl
  · rw [turn?_string, if_neg (mt three_le_quotesAt.mp noRaw)]
  · have skip : skipQuoted ('\'' :: rest) '\'' 1 = 1 + skipQuoted rest '\'' 0 :=
      skipQuoted_append ['\''] rest '\'' 0
    rw [turn?, Text.spells_zero rfl, Text.spells_zero rfl, find?_verbatimOpeners,
      Text.spells_zero rfl, Text.spells_zero rfl, Nat.zero_add, skip]
    rfl

theorem size_replicate_quote (n : Nat) : Text.size (List.replicate n '"') = n := by
  induction n with
  | zero => rfl
  | succ n ih =>
    rw [List.replicate_succ, Text.size_cons, ih, Nat.add_comm]
    rfl

theorem quote_ascii {quote : Char} (isQuote : quote = '"' ∨ quote = '\'') :
    quote.toNat < 128 ∧ quote ≠ '\\' := by
  rcases isQuote with rfl | rfl <;> decide

/-- **Each move of the table** is made in bytes. -/
theorem Mode.Reads.advanceAt?_eq {mode next : Mode} {read left : List Char}
    (reads : mode.Reads read next left) (fenced : mode.Fenced) :
    mode.advanceAt? (read ++ left) 0 = next.advanceAt? left 0 := by
  obtain ⟨barred, move, free⟩ := reads
  cases move with
  | commentClose => exact advanceAt?_close (fun _ _ => rfl) (List.cons_ne_nil _ _) left
  | commentInside c =>
    exact advanceAt?_inside (fun _ _ => rfl) (List.cons_ne_nil _ _) (by simpa using free)
  | verbatimDoubled =>
    refine advanceAt?_land (List.cons_ne_nil _ _) ?_
    rw [turn?, Text.spells_zero rfl]
    rfl
  | verbatimClose =>
    have single : ¬ ['"', '"'] <+: ['"'] ++ left := by simpa using free
    rw [← List.isPrefixOf_iff_prefix] at single
    refine advanceAt?_land (List.cons_ne_nil _ _) ?_
    rw [turn?, Text.spells_zero rfl, Text.spells_zero rfl, if_neg single]
    rfl
  | verbatimInside c => exact advanceAt?_verbatimInside (by simpa using free)
  | rawClose quotes =>
    exact advanceAt?_close (seeks_fence fenced) (List.cons_ne_nil _ _) left
  | rawInside quotes c =>
    exact advanceAt?_inside (seeks_fence fenced) (List.cons_ne_nil _ _) (by simpa using free)
  | openComment =>
    refine advanceAt?_land (List.cons_ne_nil _ _) ?_
    rw [turn?, Text.spells_zero rfl, Text.spells_zero rfl]
    rfl
  | openVerbatim opens =>
    have nonempty := (Move.openVerbatim opens).read_ne_nil
    exact advanceAt?_land nonempty (turn?_opener opens left)
  | openRaw more =>
    have ends : ¬ ['"'] <+: left := by simpa [List.prefix_append_right_inj] using free
    refine advanceAt?_land (List.cons_ne_nil _ _) ?_
    rw [turn?_raw ends, ← size_replicate_quote (3 + more), Nat.add_comm 3 more]
    rfl
  | quoted isQuote closed =>
    obtain ⟨ascii, noEscape⟩ := quote_ascii isQuote
    refine advanceAt?_land (List.cons_ne_nil _ _) ?_
    rw [List.cons_append, turn?_quote isQuote (by simpa using free),
      closed.skipQuoted_append ascii noEscape, Text.size_cons, Text.utf8Size_of_ascii ascii]
  | alone c => exact advanceAt?_alone (by simpa using free)

theorem Skips.advanceAt?_eq {s : List Char} (skips : Skips s) :
    Mode.code.advanceAt? s 0 = some .code := by
  cases skips with
  | lineComment s =>
    refine Mode.advanceAt?_finish (List.cons_ne_nil _ _) ?_ (le_refl (Text.size ('/' :: '/' :: s)))
    rw [Mode.turn?, Text.spells_zero rfl]
    rfl
  | unclosed isQuote unclosed =>
    obtain ⟨ascii, -⟩ := quote_ascii isQuote
    have turn := Mode.turn?_quote isQuote unclosed.noRaw
    refine Mode.advanceAt?_finish (List.cons_ne_nil _ _) turn ?_
    rw [Text.size_cons, Text.utf8Size_of_ascii ascii]
    exact Nat.add_le_add_left (unclosed.size_le_skipQuoted ascii) 1

/-- **A line in bytes.** No cut fails, and the mode at the end is that of the scanner on
characters. -/
theorem Mode.advanceAt?_eq {mode : Mode} (fenced : mode.Fenced) (s : List Char) :
    mode.advanceAt? s 0 = some (mode.advance s) ∧ (mode.advance s).Fenced := by
  induction length : s.length using Nat.strongRecOn generalizing mode s with
  | ind n ih =>
    by_cases empty : s = []
    · subst empty
      rw [Mode.advance]
      exact ⟨mode.advanceAt?_beyond le_rfl, fenced⟩
    · rcases mode.reads_or_skips empty with ⟨read, next, left, rfl, reads⟩ | ⟨rfl, skips⟩
      · rw [reads.advanceAt?_eq fenced, reads.advance_eq]
        obtain ⟨barred, move, -⟩ := reads
        have := List.length_pos_iff.mpr move.read_ne_nil
        rw [List.length_append] at length
        exact ih left.length (by omega) (move.fenced fenced) left rfl
      · rw [skips.advanceAt?_eq, skips.advance_eq]
        exact ⟨rfl, trivial⟩

/-! ### Lines and texts -/

theorem ofLineAt?_eq (position : Nat) (afterHash : List Char) :
    ofLineAt? position afterHash = some (ofLine? position afterHash) := by
  set content := Text.trimStart afterHash with content_eq
  have word : Text.cut? (Text.size (content.takeWhile isKeywordChar)) content =
      some (content.takeWhile isKeywordChar, content.dropWhile isKeywordChar) :=
    Text.cut?_eq_some_iff.mpr ⟨List.takeWhile_append_dropWhile.symm, rfl⟩
  rw [ofLineAt?, ofLine?, ← content_eq]
  simp only [word, Option.bind_eq_bind, Option.bind_some]
  cases Kind.ofKeyword? (String.ofList (content.takeWhile isKeywordChar)) with
  | none => rfl
  | some kind =>
    simp only [Option.bind_some]
    cases found : Text.offsetOf? ['/', '/'] (content.dropWhile isKeywordChar) with
    | none => rw [Text.upTo_of_offsetOf? found]; rfl
    | some n =>
      obtain ⟨after, cut⟩ := Text.cut?_offsetOf? found
      simp only [cut]
      rfl

/-- The indent of a line is a character boundary. -/
theorem from?_indent (body : List Char) :
    Text.size body - Text.size (Text.trimStart body) = Text.size (body.takeWhile Text.isBlank) ∧
      Text.from? (Text.size (body.takeWhile Text.isBlank)) body = some (Text.trimStart body) := by
  have parts : body = body.takeWhile Text.isBlank ++ Text.trimStart body :=
    List.takeWhile_append_dropWhile.symm
  refine ⟨?_, Text.from?_eq_some_iff.mpr ⟨_, parts, rfl⟩⟩
  have sizes := congrArg Text.size parts
  rw [Text.size_append] at sizes
  omega

theorem readLineAt?_directive {mode : Mode} {line : List Char} (taken : IsDirectiveLine mode line)
    (offset : Nat) : readLineAt? mode offset line = some (readLine mode offset line) := by
  obtain ⟨indent_eq, cut⟩ := from?_indent (lineBody line)
  rw [readLine_directive taken]
  obtain ⟨rfl, hash⟩ := taken
  obtain ⟨content, trimmed⟩ : ∃ content, Text.trimStart (lineBody line) = '#' :: content :=
    List.head?_eq_some_iff.mp hash
  dsimp only [readLineAt?]
  rw [indent_eq, if_pos rfl, cut, trimmed, Option.bind_eq_bind, Option.bind_some, List.tail_cons]
  simp only [ofLineAt?_eq]
  rfl

theorem readLineAt?_other {mode : Mode} {line : List Char} (other : ¬ IsDirectiveLine mode line)
    (fenced : mode.Fenced) (offset : Nat) :
    readLineAt? mode offset line = some (readLine mode offset line) := by
  obtain ⟨indent_eq, cut⟩ := from?_indent (lineBody line)
  have advanced := (Mode.advanceAt?_eq fenced (lineBody line)).1
  rw [readLine_other other]
  dsimp only [readLineAt?]
  rw [indent_eq]
  by_cases code : mode = .code
  · rw [if_pos code, cut, Option.bind_eq_bind, Option.bind_some]
    split
    · rename_i content trimmed
      exact absurd ⟨code, by rw [trimmed]; rfl⟩ other
    · rw [advanced]
      rfl
  · rw [if_neg code, advanced]
    rfl

theorem Mode.fenced_afterLine {mode : Mode} (fenced : mode.Fenced) (line : List Char) :
    (mode.afterLine line).Fenced := by
  unfold Mode.afterLine
  split
  · trivial
  · exact (Mode.advanceAt?_eq fenced (lineBody line)).2

/-- **Reading a line** cuts no character. -/
theorem readLineAt?_eq {mode : Mode} (fenced : mode.Fenced) (offset : Nat) (line : List Char) :
    readLineAt? mode offset line = some (readLine mode offset line) := by
  by_cases taken : IsDirectiveLine mode line
  · exact readLineAt?_directive taken offset
  · exact readLineAt?_other taken fenced offset

theorem scanLinesAt?_eq {mode : Mode} (fenced : mode.Fenced) (offset : Nat)
    (lines : List (List Char)) :
    scanLinesAt? mode offset lines = some (scanLines mode offset lines) := by
  induction lines generalizing mode offset with
  | nil => rfl
  | cons line more ih =>
    have others := ih (Mode.fenced_afterLine fenced line) (offset + Text.size line)
    rw [← readLine_snd mode offset line] at others
    rw [scanLinesAt?, readLineAt?_eq fenced, scanLines, Option.bind_eq_bind, Option.bind_some]
    generalize readLine mode offset line = result at others ⊢
    obtain ⟨directive, next⟩ := result
    dsimp only at others ⊢
    rw [others]
    rfl

end ScriptLint.Directive
