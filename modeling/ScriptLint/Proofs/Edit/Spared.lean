/-
**What replacements leave of a text.**

* `leftFrom` — the characters that no replacement takes out; `spliceWithin` — a splice without what is
  put at its end.
* `getLast?_spliceWithin` — both end with the same character.
* `Spares` — replacements that leave a line alone; `FoundIn` — how such a line is found in a splice.
* `rows_spliceFrom` — the lines that are spared are found in the splice one after the other.
* `inked_spliceFrom` — when two splices agree up to blanks.
-/

import Mathlib.Data.List.Forall2
import ScriptLint.Proofs.Edit.Splice
import ScriptLint.Proofs.Text.Rows

namespace ScriptLint

namespace Replacement

variable {replacements : List Replacement} {offset : Nat}

/-! ### What is left of a text -/

/-- Some replacement takes out the character at the offset. -/
def covered (replacements : List Replacement) (offset : Nat) : Bool :=
  replacements.any (·.span.contains offset)

/-- The characters that no replacement takes out of a text that begins at `offset`. -/
def leftFrom (replacements : List Replacement) (offset : Nat) : List Char → List Char
  | [] => []
  | c :: rest =>
    (if covered replacements offset then [] else [c]) ++
      leftFrom replacements (offset + c.utf8Size) rest

/-- What the replacements make of a text that begins at `offset`, up to its end. -/
def spliceWithin (replacements : List Replacement) (offset : Nat) : List Char → List Char
  | [] => []
  | c :: rest =>
    insertedAt replacements offset ++ (if covered replacements offset then [] else [c]) ++
      spliceWithin replacements (offset + c.utf8Size) rest

theorem covered_iff :
    covered replacements offset = true ↔
      ∃ r ∈ replacements, r.span.start ≤ offset ∧ offset < r.span.stop := by
  simp [covered, Span.contains]

theorem spliceFrom_eq_within (s : List Char) :
    spliceFrom replacements offset s =
      spliceWithin replacements offset s ++ insertedAt replacements (offset + Text.size s) := by
  induction s generalizing offset with
  | nil => rfl
  | cons c rest ih =>
    rw [spliceFrom, spliceWithin, ih, Text.size_cons, Nat.add_assoc, List.append_assoc,
      List.append_assoc, List.append_assoc]
    rfl

theorem spliceWithin_append (s t : List Char) :
    spliceWithin replacements offset (s ++ t) =
      spliceWithin replacements offset s ++
        spliceWithin replacements (offset + Text.size s) t := by
  induction s generalizing offset with
  | nil => rfl
  | cons c rest ih =>
    rw [List.cons_append, spliceWithin, spliceWithin, ih, Text.size_cons, Nat.add_assoc,
      List.append_assoc, List.append_assoc, List.append_assoc]

theorem spliceFrom_append_within (s t : List Char) :
    spliceFrom replacements offset (s ++ t) =
      spliceWithin replacements offset s ++
        spliceFrom replacements (offset + Text.size s) t := by
  rw [spliceFrom_eq_within, spliceFrom_eq_within, spliceWithin_append, Text.size_append,
    Nat.add_assoc, List.append_assoc]

theorem leftFrom_append (s t : List Char) :
    leftFrom replacements offset (s ++ t) =
      leftFrom replacements offset s ++ leftFrom replacements (offset + Text.size s) t := by
  induction s generalizing offset with
  | nil => rfl
  | cons c rest ih =>
    rw [List.cons_append, leftFrom, leftFrom, ih, Text.size_cons, Nat.add_assoc,
      List.append_assoc]

/-- Nothing is left inside a span. -/
theorem leftFrom_eq_nil {r : Replacement} (member : r ∈ replacements) (s : List Char)
    (started : r.span.start ≤ offset) (notStopped : offset + Text.size s ≤ r.span.stop) :
    leftFrom replacements offset s = [] := by
  induction s generalizing offset with
  | nil => rfl
  | cons c rest ih =>
    have positive := c.utf8Size_pos
    rw [Text.size_cons] at notStopped
    have isCovered : covered replacements offset = true :=
      covered_iff.mpr ⟨r, member, started, by omega⟩
    rw [leftFrom, isCovered, ih (by omega) (by omega)]
    rfl

/-- Nothing happens where nothing is taken out and nothing is put in. -/
theorem left_within_eq_self (s : List Char)
    (spared : ∀ place, offset ≤ place → place < offset + Text.size s →
      covered replacements place = false ∧ insertedAt replacements place = []) :
    leftFrom replacements offset s = s ∧ spliceWithin replacements offset s = s := by
  induction s generalizing offset with
  | nil => exact ⟨rfl, rfl⟩
  | cons c rest ih =>
    have positive := c.utf8Size_pos
    rw [Text.size_cons] at spared
    obtain ⟨outside, none⟩ := spared offset (Nat.le_refl _) (by omega)
    obtain ⟨left, within⟩ : leftFrom replacements (offset + c.utf8Size) rest = rest ∧
        spliceWithin replacements (offset + c.utf8Size) rest = rest :=
      ih fun place notBefore inside => spared place (by omega) (by omega)
    rw [leftFrom, spliceWithin, outside, none, left, within]
    exact ⟨rfl, rfl⟩

/-- **What a splice ends with** is the last character left, if nothing is put where a character is
taken out. -/
theorem getLast?_spliceWithin
    (apart : ∀ place, covered replacements place = true → insertedAt replacements place = [])
    (s : List Char) :
    (spliceWithin replacements offset s).getLast? =
      (leftFrom replacements offset s).getLast? := by
  induction s generalizing offset with
  | nil => rfl
  | cons c rest ih =>
    rw [spliceWithin, leftFrom]
    cases isCovered : covered replacements offset with
    | true =>
      rw [apart offset isCovered]
      exact ih
    | false => simp [List.getLast?_append, List.getLast?_cons, ih]

/-! ### Lines in a splice -/

/-- The replacements neither take out nor put in anything at the offsets of the row. -/
def Spares (replacements : List Replacement) (row : Text.Row) : Prop :=
  ∀ place, row.Holds place →
    covered replacements place = false ∧ insertedAt replacements place = []

/-- How a row is found in a line of the splice: as its end, and as all of it exactly if what is left
before the row does not run on into it. -/
def FoundIn (replacements : List Replacement) (row : Text.Row) (line : List Char) : Prop :=
  row.line <:+ line ∧
    (line = row.line ↔ Text.WholeLines (leftFrom replacements 0 row.before))

theorem sublistForall₂_append_left {α β : Type} {R : α → β → Prop} {l : List α} {m : List β}
    (found : List.SublistForall₂ R l m) (front : List β) :
    List.SublistForall₂ R l (front ++ m) := by
  induction front with
  | nil => exact found
  | cons b rest ih => exact ih.cons_right

/-- **The lines that are spared** are found in the splice one after the other. Here `done` stands for
what has been made of the text before. -/
theorem rows_spliceFrom
    (apart : ∀ place, covered replacements place = true → insertedAt replacements place = [])
    (before rest done : List Char) {picked : List Text.Row}
    (among : picked.Sublist (Text.rowsFrom before (Text.lines rest)))
    (spared : ∀ row ∈ picked, Spares replacements row)
    (ends : Text.WholeLines done ↔ Text.WholeLines (leftFrom replacements 0 before)) :
    List.SublistForall₂ (FoundIn replacements) picked
      (Text.lines (done ++ spliceFrom replacements (Text.size before) rest)) := by
  induction rest using Text.lines_induction generalizing before done picked with
  | nil =>
    obtain rfl := List.sublist_nil.mp among
    exact .nil
  | line line later isLine ih =>
    have left_eq : leftFrom replacements 0 (before ++ line) =
        leftFrom replacements 0 before ++ leftFrom replacements (Text.size before) line := by
      rw [leftFrom_append, Nat.zero_add]
    rw [Text.rowsFrom_line isLine] at among
    rw [spliceFrom_append_within, ← Text.size_append]
    cases among with
    | cons _ among =>
      rw [← List.append_assoc]
      refine ih _ _ among spared ?_
      rw [left_eq]
      exact Text.wholeLines_append_of_getLast? ends (getLast?_spliceWithin apart line)
    | cons_cons _ among =>
      rename_i picked
      have here : Spares replacements ⟨before, line⟩ := spared _ List.mem_cons_self
      obtain ⟨left, within⟩ := left_within_eq_self line fun place notBefore inside =>
        here place ⟨notBefore, .inl (by rwa [Text.size_append])⟩
      obtain ⟨nonempty, alone, ended⟩ := Text.isLine_iff.mp isLine
      have single : Text.IsLine line [] := Text.isLine_iff.mpr ⟨nonempty, alone, .inl rfl⟩
      obtain ⟨front, start, lines_eq, start_iff⟩ := Text.exists_lines_append single done
      have found : FoundIn replacements ⟨before, line⟩ (start ++ line) := by
        refine ⟨List.suffix_append _ _, ?_⟩
        rw [← ends, ← start_iff]
        exact List.append_left_eq_self
      rw [within]
      by_cases newline : line.getLast? = some '\n'
      · have whole : Text.WholeLines (done ++ line) := by
          refine .inr ?_
          rw [List.getLast?_append_of_ne_nil _ nonempty, newline]
        have onward : List.SublistForall₂ (FoundIn replacements) picked
            (Text.lines ([] ++ spliceFrom replacements (Text.size (before ++ line)) later)) := by
          refine ih _ _ among (fun row member => spared row (List.mem_cons_of_mem _ member)) ?_
          rw [left_eq, left]
          refine iff_of_true (.inl rfl) (.inr ?_)
          rw [List.getLast?_append_of_ne_nil _ nonempty, newline]
        rw [← List.append_assoc, Text.lines_append whole, lines_eq, List.append_assoc]
        exact sublistForall₂_append_left (.cons found onward) front
      · -- A line without a newline is the last one, and nothing is put at its end.
        obtain rfl := ended.resolve_right newline
        obtain rfl := List.sublist_nil.mp among
        have none := (here _ ⟨by simp, .inr ⟨rfl, newline⟩⟩).2
        rw [spliceFrom, none, List.append_nil, lines_eq]
        exact sublistForall₂_append_left (.cons found .nil) front

/-! ### The splice up to blanks -/

/-- The characters that are no blanks. -/
def inked (s : List Char) : List Char :=
  s.filter fun c => !Text.isBlank c

/-- **Two splices agree up to blanks** if they put in the same at every offset, and take out the same
characters that are no blanks. -/
theorem inked_spliceFrom {others : List Replacement} {text : List Char}
    (inserted : ∀ place, inked (insertedAt replacements place) = inked (insertedAt others place))
    (taken : ∀ before c after, text = before ++ c :: after → Text.isBlank c = false →
      covered replacements (Text.size before) = covered others (Text.size before))
    (before rest : List Char) (text_eq : text = before ++ rest) :
    inked (spliceFrom replacements (Text.size before) rest) =
      inked (spliceFrom others (Text.size before) rest) := by
  induction rest generalizing before with
  | nil => exact inserted _
  | cons c rest ih =>
    have onward := ih (before ++ [c]) (by simp [text_eq])
    have here : inked (if covered replacements (Text.size before) then [] else [c]) =
        inked (if covered others (Text.size before) then [] else [c]) := by
      cases isBlank : Text.isBlank c with
      | true => split <;> split <;> simp [inked, isBlank]
      | false => rw [taken before c rest text_eq isBlank]
    have size_eq : Text.size (before ++ [c]) = Text.size before + c.utf8Size := by simp
    have inserted := inserted (Text.size before)
    rw [size_eq] at onward
    unfold inked at *
    rw [spliceFrom, spliceFrom, List.filter_append, List.filter_append, List.filter_append,
      List.filter_append, inserted, onward]
    congr 2

theorem insertedAt_cons (r : Replacement) :
    insertedAt (r :: replacements) offset =
      (if r.span.start = offset then r.newText.toList else []) ++
        insertedAt replacements offset := by
  by_cases here : r.span.start = offset <;> simp [insertedAt, here]

theorem insertedAt_eq_nil_of_newText
    (none : ∀ r ∈ replacements, r.span.start = offset → r.newText = "") :
    insertedAt replacements offset = [] := by
  rw [insertedAt, List.flatMap_eq_nil_iff]
  intro r member
  obtain ⟨isIn, here⟩ := List.mem_filter.mp member
  rw [none r isIn (by simpa using here)]
  rfl

end Replacement

end ScriptLint
