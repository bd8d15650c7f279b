/-
**The first segment of a written name.**

* `IsSegment` — a name of one segment, of characters that normalizing keeps; `IsTail` — what may follow
  it in a dotted name: nothing, or a dot and more.
* `normalize_append` — a written name that begins with a segment is normalized behind it.
* `marks_induction` — a text, cut at its first separator, and again behind it.
-/

import ScriptLint.Name
import ScriptLint.Proofs.Text.Parts

namespace ScriptLint

/-! ### Pieces between dots -/

namespace Text

/-- A text is cut at its first separator, and again behind it. -/
theorem marks_induction (separates : Char → Bool) {motive : List Char → Prop}
    (plain : ∀ s, (∀ c ∈ s, separates c = false) → motive s)
    (joined : ∀ s c t, (∀ d ∈ s, separates d = false) → separates c = true → motive t →
      motive (s ++ c :: t))
    (s : List Char) : motive s := by
  induction length : s.length using Nat.strongRecOn generalizing s with
  | ind n ih =>
    have parts : s.takeWhile (!separates ·) ++ s.dropWhile (!separates ·) = s :=
      List.takeWhile_append_dropWhile
    have passed : ∀ c ∈ s.takeWhile (!separates ·), separates c = false := fun c member => by
      simpa using List.mem_takeWhile_imp member
    cases rest : s.dropWhile (!separates ·) with
    | nil =>
      rw [rest, List.append_nil] at parts
      exact parts ▸ plain _ passed
    | cons c t =>
      have stops := List.head?_dropWhile_not (!separates ·) s
      rw [rest] at stops parts
      have shorter := congrArg List.length parts
      rw [List.length_append, List.length_cons] at shorter
      rw [← parts]
      exact joined _ _ _ passed (by simpa using stops) (ih t.length (by omega) t rfl)

/-- The pieces between separators hold none. -/
theorem plain_of_mem_splitOnP {separates : Char → Bool} {s piece : List Char}
    (member : piece ∈ s.splitOnP separates) : ∀ c ∈ piece, separates c = false := by
  induction s using marks_induction separates with
  | plain s plain =>
    rw [List.splitOnP_eq_singleton plain, List.mem_singleton] at member
    exact member ▸ plain
  | joined s c t plain parts ih =>
    rw [List.splitOnP_append_cons_of_forall_mem plain c parts] at member
    rcases List.mem_cons.mp member with rfl | later
    · exact plain
    · exact ih later

end Text

namespace Name

/-! ### Segments -/

/-- A character that normalizing keeps wherever it stands, and that divides no name. -/
def isPlain (c : Char) : Bool :=
  !(c == '.' || c == '<' || c == '>' || c == ':' || Text.isBlank c || isTypeMark c)

/-- A name of one segment. -/
structure IsSegment (name : String) : Prop where
  nonempty : name ≠ ""
  plain : ∀ c ∈ name.toList, isPlain c = true

instance (name : String) : Decidable (IsSegment name) :=
  decidable_of_iff (name ≠ "" ∧ name.toList.all isPlain = true)
    ⟨fun ⟨nonempty, plain⟩ => ⟨nonempty, List.all_eq_true.mp plain⟩,
      fun ⟨nonempty, plain⟩ => ⟨nonempty, List.all_eq_true.mpr plain⟩⟩

/-- What follows the first segment of a dotted name: nothing, or a dot and more. -/
def IsTail (tail : String) : Prop :=
  tail.toList.head? = none ∨ tail.toList.head? = some '.'

instance (tail : String) : Decidable (IsTail tail) :=
  inferInstanceAs (Decidable (_ ∨ _))

theorem isTail_cases {tail : String} (isTail : IsTail tail) :
    tail = "" ∨ ∃ rest, tail.toList = '.' :: rest := by
  rcases isTail with none | dot
  · exact .inl (by simpa using none)
  · cases split : tail.toList with
    | nil => simp [split] at dot
    | cons c rest =>
      rw [split, List.head?_cons, Option.some.injEq] at dot
      exact .inr ⟨rest, by rw [dot]⟩

theorem ne_of_isPlain {c : Char} (plain : isPlain c = true) :
    c ≠ '.' ∧ c ≠ '<' ∧ c ≠ '>' ∧ c ≠ ':' ∧ Text.isBlank c = false ∧ isTypeMark c = false := by
  simpa [isPlain, and_assoc] using plain

namespace IsSegment

variable {name : String} (segment : IsSegment name)
include segment

theorem dot_not_mem : '.' ∉ name.toList := fun member =>
  (ne_of_isPlain (segment.plain '.' member)).1 rfl

end IsSegment

/-! ### Normalizing -/

theorem stripGlobal_eq_self {s : List Char} (unrooted : ¬ globalMark <+: s) : stripGlobal s = s := by
  unfold stripGlobal
  cases found : List.isPrefixOf? globalMark s with
  | none => rfl
  | some after => exact (unrooted ⟨after, List.append_eq_of_isPrefixOf?_eq_some found⟩).elim

/-- Nothing is taken off the front of what has no colon before its first dot. -/
theorem stripGlobal_append {s tail : List Char} (plain : ∀ c ∈ s, c ≠ ':')
    (isTail : ∀ c, tail.head? = some c → c = '.') : stripGlobal (s ++ tail) = s ++ tail := by
  refine stripGlobal_eq_self fun starts => ?_
  have inside : globalMark <+: s := Text.prefix_of_prefix_append starts fun c first => by
    rw [isTail c first]
    decide
  exact plain ':' (inside.subset (by decide)) rfl

theorem dropArguments_append {s : List Char} (plain : ∀ c ∈ s, isPlain c = true)
    (tail : List Char) : dropArguments 0 (s ++ tail) = s ++ dropArguments 0 tail := by
  induction s with
  | nil => rfl
  | cons c s ih =>
    obtain ⟨-, notOpening, notClosing, -, notBlank, -⟩ :=
      ne_of_isPlain (plain c List.mem_cons_self)
    rw [List.cons_append, dropArguments, if_neg notOpening, if_neg notClosing,
      if_neg (by simp [notBlank]), ih fun c member => plain c (List.mem_cons_of_mem _ member),
      List.cons_append]

theorem dotColons_cons {c : Char} (other : c ≠ ':') (rest : List Char) :
    dotColons (c :: rest) = c :: dotColons rest := by
  rw [dotColons]
  rintro _ rfl
  exact (other rfl).elim

theorem dotColons_append {s : List Char} (plain : ∀ c ∈ s, c ≠ ':') (tail : List Char) :
    dotColons (s ++ tail) = s ++ dotColons tail := by
  induction s with
  | nil => rfl
  | cons c s ih =>
    rw [List.cons_append, dotColons_cons (plain c List.mem_cons_self),
      ih fun c member => plain c (List.mem_cons_of_mem _ member), List.cons_append]

/-- **A name that begins with a segment** is normalized behind it. -/
theorem normalize_append {name tail : String} (segment : IsSegment name) (isTail : IsTail tail) :
    normalize (name ++ tail) = name ++ normalize tail := by
  have noColon : ∀ c ∈ name.toList, c ≠ ':' := fun c member =>
    (ne_of_isPlain (segment.plain c member)).2.2.2.1
  have starts : ∀ c, tail.toList.head? = some c → c = '.' := fun c first => by
    rcases isTail with none | dot
    · rw [none] at first
      cases first
    · rw [dot] at first
      exact (Option.some.inj first).symm
  have stays : ∀ c, name.toList.getLast? = some c → isTypeMark c = false := fun c last =>
    (ne_of_isPlain (segment.plain c (List.mem_of_getLast? last))).2.2.2.2.2
  have whole := stripGlobal_append noColon starts
  have alone := stripGlobal_append (s := []) (by simp) starts
  rw [List.nil_append] at alone
  apply String.toList_inj.mp
  rw [String.toList_append]
  simp only [normalize, String.toList_ofList, String.toList_append]
  unfold normalizeText
  rw [whole, alone, dropArguments_append segment.plain, Text.dropEndWhile_append_left stays,
    dotColons_append noColon]

theorem normalize_empty : normalize "" = "" := by
  decide

theorem IsSegment.normalize_eq {name : String} (segment : IsSegment name) : normalize name = name := by
  have empty : IsTail "" := .inl rfl
  have whole := normalize_append segment empty
  simpa [normalize_empty] using whole

/-- What follows a segment is still a tail when it is normalized. -/
theorem IsTail.normalize {tail : String} (isTail : IsTail tail) : IsTail (normalize tail) := by
  rcases isTail_cases isTail with rfl | ⟨rest, split⟩
  · exact .inl (by rw [normalize_empty]; rfl)
  · refine .inr ?_
    have alone : stripGlobal ('.' :: rest) = '.' :: rest :=
      stripGlobal_append (s := []) (by simp) fun c first => (Option.some.inj first).symm
    have stays : ∀ c, ['.'].getLast? = some c → isTypeMark c = false := fun c last => by
      rw [← Option.some.inj last]
      decide
    rw [Name.normalize, String.toList_ofList, split]
    unfold normalizeText
    rw [alone, dropArguments, if_neg (by decide), if_neg (by decide), if_neg (by decide),
      ← List.singleton_append, Text.dropEndWhile_append_left stays, List.singleton_append,
      dotColons_cons (by decide), List.head?_cons]

end Name

end ScriptLint
