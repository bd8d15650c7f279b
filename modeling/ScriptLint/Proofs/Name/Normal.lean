/-
**Normal names, and names put together.**

Normalizing goes through a written name step by step: `global::` is taken off the front, then type
arguments and blanks wherever they stand, then the marks of nullable and array types off the end, and
what is left of two colons is a dot. No step brings back what an earlier one took away. A dot stops each
of them, so names with dots between them are normalized apart, unless marks stand before a dot or
`global::` behind one.

* `IsNormal` — a name in which no step finds anything; `normalizeText_eq_self_iff` — these are the names
  that stay as they are, and `isNormal_normalizeText` — normalizing yields no others.
* `Balanced` — each bracket is closed again; `openAfter` — the number of brackets open behind a text.
* `unbracketed`, `IsUnmarked` — the name before the marks are taken off its end, and that there are none.
* `normalize_append_dot_iff` — when two names with a dot between them are normalized apart.
* `normalize_intercalate` — any number of names with dots between them.
-/

import Mathlib.Data.List.Infix
import ScriptLint.Proofs.Name.Segments

namespace ScriptLint.Name

variable {s t : List Char} {c : Char}

/-! ### Names in normal form -/

/-- A name in which there is nothing to normalize. -/
structure IsNormal (name : List Char) : Prop where
  plain : ∀ c ∈ name, c ≠ '<' ∧ c ≠ '>' ∧ Text.isBlank c = false
  noColons : ¬ "::".toList <:+: name
  unmarked : ∀ c, name.getLast? = some c → c ∉ ['?', '[', ']', ',']

theorem isTypeMark_eq_false_iff : isTypeMark c = false ↔ c ∉ ['?', '[', ']', ','] := by
  simp [isTypeMark, and_assoc]

theorem mem_dropArguments {depth : Nat} (member : c ∈ dropArguments depth s) :
    c ≠ '<' ∧ c ≠ '>' ∧ Text.isBlank c = false := by
  fun_induction dropArguments depth s with
  | case1 => cases member
  | case2 _ _ ih => exact ih member
  | case3 _ _ _ ih => exact ih member
  | case4 _ _ _ _ _ _ ih => exact ih member
  | case5 depth first rest notOpening notClosing stays ih =>
    rw [Bool.or_eq_true, not_or, Bool.not_eq_true, Bool.not_eq_true] at stays
    rcases List.mem_cons.mp member with rfl | later
    · exact ⟨notOpening, notClosing, stays.2⟩
    · exact ih later

theorem dropArguments_eq_self (plain : ∀ c ∈ s, c ≠ '<' ∧ c ≠ '>' ∧ Text.isBlank c = false) :
    dropArguments 0 s = s := by
  induction s with
  | nil => rfl
  | cons first rest ih =>
    obtain ⟨notOpening, notClosing, notBlank⟩ := plain first List.mem_cons_self
    rw [dropArguments, if_neg notOpening, if_neg notClosing, if_neg (by simp [notBlank]),
      ih fun c member => plain c (List.mem_cons_of_mem _ member)]

theorem mem_dotColons (member : c ∈ dotColons s) : c = '.' ∨ c ∈ s := by
  fun_induction dotColons s with
  | case1 rest ih =>
    rcases List.mem_cons.mp member with dot | later
    · exact .inl dot
    · exact (ih later).imp_right fun inside => by simp [inside]
  | case2 first rest _ ih =>
    rcases List.mem_cons.mp member with rfl | later
    · exact .inr List.mem_cons_self
    · exact (ih later).imp_right (List.mem_cons_of_mem _)
  | case3 => cases member

/-- Only a colon gives a colon in front. -/
theorem head?_dotColons : (dotColons s).head? = some ':' → s.head? = some ':' := by
  fun_cases dotColons s with
  | case1 => exact fun _ => rfl
  | case2 => exact id
  | case3 => exact id

theorem not_infix_dotColons (s : List Char) : ¬ "::".toList <:+: dotColons s := by
  fun_induction dotColons s with
  | case1 rest ih =>
    rw [List.infix_cons_iff, not_or]
    exact ⟨fun starts => absurd (List.cons_prefix_cons.mp starts).1 (by decide), ih⟩
  | case2 first rest other ih =>
    rw [List.infix_cons_iff, not_or]
    refine ⟨fun starts => ?_, ih⟩
    -- Two colons in front come from two colons, which would have become a dot.
    obtain ⟨isColon, more⟩ := List.cons_prefix_cons.mp starts
    obtain ⟨tail, split⟩ := more
    have second : rest.head? = some ':' := head?_dotColons (by rw [← split]; rfl)
    obtain ⟨rest, rfl⟩ := List.head?_eq_some_iff.mp second
    exact other rest isColon.symm rfl
  | case3 => decide

theorem dotColons_eq_self (noColons : ¬ "::".toList <:+: s) : dotColons s = s := by
  fun_induction dotColons s with
  | case1 rest => exact (noColons ⟨[], rest, rfl⟩).elim
  | case2 first rest _ ih =>
    rw [ih fun inside => noColons (List.infix_cons inside)]
  | case3 => rfl

theorem dotColons_append_apart (apart : ∀ c, t.head? = some c → c ≠ ':') :
    dotColons (s ++ t) = dotColons s ++ dotColons t := by
  fun_induction dotColons s with
  | case1 rest ih => rw [List.cons_append, List.cons_append, dotColons, ih, List.cons_append]
  | case2 first rest other ih =>
    rw [List.cons_append, dotColons, ih, List.cons_append]
    intro tail isColon split
    cases rest with
    | nil => exact apart ':' (by rw [← List.nil_append t, split]; rfl) rfl
    | cons second rest =>
      rw [List.cons_append] at split
      exact other rest isColon (by rw [(List.cons.inj split).1])
  | case3 => rfl

theorem dotColons_ne_nil (some : s ≠ []) : dotColons s ≠ [] := by
  fun_cases dotColons s with
  | case1 => exact List.cons_ne_nil _ _
  | case2 => exact List.cons_ne_nil _ _
  | case3 => exact some

theorem getLast?_dotColons (last : (dotColons s).getLast? = some c) :
    c = '.' ∨ s.getLast? = some c := by
  fun_induction dotColons s with
  | case1 rest ih =>
    cases found : (dotColons rest).getLast? with
    | none =>
      rw [List.getLast?_cons, found] at last
      exact .inl (Option.some.inj last).symm
    | some d =>
      rw [List.getLast?_cons, found] at last
      obtain rfl : d = c := Option.some.inj last
      refine (ih found).imp_right fun inside => ?_
      rw [List.getLast?_cons, List.getLast?_cons, inside]
      rfl
  | case2 first rest _ ih =>
    cases found : (dotColons rest).getLast? with
    | none =>
      obtain rfl : rest = [] := by
        by_contra more
        exact dotColons_ne_nil more (List.getLast?_eq_none_iff.mp found)
      exact .inr last
    | some d =>
      rw [List.getLast?_cons, found] at last
      obtain rfl : d = c := Option.some.inj last
      refine (ih found).imp_right fun inside => ?_
      rw [List.getLast?_cons, inside]
      rfl
  | case3 => exact .inr last

/-! ### `global::` -/

theorem stripGlobal_mark (s : List Char) : stripGlobal (globalMark ++ s) = s := by
  rw [stripGlobal, Text.isPrefixOf?_append]
  rfl

/-- The mark is not looked for behind a dot. -/
theorem globalMark_prefix_append_dot : globalMark <+: s ++ '.' :: t ↔ globalMark <+: s := by
  refine ⟨fun starts => Text.prefix_of_prefix_append starts fun c first => ?_,
    fun starts => starts.trans (List.prefix_append _ _)⟩
  obtain rfl : '.' = c := Option.some.inj first
  decide

theorem stripGlobal_append_dot (s t : List Char) :
    stripGlobal (s ++ '.' :: t) = stripGlobal s ++ '.' :: t := by
  by_cases rooted : globalMark <+: s
  · obtain ⟨rest, rfl⟩ := rooted
    rw [List.append_assoc, stripGlobal_mark, stripGlobal_mark]
  · rw [stripGlobal_eq_self rooted, stripGlobal_eq_self (mt globalMark_prefix_append_dot.mp rooted)]

/-! ### Normal forms -/

theorem isNormal_normalizeText (s : List Char) : IsNormal (normalizeText s) where
  plain c member := by
    rcases mem_dotColons member with rfl | inside
    · decide
    · obtain ⟨marks, split, -⟩ := Text.exists_dropEndWhile isTypeMark (dropArguments 0 (stripGlobal s))
      have dropped : c ∈ dropArguments 0 (stripGlobal s) := by
        rw [split]
        exact List.mem_append_left marks inside
      exact mem_dropArguments dropped
  noColons := not_infix_dotColons _
  unmarked c last := by
    rcases getLast?_dotColons last with rfl | final
    · decide
    · exact isTypeMark_eq_false_iff.mp (Text.getLast?_dropEndWhile final)

theorem IsNormal.normalizeText_eq (normal : IsNormal s) : normalizeText s = s := by
  have unrooted : ¬ globalMark <+: s := fun starts =>
    normal.noColons (.trans ⟨"global".toList, [], rfl⟩ starts.isInfix)
  have stays : ∀ c, s.getLast? = some c → isTypeMark c = false := fun c last =>
    isTypeMark_eq_false_iff.mpr (normal.unmarked c last)
  rw [normalizeText, stripGlobal_eq_self unrooted, dropArguments_eq_self normal.plain,
    Text.dropEndWhile_eq_self stays, dotColons_eq_self normal.noColons]

/-- **The names that stay as they are** are those in normal form. -/
theorem normalizeText_eq_self_iff : normalizeText s = s ↔ IsNormal s :=
  ⟨fun same => same ▸ isNormal_normalizeText s, IsNormal.normalizeText_eq⟩

theorem toList_normalize (name : String) : (normalize name).toList = normalizeText name.toList :=
  String.toList_ofList

theorem normalize_normalize (name : String) : normalize (normalize name) = normalize name := by
  apply String.toList_inj.mp
  rw [toList_normalize, toList_normalize]
  exact (isNormal_normalizeText _).normalizeText_eq

/-! ### Brackets -/

/-- The number of brackets that are open behind a text, where `depth` are open before it. A closing
bracket too many closes none. -/
def openAfter (depth : Nat) : List Char → Nat
  | [] => depth
  | c :: rest =>
    if c = '<' then openAfter (depth + 1) rest
    else if c = '>' then openAfter (depth - 1) rest
    else openAfter depth rest

theorem openAfter_append (depth : Nat) (s t : List Char) :
    openAfter depth (s ++ t) = openAfter (openAfter depth s) t := by
  fun_induction openAfter depth s <;> simp_all [openAfter]

/-- What is dropped behind a text depends on the brackets it leaves open. -/
theorem dropArguments_append_open (depth : Nat) (s t : List Char) :
    dropArguments depth (s ++ t) = dropArguments depth s ++ dropArguments (openAfter depth s) t := by
  fun_induction dropArguments depth s <;> simp_all [dropArguments, openAfter]

/-- Each angle bracket is closed again: no first part of the name closes more than it opens, and the
whole name closes all. -/
structure Balanced (name : String) : Prop where
  opened : ∀ first, first <+: name.toList → first.count '>' ≤ first.count '<'
  closed : name.toList.count '>' = name.toList.count '<'

instance (name : String) : Decidable (Balanced name) :=
  decidable_of_iff ((∀ first ∈ name.toList.inits, first.count '>' ≤ first.count '<') ∧
      name.toList.count '>' = name.toList.count '<')
    ⟨fun ⟨opened, closed⟩ => ⟨fun first starts => opened first ((List.mem_inits _ _).mpr starts), closed⟩,
      fun ⟨opened, closed⟩ => ⟨fun first member => opened first ((List.mem_inits _ _).mp member), closed⟩⟩

/-- Where no closing bracket is one too many, the brackets are counted. -/
theorem openAfter_add_count (depth : Nat)
    (opened : ∀ first, first <+: s → first.count '>' ≤ depth + first.count '<') :
    openAfter depth s + s.count '>' = depth + s.count '<' := by
  induction s generalizing depth with
  | nil => rfl
  | cons c rest ih =>
    have later : ∀ first, first <+: rest →
        (c :: first).count '>' ≤ depth + (c :: first).count '<' := fun first starts =>
      opened _ (List.cons_prefix_cons.mpr ⟨rfl, starts⟩)
    rw [openAfter]
    split
    · subst c
      have counted := ih (depth + 1) fun first starts => by
        have bound := later first starts
        rw [List.count_cons_of_ne (by decide), List.count_cons_self] at bound
        omega
      rw [List.count_cons_of_ne (by decide), List.count_cons_self]
      omega
    · rename_i notOpening
      split
      · subst c
        -- The bracket closes one that is open.
        have bounds : ∀ first, first <+: rest → first.count '>' + 1 ≤ depth + first.count '<' :=
          fun first starts => by
            have bound := later first starts
            rwa [List.count_cons_self, List.count_cons_of_ne (by decide)] at bound
        have once := bounds [] List.nil_prefix
        rw [List.count_nil, List.count_nil] at once
        have counted := ih (depth - 1) fun first starts => by
          have bound := bounds first starts
          omega
        rw [List.count_cons_self, List.count_cons_of_ne (by decide)]
        omega
      · rename_i notClosing
        have counted := ih depth fun first starts => by
          have bound := later first starts
          rwa [List.count_cons_of_ne notClosing, List.count_cons_of_ne notOpening] at bound
        rwa [List.count_cons_of_ne notClosing, List.count_cons_of_ne notOpening]

theorem Balanced.openAfter_eq {name : String} (balanced : Balanced name) :
    openAfter 0 name.toList = 0 := by
  have counted := openAfter_add_count 0 fun first starts => by
    rw [Nat.zero_add]
    exact balanced.opened first starts
  have closed := balanced.closed
  omega

theorem openAfter_stripGlobal (depth : Nat) (s : List Char) :
    openAfter depth (stripGlobal s) = openAfter depth s := by
  by_cases rooted : globalMark <+: s
  · obtain ⟨rest, rfl⟩ := rooted
    rw [stripGlobal_mark, openAfter_append]
    rfl
  · rw [stripGlobal_eq_self rooted]

/-! ### Names with a dot between them -/

/-- The name before the marks are taken off its end. -/
def unbracketed (name : List Char) : List Char :=
  dropArguments 0 (stripGlobal name)

/-- Taking the marks off its end leaves the name unchanged. -/
def IsUnmarked (name : String) : Prop :=
  Text.dropEndWhile isTypeMark (unbracketed name.toList) = unbracketed name.toList

instance (name : String) : Decidable (IsUnmarked name) :=
  inferInstanceAs (Decidable (_ = _))

/-- The name before the marks are taken off, with dots for colons, is the normal form and the marks. -/
theorem exists_marks (name : String) :
    ∃ marks, dotColons (unbracketed name.toList) = (normalize name).toList ++ marks ∧
      (marks = [] ↔ IsUnmarked name) := by
  obtain ⟨marks, split, all⟩ := Text.exists_dropEndWhile isTypeMark (unbracketed name.toList)
  have noColon : ∀ c ∈ marks, c ≠ ':' := by
    rintro c member rfl
    exact absurd (all _ member) (by decide)
  have kept := dotColons_append noColon []
  rw [List.append_nil, dotColons, List.append_nil] at kept
  refine ⟨marks, ?_, ?_⟩
  · nth_rewrite 1 [split]
    rw [dotColons_append_apart fun c first => noColon c (List.mem_of_mem_head? first), kept,
      toList_normalize]
    rfl
  · rw [IsUnmarked]
    nth_rewrite 2 [split]
    rw [List.self_eq_append_right]

theorem normalizeText_append_dot (closed : openAfter 0 s = 0) (t : List Char) :
    normalizeText (s ++ '.' :: t) = dotColons (unbracketed s) ++
      '.' :: dotColons (Text.dropEndWhile isTypeMark (dropArguments 0 t)) := by
  have dropped : dropArguments 0 (stripGlobal (s ++ '.' :: t)) =
      unbracketed s ++ ['.'] ++ dropArguments 0 t := by
    rw [stripGlobal_append_dot, dropArguments_append_open, openAfter_stripGlobal, closed,
      List.append_assoc]
    rfl
  have stays : ∀ c, (unbracketed s ++ ['.']).getLast? = some c → isTypeMark c = false := by
    intro c last
    rw [List.getLast?_concat] at last
    obtain rfl : '.' = c := Option.some.inj last
    decide
  rw [normalizeText, dropped, Text.dropEndWhile_append_left stays, List.append_assoc,
    List.singleton_append, dotColons_append_apart fun c first => ?_, dotColons_cons (by decide)]
  obtain rfl : '.' = c := Option.some.inj first
  decide

/-- Behind a dot `global::` is taken as a segment. -/
theorem dotColons_globalMark (s : List Char) :
    dotColons (Text.dropEndWhile isTypeMark (dropArguments 0 (globalMark ++ s))) =
      "global.".toList ++ normalizeText (globalMark ++ s) := by
  have dropped : dropArguments 0 (globalMark ++ s) = globalMark ++ dropArguments 0 s := rfl
  have stays : ∀ c, globalMark.getLast? = some c → isTypeMark c = false := by
    intro c last
    obtain rfl : ':' = c := Option.some.inj last
    decide
  rw [normalizeText, stripGlobal_mark, dropped, Text.dropEndWhile_append_left stays]
  rfl

/-- **Two names with a dot between them** are normalized apart exactly if no marks stand before the dot
and no `global::` behind it. -/
theorem normalize_append_dot_iff {a b : String} (balanced : Balanced a) :
    normalize (a ++ "." ++ b) = normalize a ++ "." ++ normalize b ↔
      IsUnmarked a ∧ ¬ globalMark <+: b.toList := by
  obtain ⟨marks, marked, none_iff⟩ := exists_marks a
  have whole : (normalize (a ++ "." ++ b)).toList = (normalize a).toList ++ marks ++
      '.' :: dotColons (Text.dropEndWhile isTypeMark (dropArguments 0 b.toList)) := by
    rw [← marked, ← normalizeText_append_dot balanced.openAfter_eq, toList_normalize]
    simp
  have apart : (normalize a ++ "." ++ normalize b).toList =
      (normalize a).toList ++ '.' :: normalizeText b.toList := by
    simp [toList_normalize]
  rw [← String.toList_inj, whole, apart, ← none_iff]
  by_cases rooted : globalMark <+: b.toList
  · -- The segment `global` is left over.
    obtain ⟨rest, split⟩ := rooted
    rw [← split, dotColons_globalMark]
    refine iff_of_false (fun same => ?_) fun both => both.2 (List.prefix_append _ _)
    have lengths := congrArg List.length same
    simp at lengths
    omega
  · have same : dotColons (Text.dropEndWhile isTypeMark (dropArguments 0 b.toList)) =
        normalizeText b.toList := by
      rw [normalizeText, stripGlobal_eq_self rooted]
    rw [same, and_iff_left rooted, List.append_assoc, List.append_cancel_left_eq,
      List.append_left_eq_self]

/-- The marks of an array that is no longer at the end of a name stay where they are. -/
example : normalize ("Row[]" ++ "." ++ "Cell[]") = "Row[].Cell" ∧
    normalize "Row[]" ++ "." ++ normalize "Cell[]" = "Row.Cell" := by
  decide +kernel

/-- `global::` in front of names with dots between them stands in front of the first one. -/
theorem globalMark_prefix_of_intercalate {first : String} {more : List String}
    (rooted : globalMark <+: (".".intercalate (first :: more)).toList) :
    globalMark <+: first.toList := by
  cases more with
  | nil => simpa using rooted
  | cons second more =>
    rw [String.intercalate_cons_cons, String.toList_append, String.toList_append,
      List.append_assoc] at rooted
    exact globalMark_prefix_append_dot.mp rooted

/-- **Names with dots between them** are normalized one by one. -/
theorem normalize_intercalate {pieces : List String}
    (outer : ∀ piece ∈ pieces.dropLast, Balanced piece ∧ IsUnmarked piece)
    (inner : ∀ piece ∈ pieces.tail, ¬ globalMark <+: piece.toList) :
    normalize (".".intercalate pieces) = ".".intercalate (pieces.map normalize) := by
  induction pieces with
  | nil => rfl
  | cons first rest ih =>
    cases rest with
    | nil => simp
    | cons second more =>
      obtain ⟨balanced, unmarked⟩ := outer first List.mem_cons_self
      have unrooted : ¬ globalMark <+: (".".intercalate (second :: more)).toList :=
        mt globalMark_prefix_of_intercalate (inner second List.mem_cons_self)
      have behind := ih (fun piece member => outer piece (List.mem_cons_of_mem _ member))
        fun piece member => inner piece (List.mem_cons_of_mem _ member)
      rw [String.intercalate_cons_cons, (normalize_append_dot_iff balanced).mpr ⟨unmarked, unrooted⟩,
        behind]
      simp

end ScriptLint.Name
