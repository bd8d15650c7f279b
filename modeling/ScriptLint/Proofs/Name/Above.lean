/-
**Dotted names and what they go through.**

A dotted name goes through the names that its first segments make. Taken as texts, these are what stands
before one of its dots, and the longer of two is a name that goes through the shorter one.

* `intercalate_append` — pieces in two parts, put together.
* `segments`, `IsAbove` — the segments of a name, and a name made of some of its first ones.
* `isAbove_iff` — such a name is what stands before a dot.
* `isAbove_of_isUnder` — a namespace without a dot at its end, beneath which another one lies, stands
  above this one; `isUnder_of_isAbove` — and the other way round.
* `mem_properPrefixes`, `properPrefixes_pairwise` — the names that a dotted path goes through, the
  longest first.
-/

import ScriptLint.Proofs.Name.Segments
import ScriptLint.Proofs.Name.Under
import ScriptLint.Resolver

namespace ScriptLint

/-- Pieces in two parts are put together with one more separator between the parts. -/
theorem intercalate_append (separator : List Char) {first second : List (List Char)}
    (some : first ≠ []) (more : second ≠ []) :
    separator.intercalate (first ++ second) =
      separator.intercalate first ++ separator ++ separator.intercalate second := by
  induction first with
  | nil => exact absurd rfl some
  | cons piece rest ih =>
    by_cases last : rest = []
    · rw [last, List.singleton_append, List.intercalate_cons_of_ne_nil more,
        List.intercalate_singleton]
    · rw [List.cons_append, List.intercalate_cons_of_ne_nil (by simp [last]), ih last,
        List.intercalate_cons_of_ne_nil last]
      simp only [List.append_assoc]

namespace Name

/-- The segments of a dotted name; there may be empty ones. -/
def segments (name : String) : List (List Char) :=
  List.splitOn '.' name.toList

/-- The first segments of a name, but not all of them, make up `outer`. -/
def IsAbove (outer name : String) : Prop :=
  segments outer <+: segments name ∧ outer ≠ name

instance (outer name : String) : Decidable (IsAbove outer name) :=
  inferInstanceAs (Decidable (_ ∧ _))

variable {outer name other path : String}

theorem segments_ne_nil (name : String) : segments name ≠ [] :=
  List.splitOn_ne_nil _ _

theorem intercalate_segments (name : String) : List.intercalate ['.'] (segments name) = name.toList :=
  List.intercalate_splitOn '.'

theorem segments_append (outer rest : String) :
    segments (outer ++ "." ++ rest) = segments outer ++ segments rest := by
  have parts : (outer ++ "." ++ rest).toList = outer.toList ++ '.' :: rest.toList := by simp
  rw [segments, parts, List.splitOn_append_cons_self]
  rfl

/-- **A name stands above another** if the other one is this name, a dot and something more. -/
theorem isAbove_iff : IsAbove outer name ↔ ∃ rest, name = outer ++ "." ++ rest := by
  constructor
  · rintro ⟨⟨more, split⟩, different⟩
    have some : more ≠ [] := by
      rintro rfl
      rw [List.append_nil] at split
      refine different (String.toList_inj.mp ?_)
      rw [← intercalate_segments, split, intercalate_segments]
    refine ⟨String.ofList (List.intercalate ['.'] more), String.toList_inj.mp ?_⟩
    rw [← intercalate_segments name, ← split, intercalate_append _ (segments_ne_nil outer) some,
      intercalate_segments]
    simp
  · rintro ⟨rest, rfl⟩
    refine ⟨segments_append outer rest ▸ List.prefix_append _ _, fun same => ?_⟩
    have lengths := congrArg String.length same
    rw [String.length_append, String.length_append] at lengths
    have dot : ".".length = 1 := rfl
    omega

theorem IsAbove.length_lt (above : IsAbove outer name) : outer.length < name.length := by
  obtain ⟨rest, rfl⟩ := isAbove_iff.mp above
  have dot : ".".length = 1 := rfl
  rw [String.length_append, String.length_append]
  omega

/-! ### Namespaces beneath one another -/

theorem trimmed_eq (undotted : outer.toList.getLast? ≠ some '.') : trimmed outer = outer.toList := by
  have stays : ∀ c, outer.toList.getLast? = some c → (c == '.') = false := by
    intro c last
    rw [beq_eq_false_iff_ne]
    rintro rfl
    exact undotted last
  exact Text.dropEndWhile_eq_self stays

theorem isAbove_of_isUnder (undotted : outer.toList.getLast? ≠ some '.')
    (under : isUnder outer name = true) (different : name ≠ outer) : IsAbove outer name := by
  obtain ⟨-, whole | ⟨rest, starts⟩⟩ := isUnder_iff.mp under
  · rw [trimmed_eq undotted] at whole
    exact absurd (String.toList_inj.mp whole) different
  · rw [trimmed_eq undotted] at starts
    refine isAbove_iff.mpr ⟨String.ofList rest, String.toList_inj.mp ?_⟩
    rw [← starts]
    simp

theorem isUnder_of_isAbove (undotted : outer.toList.getLast? ≠ some '.') (nonempty : outer ≠ "")
    (above : outer = name ∨ IsAbove outer name) : isUnder outer name = true := by
  have some : outer.toList ≠ [] := fun none => nonempty (String.toList_eq_nil_iff.mp none)
  rw [isUnder_iff, trimmed_eq undotted]
  refine ⟨some, ?_⟩
  rcases above with rfl | above
  · exact .inl rfl
  · obtain ⟨rest, rfl⟩ := isAbove_iff.mp above
    exact .inr ⟨rest.toList, by simp⟩

end Name

/-! ### The names that a path goes through -/

namespace Resolver

open Name

/-- Fewer of the first pieces make a name above the one that more of them make. -/
theorem isAbove_take {pieces : List (List Char)} {count more : Nat} (some : 0 < count)
    (less : count < more) (inside : more ≤ pieces.length) :
    IsAbove (String.ofList (List.intercalate ['.'] (pieces.take count)))
      (String.ofList (List.intercalate ['.'] (pieces.take more))) := by
  have first : pieces.take count ≠ [] := by
    rw [← List.length_pos_iff, List.length_take]
    omega
  have second : (pieces.take more).drop count ≠ [] := by
    rw [← List.length_pos_iff, List.length_drop, List.length_take]
    omega
  have parts : pieces.take more = pieces.take count ++ (pieces.take more).drop count := by
    conv_lhs => rw [← List.take_append_drop count (pieces.take more), List.take_take,
      Nat.min_eq_left (Nat.le_of_lt less)]
  refine isAbove_iff.mpr
    ⟨String.ofList (List.intercalate ['.'] ((pieces.take more).drop count)), ?_⟩
  rw [parts, intercalate_append _ first second, ← parts]
  apply String.toList_inj.mp
  simp

theorem mem_drop_range {n count : Nat} :
    count ∈ (List.range n).drop 1 ↔ 0 < count ∧ count < n := by
  rw [List.mem_iff_getElem]
  simp only [List.getElem_drop, List.getElem_range, List.length_drop, List.length_range]
  constructor
  · rintro ⟨i, inside, rfl⟩
    omega
  · rintro ⟨some, inside⟩
    exact ⟨count - 1, by omega, by omega⟩

/-- **A path goes through the names above it.** -/
theorem mem_properPrefixes {path outer : String} :
    outer ∈ properPrefixes (segments path) ↔ IsAbove outer path := by
  simp only [properPrefixes, List.mem_map, List.mem_reverse, mem_drop_range]
  constructor
  · rintro ⟨count, ⟨some, inside⟩, rfl⟩
    have above := isAbove_take some inside (Nat.le_refl _)
    rwa [List.take_length, intercalate_segments, String.ofList_toList] at above
  · intro above
    obtain ⟨rest, rfl⟩ := isAbove_iff.mp above
    have some := List.length_pos_iff.mpr (segments_ne_nil outer)
    have more := List.length_pos_iff.mpr (segments_ne_nil rest)
    rw [segments_append]
    refine ⟨(segments outer).length, ⟨some, ?_⟩, ?_⟩
    · rw [List.length_append]
      omega
    · rw [List.take_left, intercalate_segments, String.ofList_toList]

/-- The names that a path goes through come from the longest to the shortest. -/
theorem properPrefixes_pairwise (pieces : List (List Char)) :
    (properPrefixes pieces).Pairwise fun longer shorter => IsAbove shorter longer := by
  unfold properPrefixes
  rw [List.pairwise_map, List.pairwise_reverse]
  refine List.Pairwise.imp_of_mem ?_
    (List.pairwise_lt_range.sublist (List.drop_sublist 1 (List.range pieces.length)))
  intro count more isFirst isSecond less
  exact isAbove_take (mem_drop_range.mp isFirst).1 less
    (Nat.le_of_lt (mem_drop_range.mp isSecond).2)

end Resolver

end ScriptLint
