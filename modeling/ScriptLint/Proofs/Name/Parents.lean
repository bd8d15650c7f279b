/-
**A dotted name and all that stand above it.**

* `Covers` — a name is another one, or what stands before one of its dots.
* `mem_withParents_iff` — a name comes with exactly the names that cover it, but for the empty one.
* `IsClosure` — the names known are the given ones with all above them. `IsClosure.learn` says that
  one more name keeps this, although only the part below the first known name is added: whatever
  stands above a known name is known.
* `IsClosure.parent_mem` — so the names known are closed under taking what stands before the last
  dot.
-/

import Mathlib.Data.List.Basic
import ScriptLint.Name

namespace ScriptLint.Name

/-- The name is `outer`, or begins with `outer` and a dot. -/
def Covers (outer name : String) : Prop :=
  name = outer ∨ (outer ++ ".").toList <+: name.toList

instance (outer name : String) : Decidable (Covers outer name) :=
  inferInstanceAs (Decidable (_ ∨ _))

/-! ### The last dot -/

theorem not_mem_of_splitLast? {mark : Char} {s : List Char}
    (none : Text.splitLast? mark s = none) : mark ∉ s := by
  induction s with
  | nil => simp
  | cons c rest ih =>
    unfold Text.splitLast? at none
    split at none
    · cases none
    · split at none
      · cases none
      · rename_i notLater other
        simpa [Ne.symm other] using ih notLater

theorem eq_of_splitLast? {mark : Char} {s before after : List Char}
    (found : Text.splitLast? mark s = some (before, after)) :
    s = before ++ mark :: after ∧ mark ∉ after := by
  induction s generalizing before with
  | nil => cases found
  | cons c rest ih =>
    unfold Text.splitLast? at found
    split at found
    · rename_i inner last later
      cases found
      obtain ⟨rest_eq, stays⟩ := ih later
      exact ⟨by rw [rest_eq, List.cons_append], stays⟩
    · rename_i notLater
      split at found
      · rename_i here
        cases found
        exact ⟨by rw [here, List.nil_append], not_mem_of_splitLast? notLater⟩
      · cases found

theorem eq_of_parent? {name outer : String} (found : parent? name = some outer) :
    ∃ last : String, name = outer ++ "." ++ last ∧ '.' ∉ last.toList := by
  obtain ⟨⟨before, after⟩, split, rfl⟩ := Option.map_eq_some_iff.mp found
  obtain ⟨name_eq, stays⟩ := eq_of_splitLast? split
  refine ⟨String.ofList after, String.toList_inj.mp ?_, by rwa [String.toList_ofList]⟩
  simpa using name_eq

theorem not_mem_of_parent? {name : String} (none : parent? name = none) : '.' ∉ name.toList :=
  not_mem_of_splitLast? (Option.map_eq_none_iff.mp none)

theorem splitLast?_of_not_mem {mark : Char} {s : List Char} (stays : mark ∉ s) :
    Text.splitLast? mark s = none := by
  cases found : Text.splitLast? mark s with
  | none => rfl
  | some sides => exact absurd ((eq_of_splitLast? found).1 ▸ by simp) stays

theorem splitLast?_append {mark : Char} {after : List Char} (stays : mark ∉ after)
    (before : List Char) :
    Text.splitLast? mark (before ++ mark :: after) = some (before, after) := by
  induction before with
  | nil => rw [List.nil_append, Text.splitLast?, splitLast?_of_not_mem stays, if_pos rfl]
  | cons c rest ih => rw [List.cons_append, Text.splitLast?, ih]

theorem parent?_append {last : String} (stays : '.' ∉ last.toList) (outer : String) :
    parent? (outer ++ "." ++ last) = some outer := by
  have text : (outer ++ "." ++ last).toList = outer.toList ++ '.' :: last.toList := by simp
  simp [parent?, text, splitLast?_append stays]

/-- What begins a name up to a dot covers what stands before the last dot. -/
theorem dot_prefix_iff {outer last n : String} (stays : '.' ∉ last.toList) :
    (n ++ ".").toList <+: (outer ++ "." ++ last).toList ↔ Covers n outer := by
  have dot (s : String) : (s ++ ".").toList = s.toList ++ ['.'] := by simp
  rw [Covers, dot, String.toList_append, dot]
  constructor
  · rintro ⟨rest, same⟩
    rw [List.append_assoc, List.append_assoc] at same
    rcases List.append_eq_append_iff.mp same with
      ⟨middle, outer_eq, rest_eq⟩ | ⟨middle, n_eq, last_eq⟩
    · cases middle with
      | nil => exact .inl (String.toList_inj.mp (by simpa using outer_eq))
      | cons c more =>
        rw [List.singleton_append, List.cons_append, List.cons.injEq] at rest_eq
        obtain ⟨rfl, -⟩ := rest_eq
        exact .inr ⟨more, by rw [outer_eq, List.append_assoc, List.singleton_append]⟩
    · cases middle with
      | nil => exact .inl (String.toList_inj.mp (by simpa using n_eq.symm))
      | cons c more =>
        -- Another dot would stand behind the last one.
        rw [List.singleton_append, List.cons_append, List.cons.injEq] at last_eq
        rw [last_eq.2] at stays
        simp at stays
  · rintro (rfl | starts)
    · exact List.prefix_append _ _
    · rw [List.append_assoc]
      exact starts.trans (List.prefix_append _ _)

/-! ### Names with their parents -/

/-- Induction from what stands before the last dot to the whole name. -/
@[elab_as_elim]
theorem parent_induction {motive : String → Prop} (name : String)
    (step : ∀ name, (∀ outer, parent? name = some outer → motive outer) → motive name) :
    motive name := by
  induction length : name.length using Nat.strongRecOn generalizing name with
  | ind n ih =>
    refine step name fun outer found => ih outer.length ?_ outer rfl
    obtain ⟨last, rfl, -⟩ := eq_of_parent? found
    have dot : ".".length = 1 := rfl
    rw [← length, String.length_append, String.length_append]
    omega

theorem withParents_empty : withParents "" = [] := by
  unfold withParents withParentsText
  rfl

theorem withParents_of_parent? {name outer : String} (found : parent? name = some outer) :
    withParents name = name :: withParents outer := by
  obtain ⟨⟨before, after⟩, split, rfl⟩ := Option.map_eq_some_iff.mp found
  have nonempty : ¬ name.toList.isEmpty = true := by
    rw [(eq_of_splitLast? split).1]
    simp
  unfold withParents
  rw [withParentsText, if_neg nonempty]
  split
  · rename_i inner last found'
    rw [split] at found'
    cases found'
    simp
  · rename_i none
    rw [split] at none
    cases none

theorem withParents_of_simple {name : String} (nonempty : name ≠ "") (none : parent? name = none) :
    withParents name = [name] := by
  have split := Option.map_eq_none_iff.mp none
  unfold withParents
  rw [withParentsText, if_neg (by simpa using nonempty)]
  split
  · rename_i found
    rw [split] at found
    cases found
  · simp

theorem head?_withParents {name : String} (nonempty : name ≠ "") :
    (withParents name).head? = some name := by
  cases found : parent? name with
  | none => rw [withParents_of_simple nonempty found, List.head?_cons]
  | some outer => rw [withParents_of_parent? found, List.head?_cons]

/-- **A name with its parents** is the names that cover it. -/
theorem mem_withParents_iff {n name : String} : n ∈ withParents name ↔ n ≠ "" ∧ Covers n name := by
  induction name using parent_induction with
  | step name ih =>
    cases found : parent? name with
    | some outer =>
      obtain ⟨last, name_eq, stays⟩ := eq_of_parent? found
      have starts : (n ++ ".").toList <+: name.toList ↔ Covers n outer := by
        rw [name_eq]
        exact dot_prefix_iff stays
      have nonempty : name ≠ "" := by
        rw [name_eq]
        simp
      rw [withParents_of_parent? found, List.mem_cons, ih outer found]
      constructor
      · rintro (rfl | ⟨nonempty, above⟩)
        · exact ⟨nonempty, .inl rfl⟩
        · exact ⟨nonempty, .inr (starts.mpr above)⟩
      · rintro ⟨nonempty, rfl | above⟩
        · exact .inl rfl
        · exact .inr ⟨nonempty, starts.mp above⟩
    | none =>
      have alone : ¬ (n ++ ".").toList <+: name.toList := fun starts =>
        not_mem_of_parent? found (starts.subset (by simp))
      by_cases empty : name = ""
      · subst empty
        simp [withParents_empty, Covers, Ne.symm]
      · rw [withParents_of_simple empty found, List.mem_singleton]
        constructor
        · rintro rfl
          exact ⟨empty, .inl rfl⟩
        · rintro ⟨-, same | starts⟩
          · exact same.symm
          · exact (alone starts).elim

theorem Covers.trans {a b c : String} (first : Covers a b) (second : Covers b c) : Covers a c := by
  rcases first with rfl | starts
  · exact second
  · rcases second with rfl | starts'
    · exact .inr starts
    · refine .inr (starts.trans ((?_ : b.toList <+: _).trans starts'))
      rw [String.toList_append]
      exact List.prefix_append _ _

theorem covers_of_parent? {name outer : String} (found : parent? name = some outer) :
    Covers outer name := by
  obtain ⟨last, rfl, -⟩ := eq_of_parent? found
  have name_eq : (outer ++ "." ++ last).toList = (outer ++ ".").toList ++ last.toList :=
    String.toList_append
  exact .inr (name_eq ▸ List.prefix_append _ _)

/-! ### The names known -/

/-- The names known are the given ones with all that stand above them. -/
def IsClosure (known names : List String) : Prop :=
  ∀ n, n ∈ known ↔ n ≠ "" ∧ ∃ name ∈ names, Covers n name

namespace IsClosure

variable {known names : List String} {n name : String}

theorem empty : IsClosure [] [] := by
  intro n
  simp

/-- What stands above a known name is known. -/
theorem mem_of_covers (closure : IsClosure known names) (mem : name ∈ known) (nonempty : n ≠ "")
    (covers : Covers n name) : n ∈ known := by
  obtain ⟨-, given, isGiven, above⟩ := (closure name).mp mem
  exact (closure n).mpr ⟨nonempty, given, isGiven, covers.trans above⟩

theorem parent_mem (closure : IsClosure known names) {outer : String} (mem : name ∈ known)
    (found : parent? name = some outer) (nonempty : outer ≠ "") : outer ∈ known :=
  closure.mem_of_covers mem nonempty (covers_of_parent? found)

/-- Looking for the first known name misses none that is not known. -/
theorem mem_takeWhile (closure : IsClosure known names) (mem : n ∈ withParents name) :
    n ∈ known ∨ n ∈ (withParents name).takeWhile (!known.contains ·) := by
  induction name using parent_induction with
  | step name ih =>
    by_cases isKnown : name ∈ known
    · -- The search ends at once, and all above the name is known.
      obtain ⟨nonempty, covers⟩ := mem_withParents_iff.mp mem
      exact .inl (closure.mem_of_covers isKnown nonempty covers)
    · cases found : parent? name with
      | some outer =>
        rw [withParents_of_parent? found] at mem ⊢
        rw [List.takeWhile_cons_of_pos (by simpa using isKnown), List.mem_cons]
        rcases List.mem_cons.mp mem with rfl | above
        · exact .inr (.inl rfl)
        · exact (ih outer found above).imp_right .inr
      | none =>
        by_cases empty : name = ""
        · rw [empty, withParents_empty] at mem
          cases mem
        · rw [withParents_of_simple empty found] at mem ⊢
          rw [List.takeWhile_cons_of_pos (by simpa using isKnown)]
          exact .inr (List.mem_cons.mpr (.inl (List.mem_singleton.mp mem)))

/-- **One more name.** -/
theorem learn (closure : IsClosure known names) (name : String) :
    IsClosure (Name.learn known name) (names ++ [name]) := by
  intro n
  rw [Name.learn, List.mem_append]
  constructor
  · rintro (mem | mem)
    · obtain ⟨nonempty, given, isGiven, covers⟩ := (closure n).mp mem
      exact ⟨nonempty, given, List.mem_append_left _ isGiven, covers⟩
    · obtain ⟨nonempty, covers⟩ :=
        mem_withParents_iff.mp ((List.takeWhile_sublist _).subset mem)
      exact ⟨nonempty, name, List.mem_append_right _ List.mem_cons_self, covers⟩
  · rintro ⟨nonempty, given, isGiven, covers⟩
    rcases List.mem_append.mp isGiven with before | last
    · exact .inl ((closure n).mpr ⟨nonempty, given, before, covers⟩)
    · obtain rfl := List.mem_singleton.mp last
      exact closure.mem_takeWhile (mem_withParents_iff.mpr ⟨nonempty, covers⟩)

/-- **Many more names**, in any order and as often as they come. -/
theorem foldl_learn (closure : IsClosure known names) (more : List String) :
    IsClosure (more.foldl Name.learn known) (names ++ more) := by
  induction more generalizing known names with
  | nil => simpa using closure
  | cons name more ih => simpa using ih (closure.learn name)

end IsClosure

end ScriptLint.Name
