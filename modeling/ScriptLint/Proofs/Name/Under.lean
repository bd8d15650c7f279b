/-
**Namespaces beneath one another.**

* `trimmed` — a name without the dots at its end.
* `isUnder_iff` — a namespace lies under another one if that one, trimmed, is the whole of it or is
  followed by a dot; trimming both sides does not change this.
* `isUnder_self_iff` — a name lies under itself unless it is made of dots only.
* `isUnder_alike_iff` — two names lie under the same namespaces exactly if they are the same up to dots
  at their ends.
-/

import ScriptLint.Name
import ScriptLint.Proofs.Text.Parts

namespace ScriptLint.Name

/-- The name without the dots at its end. -/
def trimmed (name : String) : List Char :=
  Text.dropEndWhile (· == '.') name.toList

theorem last_trimmed {name : String} {c : Char} (last : (trimmed name).getLast? = some c) :
    c ≠ '.' := by
  simpa using Text.getLast?_dropEndWhile last

/-- What is trimmed away are dots. -/
theorem exists_trimmed (name : String) :
    ∃ dots, name.toList = trimmed name ++ dots ∧ ∀ c ∈ dots, c = '.' := by
  obtain ⟨dots, split, all⟩ := Text.exists_dropEndWhile (· == '.') name.toList
  exact ⟨dots, split, fun c member => by simpa using all c member⟩

theorem trimmed_ne_nil_iff {name : String} : trimmed name ≠ [] ↔ ∃ c ∈ name.toList, c ≠ '.' := by
  obtain ⟨dots, split, all⟩ := exists_trimmed name
  constructor
  · intro nonempty
    obtain ⟨front, last, concat⟩ := (List.eq_nil_or_concat' _).resolve_left nonempty
    refine ⟨last, ?_, @last_trimmed name last (by rw [concat, List.getLast?_concat])⟩
    rw [split, concat]
    simp
  · rintro ⟨c, member, other⟩ empty
    rw [split, empty, List.nil_append] at member
    exact other (all c member)

theorem isUnder_iff {outer name : String} :
    isUnder outer name = true ↔ trimmed outer ≠ [] ∧
      (name.toList = trimmed outer ∨ trimmed outer ++ ['.'] <+: name.toList) := by
  unfold isUnder
  dsimp only
  rw [Bool.and_eq_true]
  have trims : Text.dropEndWhile (· == '.') outer.toList = trimmed outer := rfl
  rw [trims]
  refine and_congr (by simp) ?_
  constructor
  · intro under
    split at under
    next found => exact .inl (by rw [← List.append_eq_of_isPrefixOf?_eq_some found, List.append_nil])
    next c rest found =>
      rw [beq_iff_eq] at under
      subst under
      refine .inr ⟨rest, ?_⟩
      rw [← List.append_eq_of_isPrefixOf?_eq_some found, List.append_assoc, List.singleton_append]
    next => cases under
  · rintro (whole | ⟨rest, starts⟩)
    · have found : List.isPrefixOf? (trimmed outer) name.toList = some [] :=
        List.isPrefixOf?_eq_some_iff_append_eq.mpr (by rw [whole, List.append_nil])
      rw [found]
    · have found : List.isPrefixOf? (trimmed outer) name.toList = some ('.' :: rest) :=
        List.isPrefixOf?_eq_some_iff_append_eq.mpr (by simpa using starts)
      rw [found]
      rfl

/-- Dots at the end of the inner name do not count either. -/
theorem isUnder_iff_trimmed {outer name : String} :
    isUnder outer name = true ↔ trimmed outer ≠ [] ∧
      (trimmed name = trimmed outer ∨ trimmed outer ++ ['.'] <+: trimmed name) := by
  rw [isUnder_iff]
  refine and_congr_right fun nonempty => ?_
  obtain ⟨dots, split, all⟩ := exists_trimmed name
  rw [split]
  constructor
  · rintro (whole | starts)
    · -- The whole name ends as `outer` does, in something else than a dot.
      have none : dots = [] := by
        rcases List.eq_nil_or_concat' dots with rfl | ⟨front, last, rfl⟩
        · rfl
        · have isLast : (trimmed outer).getLast? = some last := by
            rw [← whole, ← List.append_assoc, List.getLast?_concat]
          exact (last_trimmed isLast (all last (by simp))).elim
      rw [none, List.append_nil] at whole
      exact .inl whole
    · rcases List.prefix_or_prefix_of_prefix starts (List.prefix_append (trimmed name) dots) with
        inside | ⟨more, beyond⟩
      · exact .inr inside
      · -- What is left of `outer` behind the trimmed name are dots, and `outer` does not end so.
        rcases List.eq_nil_or_concat' more with rfl | ⟨front, last, rfl⟩
        · rw [List.append_nil] at beyond
          exact .inr (beyond ▸ List.prefix_rfl)
        · rw [← List.append_assoc] at beyond
          obtain ⟨same, -⟩ := List.append_inj' beyond rfl
          rcases List.eq_nil_or_concat' front with rfl | ⟨inner, c, rfl⟩
          · rw [List.append_nil] at same
            exact .inl same
          · have isLast : (trimmed outer).getLast? = some c := by
              rw [← same, ← List.append_assoc, List.getLast?_concat]
            refine (last_trimmed isLast (all c ?_)).elim
            obtain ⟨rest, starts⟩ := starts
            rw [← same, List.append_assoc, List.append_assoc, List.append_cancel_left_eq] at starts
            rw [← starts]
            simp
  · rintro (same | ⟨rest, starts⟩)
    · rw [same]
      cases dots with
      | nil => exact .inl (List.append_nil _)
      | cons c more =>
        obtain rfl := all c List.mem_cons_self
        exact .inr ⟨more, by rw [List.append_assoc, List.singleton_append]⟩
    · exact .inr ⟨rest ++ dots, by rw [← List.append_assoc, starts]⟩

theorem isUnder_self_iff {name : String} :
    isUnder name name = true ↔ ∃ c ∈ name.toList, c ≠ '.' := by
  rw [isUnder_iff_trimmed, ← trimmed_ne_nil_iff]
  exact and_iff_left (.inl rfl)

/-- **Names that lie under the same namespaces** are the same up to dots at their ends. -/
theorem isUnder_alike_iff {a b : String} :
    (∀ outer, isUnder outer a = isUnder outer b) ↔ trimmed a = trimmed b := by
  constructor
  · intro alike
    have shorter : ∀ {a b : String}, (∀ outer, isUnder outer a = isUnder outer b) →
        trimmed a ≠ [] → trimmed b = trimmed a ∨ (trimmed a).length < (trimmed b).length := by
      intro a b alike nonempty
      have under : isUnder a b = true := alike a ▸ isUnder_iff_trimmed.mpr ⟨nonempty, .inl rfl⟩
      refine (isUnder_iff_trimmed.mp under).2.imp_right fun starts => ?_
      have longer := starts.length_le
      rw [List.length_append, List.length_singleton] at longer
      omega
    by_cases emptyA : trimmed a = []
    · by_cases emptyB : trimmed b = []
      · rw [emptyA, emptyB]
      · rcases shorter (fun outer => (alike outer).symm) emptyB with same | longer
        · exact same
        · rw [emptyA] at longer
          exact absurd longer (Nat.not_lt_zero _)
    · rcases shorter alike emptyA with same | longer
      · exact same.symm
      · have emptyB : trimmed b ≠ [] := fun empty => by
          rw [empty] at longer
          exact Nat.not_lt_zero _ longer
        rcases shorter (fun outer => (alike outer).symm) emptyB with same | shorter
        · exact same
        · omega
  · intro same outer
    rw [Bool.eq_iff_iff, isUnder_iff_trimmed, isUnder_iff_trimmed, same]

end ScriptLint.Name
