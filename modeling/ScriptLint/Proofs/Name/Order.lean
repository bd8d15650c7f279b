/-
**Namespaces, segment by segment.**

Whether a namespace lies under another one is tested on characters: the outer name stands at the start,
and then there is nothing more or a dot. It comes to the same to compare what stands between the dots,
whatever dots there are: in a row, at the start, or at the end of the inner name.

* `core` — a name without the dots at its end.
* `segments_prefix_iff` — the first segments of a name make up another one exactly if that one is the
  whole name or is followed by a dot.
* `isUnder_iff_segments`, `isUnder_iff_core` — so lying under a namespace is a matter of segments, and
  dots at the end of either name make no difference.
* `isUnder_segmentwise` — this, and what follows from it: names that do not end with a dot are ordered.
-/

import ScriptLint.Proofs.Name.Above

namespace ScriptLint.Name

variable {outer name : String}

/-- The name without the dots at its end, as a name. -/
def core (name : String) : String :=
  String.ofList (trimmed name)

theorem toList_core (name : String) : (core name).toList = trimmed name :=
  String.toList_ofList

theorem core_ne_empty_iff : core name ≠ "" ↔ trimmed name ≠ [] := by
  rw [← toList_core, ne_eq, ne_eq, String.toList_eq_nil_iff]

theorem core_eq_self (undotted : name.toList.getLast? ≠ some '.') : core name = name := by
  apply String.toList_inj.mp
  rw [toList_core, trimmed_eq undotted]

/-- A name is put together from its segments, so no other one has them. -/
theorem segments_injective : Function.Injective segments := by
  intro name other same
  apply String.toList_inj.mp
  rw [← intercalate_segments name, same, intercalate_segments]

theorem segments_prefix_iff :
    segments outer <+: segments name ↔
      name.toList = outer.toList ∨ outer.toList ++ ['.'] <+: name.toList := by
  constructor
  · intro first
    by_cases same : outer = name
    · exact .inl (by rw [same])
    · obtain ⟨rest, rfl⟩ := isAbove_iff.mp ⟨first, same⟩
      exact .inr ⟨rest.toList, by simp⟩
  · rintro (same | ⟨rest, starts⟩)
    · obtain rfl := String.toList_inj.mp same
      exact List.prefix_rfl
    · have above : IsAbove outer name := by
        refine isAbove_iff.mpr ⟨String.ofList rest, String.toList_inj.mp ?_⟩
        rw [← starts]
        simp
      exact above.1

/-- **Lying under a namespace** means to begin with its segments. -/
theorem isUnder_iff_segments :
    isUnder outer name = true ↔ core outer ≠ "" ∧ segments (core outer) <+: segments name := by
  rw [isUnder_iff, core_ne_empty_iff, segments_prefix_iff, toList_core]

theorem isUnder_iff_core :
    isUnder outer name = true ↔ core outer ≠ "" ∧ segments (core outer) <+: segments (core name) := by
  rw [isUnder_iff_trimmed, core_ne_empty_iff, segments_prefix_iff, toList_core, toList_core]

theorem isUnder_trans {first second third : String} (upper : isUnder first second = true)
    (lower : isUnder second third = true) : isUnder first third = true := by
  obtain ⟨nonempty, begins⟩ := isUnder_iff_core.mp upper
  exact isUnder_iff_core.mpr ⟨nonempty, begins.trans (isUnder_iff_core.mp lower).2⟩

/-- Two names that lie under each other are the same up to dots at their ends. -/
theorem core_eq_of_isUnder (under : isUnder outer name = true) (above : isUnder name outer = true) :
    core outer = core name := by
  have begins := (isUnder_iff_core.mp under).2
  have begins' := (isUnder_iff_core.mp above).2
  exact segments_injective (begins.eq_of_length_le begins'.length_le)

/-- **A namespace lies under another one segment by segment.** It does so exactly if the other name
without the dots at its end is not empty and its segments, empty ones among them, are the first
segments of the namespace. So lying under is transitive, and on names that do not end with a dot it is
antisymmetric and, but for the empty name, reflexive. -/
theorem isUnder_segmentwise :
    (∀ outer name : String, isUnder outer name = true ↔
      core outer ≠ "" ∧ segments (core outer) <+: segments name) ∧
    (∀ name : String, name.toList.getLast? ≠ some '.' → name ≠ "" → isUnder name name = true) ∧
    (∀ first second third : String, isUnder first second = true → isUnder second third = true →
      isUnder first third = true) ∧
    ∀ first second : String, first.toList.getLast? ≠ some '.' → second.toList.getLast? ≠ some '.' →
      isUnder first second = true → isUnder second first = true → first = second := by
  refine ⟨fun _ _ => isUnder_iff_segments, ?_, fun _ _ _ => isUnder_trans, ?_⟩
  · intro name undotted nonempty
    rw [isUnder_iff_segments, core_eq_self undotted]
    exact ⟨nonempty, List.prefix_rfl⟩
  · intro first second undotted undotted' under above
    have same := core_eq_of_isUnder under above
    rwa [core_eq_self undotted, core_eq_self undotted'] at same

/-- Dots at the start of a name make a segment, and those at the end of the outer name none. -/
theorem isUnder_segmentwise_dots :
    segments (core ".System..") = [[], "System".toList] ∧
      segments ".System.Linq." = [[], "System".toList, "Linq".toList, []] ∧
      isUnder ".System.." ".System.Linq.Expressions" = true ∧
      ".System".toList.getLast? ≠ some '.' ∧ isUnder ".System" ".System" = true := by
  have outer : segments (core ".System..") = [[], "System".toList] := by decide
  have name : segments ".System.Linq." = [[], "System".toList, "Linq".toList, []] := by decide
  have undotted : ".System".toList.getLast? ≠ some '.' := by decide
  have upper : isUnder ".System.." ".System.Linq." = true := by
    rw [isUnder_segmentwise.1, outer, name]
    decide
  have lower : isUnder ".System.Linq." ".System.Linq.Expressions" = true := by decide
  exact ⟨outer, name, isUnder_segmentwise.2.2.1 _ _ _ upper lower, undotted,
    isUnder_segmentwise.2.1 _ undotted (by decide)⟩

end ScriptLint.Name
