/-
**Lower case and marks.**

Lower case is not taken letter by letter: a capital sigma looks at its surroundings, past everything that
does not count there. Still a mark such as a slash cuts a text for it. The mark stays, no other
character becomes it, and no letter looks past it. So it makes no difference whether a text is lowered and
then cut at its marks, or cut and then lowered piece by piece.

* `IsMark` — a character of ASCII below the small letters and no capital; `lowerChar_eq_iff` says that a
  mark is the lower case of itself alone.
* `mem_lower_iff`, `lower_eq_nil_iff`, `lower_eq_singleton_iff` — the lower case of a text has its marks,
  and is empty or a single mark only if the text is.
* `IsBarrier` — a mark that is neither cased nor passed over; `lower_append` says that the parts on its two
  sides are lowered apart.
* `splitOnP_lower` — cutting and lowering may change places.
-/

import ScriptLint.Proofs.Name.Segments
import ScriptLint.Text.Case

namespace ScriptLint.Text

/-! ### Marks -/

/-- A character of ASCII that is below the small letters and no capital letter. -/
structure IsMark (c : Char) : Prop where
  positive : 0 < c.toNat
  low : c.toNat < 0x61
  notCapital : c.isUpper = false

theorem IsMark.ne_of_le {mark letter : Char} (isMark : IsMark mark) (above : 0x61 ≤ letter.toNat) :
    mark ≠ letter := by
  rintro rfl
  have := isMark.low
  omega

/-- No run of the table leads below the small letters. -/
theorem le_of_mem_lowerShifts : ∀ run ∈ lowerShifts, (0x61 : Int) ≤ run.first + run.shift := by
  decide +kernel

/-- In ASCII, capitals become small letters and all else stays. -/
theorem toLower_ascii : ∀ code < 0x80,
    (if (Char.ofNat code).isUpper then 0x61 ≤ (Char.ofNat code).toLower.toNat
      else (Char.ofNat code).toLower = Char.ofNat code) := by
  decide +kernel

theorem not_isMark_ofNat {code : Nat} (high : 0x61 ≤ code) : ¬ IsMark (Char.ofNat code) := by
  rintro ⟨positive, low, -⟩
  by_cases valid : code.isValidChar
  · have char_eq : Char.ofNat code = Char.ofNatAux code valid := dif_pos valid
    have code_eq : (Char.ofNatAux code valid).toNat = code := rfl
    rw [char_eq, code_eq] at low
    omega
  · have char_eq : Char.ofNat code = '\x00' := dif_neg valid
    rw [char_eq] at positive
    cases positive

variable {mark c : Char}

/-- **A mark is the lower case of itself alone.** -/
theorem lowerChar_eq_iff (isMark : IsMark mark) : lowerChar c = mark ↔ c = mark := by
  unfold lowerChar
  by_cases ascii : c.toNat < 0x80
  · rw [if_pos ascii]
    have lowered := toLower_ascii c.toNat ascii
    rw [Char.ofNat_toNat] at lowered
    by_cases capital : c.isUpper = true
    · rw [if_pos capital] at lowered
      refine iff_of_false (Ne.symm (isMark.ne_of_le lowered)) ?_
      rintro rfl
      rw [isMark.notCapital] at capital
      cases capital
    · rw [if_neg capital] at lowered
      rw [lowered]
  · rw [if_neg ascii]
    have other : c ≠ mark := Ne.symm (isMark.ne_of_le (by omega))
    refine iff_of_false (fun same => ?_) other
    split at same
    · rename_i run found
      have inside := List.find?_some found
      have high := le_of_mem_lowerShifts run (List.mem_of_find?_eq_some found)
      rw [CodeRange.contains, Bool.and_eq_true, Bool.and_eq_true, decide_eq_true_eq] at inside
      obtain ⟨⟨first, -⟩, -⟩ := inside
      exact not_isMark_ofNat (by omega) (same ▸ isMark)
    · exact other same

/-! ### The marks of a lowered text -/

/-- What a character becomes between the text before it, nearest character first, and the text after. -/
def lowerPiece (before : List Char) (c : Char) (rest : List Char) : List Char :=
  if c = 'Σ' then [if endsWord before rest then 'ς' else 'σ']
  else if c = 'İ' then ['i', '\u0307']
  else [lowerChar c]

theorem lowerFrom_cons (before : List Char) (c : Char) (rest : List Char) :
    lowerFrom before (c :: rest) = lowerPiece before c rest ++ lowerFrom (c :: before) rest := rfl

theorem lowerPiece_ne_nil (before : List Char) (c : Char) (rest : List Char) :
    lowerPiece before c rest ≠ [] := by
  unfold lowerPiece
  split
  · exact List.cons_ne_nil _ _
  · split <;> exact List.cons_ne_nil _ _

theorem mem_lowerPiece_iff (isMark : IsMark mark) {before rest : List Char} :
    mark ∈ lowerPiece before c rest ↔ c = mark := by
  unfold lowerPiece
  by_cases sigma : c = 'Σ'
  · rw [if_pos sigma, sigma]
    refine iff_of_false (fun member => ?_) (Ne.symm (isMark.ne_of_le (by decide)))
    rw [List.mem_singleton] at member
    split at member
    · exact isMark.ne_of_le (by decide) member
    · exact isMark.ne_of_le (by decide) member
  · rw [if_neg sigma]
    by_cases dotted : c = 'İ'
    · rw [if_pos dotted, dotted]
      refine iff_of_false (fun member => ?_) (Ne.symm (isMark.ne_of_le (by decide)))
      rcases List.mem_cons.mp member with first | second
      · exact isMark.ne_of_le (by decide) first
      · exact isMark.ne_of_le (by decide) (List.mem_singleton.mp second)
    · rw [if_neg dotted, List.mem_singleton, eq_comm, lowerChar_eq_iff isMark]

theorem lowerPiece_mark (isMark : IsMark mark) (before rest : List Char) :
    lowerPiece before mark rest = [mark] := by
  rw [lowerPiece, if_neg (isMark.ne_of_le (by decide)), if_neg (isMark.ne_of_le (by decide)),
    (lowerChar_eq_iff isMark).mpr rfl]

theorem mem_lowerFrom_iff (isMark : IsMark mark) {before s : List Char} :
    mark ∈ lowerFrom before s ↔ mark ∈ s := by
  induction s generalizing before with
  | nil => exact Iff.rfl
  | cons c rest ih =>
    rw [lowerFrom_cons, List.mem_append, mem_lowerPiece_iff isMark, ih, List.mem_cons, eq_comm]

/-- **The lower case of a text has its marks**, and no others. -/
theorem mem_lower_iff (isMark : IsMark mark) {s : List Char} : mark ∈ lower s ↔ mark ∈ s :=
  mem_lowerFrom_iff isMark

theorem lower_eq_nil_iff {s : List Char} : lower s = [] ↔ s = [] := by
  cases s with
  | nil => exact Iff.rfl
  | cons c rest => simp [lower, lowerFrom_cons, lowerPiece_ne_nil]

theorem lower_eq_singleton_iff (isMark : IsMark mark) {s : List Char} :
    lower s = [mark] ↔ s = [mark] := by
  constructor
  · intro single
    cases s with
    | nil => cases single
    | cons c rest =>
      rw [lower, lowerFrom_cons] at single
      obtain ⟨none, -⟩ | ⟨piece, none⟩ := List.append_eq_singleton_iff.mp single
      · exact absurd none (lowerPiece_ne_nil _ _ _)
      · have same : c = mark := (mem_lowerPiece_iff isMark).mp (piece ▸ List.mem_singleton_self mark)
        cases rest with
        | nil => rw [same]
        | cons d more =>
          rw [lowerFrom_cons] at none
          exact absurd (List.append_eq_nil_iff.mp none).1 (lowerPiece_ne_nil _ _ _)
  · rintro rfl
    rw [lower, lowerFrom_cons, lowerPiece_mark isMark]
    rfl

/-! ### Lowering on both sides of a mark -/

/-- A mark that no letter looks past. -/
structure IsBarrier (c : Char) : Prop extends IsMark c where
  notCased : isCased c = false
  notIgnorable : isCaseIgnorable c = false

section Barrier

variable (barrier : IsBarrier mark)
include barrier

theorem meetsCased_append (s t : List Char) : meetsCased (s ++ mark :: t) = meetsCased s := by
  unfold meetsCased
  have stops : (mark :: t).dropWhile isCaseIgnorable = mark :: t :=
    List.dropWhile_cons_of_neg (by simp [barrier.notIgnorable])
  cases left : s.dropWhile isCaseIgnorable with
  | nil =>
    rw [List.dropWhile_append, left, if_pos List.isEmpty_nil, stops]
    exact barrier.notCased
  | cons d more =>
    rw [List.dropWhile_append, left, if_neg (by simp)]
    rfl

theorem lowerPiece_append_after (before : List Char) (c : Char) (s t : List Char) :
    lowerPiece before c (s ++ mark :: t) = lowerPiece before c s := by
  rw [lowerPiece, endsWord, meetsCased_append barrier]
  rfl

theorem lowerPiece_append_before (s before : List Char) (c : Char) (rest : List Char) :
    lowerPiece (s ++ mark :: before) c rest = lowerPiece s c rest := by
  rw [lowerPiece, endsWord, meetsCased_append barrier]
  rfl

/-- What stands before the mark makes no difference behind it. -/
theorem lowerFrom_behind (s before t : List Char) :
    lowerFrom (s ++ mark :: before) t = lowerFrom s t := by
  induction t generalizing s with
  | nil => rfl
  | cons c rest ih =>
    rw [lowerFrom_cons, lowerFrom_cons, lowerPiece_append_before barrier, ← List.cons_append, ih]

theorem lowerFrom_append (before s t : List Char) :
    lowerFrom before (s ++ mark :: t) = lowerFrom before s ++ mark :: lower t := by
  induction s generalizing before with
  | nil =>
    have behind := lowerFrom_behind barrier [] before t
    rw [List.nil_append] at behind
    rw [List.nil_append, lowerFrom_cons, lowerPiece_mark barrier.toIsMark, behind]
    rfl
  | cons c rest ih =>
    rw [List.cons_append, lowerFrom_cons, lowerFrom_cons, lowerPiece_append_after barrier, ih,
      List.append_assoc]

/-- **The two sides of a barrier** are lowered apart. -/
theorem lower_append (s t : List Char) : lower (s ++ mark :: t) = lower s ++ mark :: lower t :=
  lowerFrom_append barrier [] s t

end Barrier

/-! ### Cutting and lowering -/

/-- **A text may be lowered and then cut at barriers, or cut and then lowered.** -/
theorem splitOnP_lower {separates : Char → Bool}
    (barriers : ∀ c, separates c = true → IsBarrier c) (s : List Char) :
    (lower s).splitOnP separates = (s.splitOnP separates).map lower := by
  have plain_lower {s : List Char} (plain : ∀ c ∈ s, separates c = false) :
      ∀ c ∈ lower s, separates c = false := by
    intro c member
    by_contra parts
    rw [Bool.not_eq_false] at parts
    have inside := (mem_lower_iff (barriers c parts).toIsMark).mp member
    rw [plain c inside] at parts
    cases parts
  induction s using marks_induction separates with
  | plain s plain =>
    rw [List.splitOnP_eq_singleton plain, List.splitOnP_eq_singleton (plain_lower plain)]
    rfl
  | joined s c t plain parts ih =>
    rw [lower_append (barriers c parts), List.splitOnP_append_cons_of_forall_mem (plain_lower plain) c parts,
      ih, List.splitOnP_append_cons_of_forall_mem plain c parts, List.map_cons]

end ScriptLint.Text
