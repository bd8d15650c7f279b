/-
**A batch of edits performs some of its replacements, all at once.**

A batch rewrites one text again and again, from the end backwards, and every replacement is given in
offsets of the text as it was at first. Here the text of the outcome is described from that first
text alone:

* `splice replacements text` — one pass over the text: at each offset the new text of the
  replacements that start there, then the character that stands there unless a span contains it.
* `Compatible`, `Conflicts` — two replacements can, or cannot, both be performed.
* `Stage original progress before after kept skipped` — what holds between two steps of a batch: the
  text so far is `before`, untouched, and then the splice of `kept` into `after`.
* `Stage.skip`, `Stage.perform` — what one step does to a stage; `Stage.run` — what a run does.
* `applyAll?_splices` — the outcome of a batch is the splice of those replacements that it keeps,
  and each of the others conflicts with one of these.
-/

import Mathlib.Data.List.Perm.Subperm
import ScriptLint.Edit
import ScriptLint.Proofs.Text.Parts

namespace ScriptLint

namespace Replacement

/-- The replacements start at different offsets, and one of them stops before the other starts. -/
def Compatible (a b : Replacement) : Prop :=
  a.span.start ≠ b.span.start ∧ (a.span.stop ≤ b.span.start ∨ b.span.stop ≤ a.span.start)

/-- The replacements start at the same offset, or the one that starts earlier reaches past the start
of the other. -/
def Conflicts (a b : Replacement) : Prop :=
  a.span.start = b.span.start ∨
    (a.span.start < b.span.start ∧ b.span.start < a.span.stop) ∨
    (b.span.start < a.span.start ∧ a.span.start < b.span.stop)

/-- Both ends of the span are places to cut the text, in order. -/
def Fits (text : List Char) (replacement : Replacement) : Prop :=
  ∃ before middle after, text = before ++ middle ++ after ∧
    replacement.span.start = Text.size before ∧
    replacement.span.stop = Text.size before + Text.size middle

theorem Compatible.symm {a b : Replacement} (compatible : Compatible a b) : Compatible b a :=
  ⟨compatible.1.symm, compatible.2.symm⟩

/-! ### The splice -/

/-- The new texts of the replacements that start at an offset. -/
def insertedAt (replacements : List Replacement) (offset : Nat) : List Char :=
  (replacements.filter (·.span.start == offset)).flatMap (·.newText.toList)

/-- What the replacements make of a text that begins at `offset`. -/
def spliceFrom (replacements : List Replacement) (offset : Nat) : List Char → List Char
  | [] => insertedAt replacements offset
  | c :: rest =>
    insertedAt replacements offset ++
      (if replacements.any (·.span.contains offset) then [] else [c]) ++
        spliceFrom replacements (offset + c.utf8Size) rest

/-- All the replacements performed on a text at once. -/
def splice (replacements : List Replacement) (text : List Char) : List Char :=
  spliceFrom replacements 0 text

variable {replacements : List Replacement} {offset : Nat}

theorem insertedAt_eq_nil (none : ∀ r ∈ replacements, r.span.start ≠ offset) :
    insertedAt replacements offset = [] := by
  have : replacements.filter (·.span.start == offset) = [] :=
    List.filter_eq_nil_iff.mpr fun r member => by simpa using none r member
  rw [insertedAt, this, List.flatMap_nil]

theorem insertedAt_cons_self (r : Replacement)
    (rest : ∀ s ∈ replacements, s.span.start ≠ r.span.start) :
    insertedAt (r :: replacements) r.span.start = r.newText.toList := by
  have others := insertedAt_eq_nil rest
  rw [insertedAt] at others
  rw [insertedAt, List.filter_cons_of_pos (by simp), List.flatMap_cons, others, List.append_nil]

theorem insertedAt_cons_of_ne {r : Replacement} (elsewhere : r.span.start ≠ offset) :
    insertedAt (r :: replacements) offset = insertedAt replacements offset := by
  rw [insertedAt, List.filter_cons_of_neg (by simpa using elsewhere), insertedAt]

/-- Nothing changes before the first start. -/
theorem spliceFrom_append (s t : List Char)
    (later : ∀ r ∈ replacements, offset + Text.size s ≤ r.span.start) :
    spliceFrom replacements offset (s ++ t) =
      s ++ spliceFrom replacements (offset + Text.size s) t := by
  induction s generalizing offset with
  | nil => rfl
  | cons c rest ih =>
    have positive := c.utf8Size_pos
    simp only [Text.size_cons] at later
    have inserted : insertedAt replacements offset = [] :=
      insertedAt_eq_nil fun r member => by have := later r member; omega
    have outside : (replacements.any fun r => r.span.contains offset) = false := by
      rw [List.any_eq_false]
      intro r member
      have := later r member
      simp only [Span.contains, Bool.and_eq_true, decide_eq_true_eq]
      omega
    have onward : spliceFrom replacements (offset + c.utf8Size) (rest ++ t) =
        rest ++ spliceFrom replacements (offset + c.utf8Size + Text.size rest) t :=
      ih fun r member => by have := later r member; omega
    rw [List.cons_append, spliceFrom, inserted, outside, onward, Text.size_cons, Nat.add_assoc]
    simp

/-- A replacement changes nothing after its span. -/
theorem spliceFrom_cons_of_stop_le {r : Replacement} (s : List Char)
    (started : r.span.start < offset) (stopped : r.span.stop ≤ offset) :
    spliceFrom (r :: replacements) offset s = spliceFrom replacements offset s := by
  induction s generalizing offset with
  | nil => exact insertedAt_cons_of_ne (by omega)
  | cons c rest ih =>
    have outside : r.span.contains offset = false := by
      simp only [Span.contains, Bool.and_eq_false_iff, decide_eq_false_iff_not]
      omega
    rw [spliceFrom, spliceFrom, insertedAt_cons_of_ne (by omega), List.any_cons, outside,
      Bool.false_or, ih (by omega) (by omega)]

/-- The rest of a span is left out. -/
theorem spliceFrom_cons_inside {r : Replacement} (s t : List Char) (started : r.span.start < offset)
    (stop : r.span.stop = offset + Text.size s)
    (later : ∀ k ∈ replacements, r.span.stop ≤ k.span.start) :
    spliceFrom (r :: replacements) offset (s ++ t) = spliceFrom replacements r.span.stop t := by
  induction s generalizing offset with
  | nil =>
    rw [stop, Text.size_nil, Nat.add_zero]
    exact spliceFrom_cons_of_stop_le t started (by simp [stop])
  | cons c rest ih =>
    have positive := c.utf8Size_pos
    rw [Text.size_cons] at stop
    have inside : r.span.contains offset = true := by
      simp only [Span.contains, Bool.and_eq_true, decide_eq_true_eq]
      omega
    have inserted : insertedAt (r :: replacements) offset = [] := by
      rw [insertedAt_cons_of_ne (by omega)]
      exact insertedAt_eq_nil fun k member => by have := later k member; omega
    rw [List.cons_append, spliceFrom, inserted, List.any_cons, inside, Bool.true_or,
      ih (by omega) (by omega)]
    rfl

/-- **A span is replaced.** The other replacements start after the one performed, and not before it
stops. -/
theorem spliceFrom_cons_span (r : Replacement) (s t : List Char)
    (stop : r.span.stop = r.span.start + Text.size s)
    (later : ∀ k ∈ replacements, r.span.start < k.span.start ∧ r.span.stop ≤ k.span.start) :
    spliceFrom (r :: replacements) r.span.start (s ++ t) =
      r.newText.toList ++ spliceFrom replacements r.span.stop t := by
  have inserted : insertedAt (r :: replacements) r.span.start = r.newText.toList :=
    insertedAt_cons_self r fun k member => by have := later k member; omega
  have none : insertedAt replacements r.span.start = [] :=
    insertedAt_eq_nil fun k member => by have := later k member; omega
  have outside : (replacements.any fun k => k.span.contains r.span.start) = false := by
    rw [List.any_eq_false]
    intro k member
    have := later k member
    simp only [Span.contains, Bool.and_eq_true, decide_eq_true_eq]
    omega
  cases s with
  | nil =>
    -- An insertion: the character after it is kept.
    rw [Text.size_nil, Nat.add_zero] at stop
    rw [List.nil_append, stop]
    cases t with
    | nil => rw [spliceFrom, spliceFrom, inserted, none, List.append_nil]
    | cons c rest =>
      have positive := c.utf8Size_pos
      have empty : r.span.contains r.span.start = false := by simp [Span.contains, stop]
      rw [spliceFrom, spliceFrom, inserted, none, List.any_cons, empty, Bool.false_or,
        spliceFrom_cons_of_stop_le rest (by omega) (by omega), List.append_assoc, List.nil_append]
  | cons c rest =>
    have positive := c.utf8Size_pos
    rw [Text.size_cons] at stop
    have inside : r.span.contains r.span.start = true := by
      simp only [Span.contains, Bool.and_eq_true, decide_eq_true_eq]
      omega
    rw [List.cons_append, spliceFrom, inserted, List.any_cons, inside, Bool.true_or,
      spliceFrom_cons_inside rest t (by omega) (by omega) fun k member => (later k member).2]
    simp

/-! ### The order of the replacements does not matter -/

/-- Of replacements with different starts at most one starts at an offset. -/
theorem length_filter_start_le
    (apart : replacements.Pairwise fun a b => a.span.start ≠ b.span.start) :
    (replacements.filter (·.span.start == offset)).length ≤ 1 := by
  have kept := apart.filter (·.span.start == offset)
  match found : replacements.filter (·.span.start == offset) with
  | [] => simp [found]
  | [_] => simp [found]
  | first :: second :: _ =>
    have here (r : Replacement) (member : r ∈ replacements.filter (·.span.start == offset)) :
        r.span.start = offset := by
      simpa using (List.mem_filter.mp member).2
    rw [found] at kept here
    have different := List.rel_of_pairwise_cons kept (List.mem_cons_self (a := second))
    exact absurd ((here first (by simp)).trans (here second (by simp)).symm) different

theorem insertedAt_perm {others : List Replacement} (same : replacements.Perm others)
    (apart : replacements.Pairwise fun a b => a.span.start ≠ b.span.start) (offset : Nat) :
    insertedAt replacements offset = insertedAt others offset := by
  have few : (replacements.filter (·.span.start == offset)).length ≤ 1 :=
    length_filter_start_le apart
  have filtered := same.filter (·.span.start == offset)
  have equal : replacements.filter (·.span.start == offset) =
      others.filter (·.span.start == offset) := by
    match found : replacements.filter (·.span.start == offset) with
    | [] =>
      rw [found] at filtered
      exact found.trans filtered.nil_eq
    | [single] =>
      rw [found] at filtered
      exact found.trans filtered.singleton_eq
    | _ :: _ :: _ =>
      rw [found] at few
      simp at few
  rw [insertedAt, insertedAt, equal]

/-- **The splice is of a set of replacements**, as long as no two start at one offset. -/
theorem splice_perm {others : List Replacement} (same : replacements.Perm others)
    (apart : replacements.Pairwise fun a b => a.span.start ≠ b.span.start) (text : List Char) :
    splice replacements text = splice others text := by
  have onward (s : List Char) (offset : Nat) :
      spliceFrom replacements offset s = spliceFrom others offset s := by
    induction s generalizing offset with
    | nil => exact insertedAt_perm same apart offset
    | cons c rest ih =>
      have covered : (replacements.any fun r => r.span.contains offset) =
          others.any fun r => r.span.contains offset := by
        rw [Bool.eq_iff_iff, List.any_eq_true, List.any_eq_true]
        simp only [same.mem_iff]
      rw [spliceFrom, spliceFrom, insertedAt_perm same apart, covered, ih]
  exact onward text 0

/-! ### The order of performance -/

theorem performedBefore_trans (a b c : Replacement) (first : performedBefore a b = true)
    (second : performedBefore b c = true) : performedBefore a c = true := by
  simp only [performedBefore, Bool.or_eq_true, Bool.and_eq_true, decide_eq_true_eq, beq_iff_eq]
    at first second ⊢
  omega

theorem performedBefore_total (a b : Replacement) :
    (performedBefore a b || performedBefore b a) = true := by
  simp only [performedBefore, Bool.or_eq_true, Bool.and_eq_true, decide_eq_true_eq, beq_iff_eq]
  omega

/-- What is performed later does not start later in the text. -/
theorem start_le_of_performedBefore {a b : Replacement} (before : performedBefore a b = true) :
    b.span.start ≤ a.span.start := by
  simp only [performedBefore, Bool.or_eq_true, Bool.and_eq_true, decide_eq_true_eq, beq_iff_eq]
    at before
  omega

theorem pairwise_start_mergeSort (replacements : List Replacement) :
    (replacements.mergeSort performedBefore).Pairwise fun a b => b.span.start ≤ a.span.start :=
  (List.pairwise_mergeSort performedBefore_trans performedBefore_total replacements).imp
    start_le_of_performedBefore

/-- A replacement that is performed has cut the text in three. -/
theorem perform?_eq_some_iff {text result : List Char} {r : Replacement} :
    r.perform? text = some result ↔
      ∃ before restOfText untilStop after, text = before ++ restOfText ∧
        text = untilStop ++ after ∧ Text.size before = r.span.start ∧
        Text.size untilStop = r.span.stop ∧ result = before ++ r.newText.toList ++ after := by
  simp only [perform?, Option.bind_eq_bind, Option.bind_eq_some_iff, Option.pure_def,
    Option.some.injEq, Prod.exists, Text.cut?_eq_some_iff]
  constructor
  · rintro ⟨before, restOfText, ⟨first, start⟩, untilStop, after, ⟨second, stop⟩, rfl⟩
    exact ⟨before, restOfText, untilStop, after, first, second, start, stop, rfl⟩
  · rintro ⟨before, restOfText, untilStop, after, first, second, start, stop, rfl⟩
    exact ⟨before, restOfText, ⟨first, start⟩, untilStop, after, ⟨second, stop⟩, rfl⟩

end Replacement

namespace Edit

open Replacement

/-! ### The replacement of an edit -/

theorem start_le_stop_removalSpan (before after : List Char) {node : Span}
    (ordered : node.start ≤ node.stop) :
    (removalSpan before after node).start ≤ (removalSpan before after node).stop := by
  unfold removalSpan
  dsimp only
  split
  · show node.start - _ ≤ node.stop + _ + _
    omega
  · show node.start ≤ node.stop + _
    omega

theorem start_le_stop_of_replacement? {text : List Char} {edit : Edit} {r : Replacement}
    (found : edit.replacement? text = some r) : r.span.start ≤ r.span.stop := by
  cases edit with
  | remove target =>
    simp only [replacement?, removalSpan?, Option.bind_eq_bind, Option.bind_eq_some_iff,
      Option.pure_def, Option.some.injEq] at found
    obtain ⟨span, ⟨_, _, _, _, rfl⟩, rfl⟩ := found
    exact start_le_stop_removalSpan _ _ (Nat.le_max_left _ _)
  | annotate target comment =>
    simp only [replacement?, Option.some.injEq] at found
    subst found
    exact Nat.le_refl _

/-- Each edit of a batch has its replacement, and its span is in order. -/
theorem replacements_of_mapM {text : List Char} {edits : List Edit}
    {replacements : List Replacement}
    (found : edits.mapM (replacement? text) = some replacements) :
    replacements.length = edits.length ∧ ∀ r ∈ replacements, r.span.start ≤ r.span.stop := by
  induction edits generalizing replacements with
  | nil =>
    simp only [List.mapM_nil, Option.pure_def, Option.some.injEq] at found
    subst found
    simp
  | cons edit rest ih =>
    simp only [List.mapM_cons, Option.bind_eq_bind, Option.bind_eq_some_iff, Option.pure_def,
      Option.some.injEq] at found
    obtain ⟨first, firstFound, others, othersFound, rfl⟩ := found
    obtain ⟨lengths, ordered⟩ := ih othersFound
    refine ⟨by simp [lengths], fun r member => ?_⟩
    rcases List.mem_cons.mp member with rfl | member
    · exact start_le_stop_of_replacement? firstFound
    · exact ordered r member

/-! ### A batch under way -/

/-- What holds between two steps of a batch on the text `original`: `before` is still as it was, and
behind it stands the splice of the replacements performed into `after`. -/
structure Stage (original : List Char) (progress : Progress) (before after : List Char)
    (kept skipped : List Replacement) : Prop where
  original_eq : original = before ++ after
  text_eq : progress.text = before ++ spliceFrom kept (Text.size before) after
  /-- Nothing is performed as long as there is no floor. -/
  floor_none : progress.floor = none → after = [] ∧ kept = []
  /-- The floor is the start of a replacement performed, and `before` reaches up to it. -/
  floor_some : ∀ floor, progress.floor = some floor →
    floor = Text.size before ∧ ∃ k ∈ kept, k.span.start = floor
  above : ∀ k ∈ kept, Text.size before ≤ k.span.start
  fits : ∀ k ∈ kept, k.Fits original
  compatible : kept.Pairwise Compatible
  conflicts : ∀ r ∈ skipped, ∃ k ∈ kept, r.Conflicts k
  applied_eq : progress.applied = kept.length
  skipped_eq : progress.skipped = skipped.length

/-- A batch begins with the whole text untouched. -/
theorem Stage.start (text : List Char) : Stage text ⟨text, none, 0, 0⟩ text [] [] [] where
  original_eq := (List.append_nil text).symm
  text_eq := (List.append_nil text).symm
  floor_none := fun _ => ⟨rfl, rfl⟩
  floor_some := fun _ absurd => nomatch absurd
  above := by simp
  fits := by simp
  compatible := .nil
  conflicts := by simp
  applied_eq := rfl
  skipped_eq := rfl

section Step

variable {original before after : List Char} {progress : Progress}
  {kept skipped : List Replacement} {r : Replacement}

/-- **A step that skips** its replacement has found one performed that conflicts with it. -/
theorem Stage.skip (stage : Stage original progress before after kept skipped)
    (clash : r.clashes progress.floor = true) (behind : ∀ k ∈ kept, r.span.start ≤ k.span.start) :
    Stage original { progress with skipped := progress.skipped + 1 } before after kept
      (r :: skipped) := by
  obtain ⟨floor, isFloor⟩ : ∃ floor, progress.floor = some floor := by
    cases isFloor : progress.floor with
    | none => simp [clashes, isFloor] at clash
    | some floor => exact ⟨floor, rfl⟩
  obtain ⟨-, k, member, start⟩ := stage.floor_some floor isFloor
  have conflict : r.Conflicts k := by
    simp only [clashes, isFloor, Span.isEmpty, Bool.or_eq_true, Bool.and_eq_true,
      decide_eq_true_eq, beq_iff_eq] at clash
    have := behind k member
    unfold Conflicts
    omega
  refine { stage with conflicts := fun s member' => ?_, skipped_eq := ?_ }
  · rcases List.mem_cons.mp member' with rfl | member'
    · exact ⟨k, member, conflict⟩
    · exact stage.conflicts s member'
  · rw [List.length_cons, ← stage.skipped_eq]

/-- A replacement that does not clash stops where the text is still untouched, and those performed
start after it. -/
theorem Stage.room (stage : Stage original progress before after kept skipped)
    (free : r.clashes progress.floor = false) (ordered : r.span.start ≤ r.span.stop)
    {untilStop rest : List Char} (cut : progress.text = untilStop ++ rest)
    (stop : Text.size untilStop = r.span.stop) :
    r.span.stop ≤ Text.size before ∧
      ∀ k ∈ kept, r.span.start < k.span.start ∧ r.span.stop ≤ k.span.start := by
  cases isFloor : progress.floor with
  | none =>
    obtain ⟨rfl, rfl⟩ := stage.floor_none isFloor
    have whole := congrArg Text.size (stage.text_eq.symm.trans cut)
    simp only [spliceFrom, insertedAt, List.filter_nil, List.flatMap_nil, List.append_nil,
      Text.size_append] at whole
    refine ⟨by omega, by simp⟩
  | some floor =>
    obtain ⟨rfl, -⟩ := stage.floor_some floor isFloor
    simp only [clashes, isFloor, Span.isEmpty, Bool.or_eq_false_iff, Bool.and_eq_false_iff,
      decide_eq_false_iff_not, beq_eq_false_iff_ne] at free
    refine ⟨by omega, fun k member => ?_⟩
    have := stage.above k member
    omega

/-- **A step that performs** its replacement splices it into the text at first. -/
theorem Stage.perform (stage : Stage original progress before after kept skipped)
    (free : r.clashes progress.floor = false) (ordered : r.span.start ≤ r.span.stop)
    {text : List Char} (performed : r.perform? progress.text = some text) :
    ∃ before' after', Stage original
      ⟨text, some r.span.start, progress.applied + 1, progress.skipped⟩ before' after'
      (r :: kept) skipped := by
  obtain ⟨head, _, untilStop, tail, cutStart, cutStop, start, stop, rfl⟩ :=
    perform?_eq_some_iff.mp performed
  obtain ⟨below, later⟩ := stage.room free ordered cutStop stop
  obtain ⟨gap, before_eq, tail_eq⟩ :=
    Text.exists_append_of_size_le (cutStop.symm.trans stage.text_eq) (by omega)
  obtain ⟨middle, untilStop_eq, -⟩ :=
    Text.exists_append_of_size_le (cutStart.symm.trans cutStop) (by omega)
  subst untilStop_eq before_eq tail_eq
  rw [Text.size_append] at stop
  have original_eq : original = head ++ (middle ++ (gap ++ after)) := by
    rw [stage.original_eq]
    simp only [List.append_assoc]
  have spliced : spliceFrom (r :: kept) (Text.size head) (middle ++ (gap ++ after)) =
      r.newText.toList ++ (gap ++ spliceFrom kept (Text.size (head ++ middle ++ gap)) after) := by
    have size_eq : Text.size (head ++ middle ++ gap) = r.span.stop + Text.size gap := by
      simp only [Text.size_append]
      omega
    rw [start, spliceFrom_cons_span r middle (gap ++ after) (by omega) later, size_eq,
      spliceFrom_append gap after fun k member => by
        have := stage.above k member
        omega]
  refine ⟨head, middle ++ (gap ++ after), ?_⟩
  exact {
    original_eq := original_eq
    text_eq := by rw [spliced, List.append_assoc]
    floor_none := fun absurd => nomatch absurd
    floor_some := fun floor isFloor => by
      obtain rfl := Option.some.inj isFloor
      exact ⟨start.symm, r, List.mem_cons_self, rfl⟩
    above := fun k member => by
      rcases List.mem_cons.mp member with rfl | member
      · omega
      · have := later k member
        omega
    fits := fun k member => by
      rcases List.mem_cons.mp member with rfl | member
      · exact ⟨head, middle, gap ++ after, by rw [original_eq, List.append_assoc], start.symm,
          by omega⟩
      · exact stage.fits k member
    compatible := List.pairwise_cons.mpr ⟨fun k member => by
      have := later k member
      exact ⟨by omega, .inl this.2⟩, stage.compatible⟩
    conflicts := fun s member => by
      obtain ⟨k, isKept, conflict⟩ := stage.conflicts s member
      exact ⟨k, List.mem_cons_of_mem r isKept, conflict⟩
    applied_eq := by rw [List.length_cons, ← stage.applied_eq]
    skipped_eq := stage.skipped_eq }

end Step

/-- **A run** over replacements in their order of performance ends in a stage that has kept or
skipped each of them. -/
theorem Stage.run {original : List Char} {remaining : List Replacement} {last : Progress}
    (falling : remaining.Pairwise fun a b => b.span.start ≤ a.span.start)
    (ordered : ∀ r ∈ remaining, r.span.start ≤ r.span.stop) :
    ∀ {progress : Progress} {before after : List Char} {kept skipped : List Replacement},
      Stage original progress before after kept skipped →
      (∀ k ∈ kept, ∀ r ∈ remaining, r.span.start ≤ k.span.start) →
      remaining.foldlM Progress.step? progress = some last →
      ∃ before' after' kept' skipped', Stage original last before' after' kept' skipped' ∧
        (kept' ++ skipped').Perm (remaining ++ (kept ++ skipped)) := by
  induction remaining with
  | nil =>
    intro progress before after kept skipped stage _ ran
    simp only [List.foldlM_nil, Option.pure_def, Option.some.injEq] at ran
    subst ran
    exact ⟨before, after, kept, skipped, stage, .refl _⟩
  | cons r rest ih =>
    intro progress before after kept skipped stage behind ran
    obtain ⟨first, falling⟩ := List.pairwise_cons.mp falling
    have orderedRest : ∀ s ∈ rest, s.span.start ≤ s.span.stop :=
      fun s member => ordered s (List.mem_cons_of_mem r member)
    have rOrdered := ordered r List.mem_cons_self
    have behindRest : ∀ k ∈ kept, ∀ s ∈ rest, s.span.start ≤ k.span.start :=
      fun k isKept s member => behind k isKept s (List.mem_cons_of_mem r member)
    simp only [List.foldlM_cons, Option.bind_eq_bind, Option.bind_eq_some_iff] at ran
    obtain ⟨next, step, ran⟩ := ran
    unfold Progress.step? at step
    cases clash : r.clashes progress.floor with
    | true =>
      rw [clash, if_pos rfl, Option.some.injEq] at step
      subst step
      have skip := stage.skip clash fun k isKept => behind k isKept r List.mem_cons_self
      obtain ⟨before', after', kept', skipped', stage', perm⟩ :=
        ih falling orderedRest skip behindRest ran
      have outward : (kept ++ r :: skipped).Perm (r :: (kept ++ skipped)) := List.perm_middle
      refine ⟨before', after', kept', skipped', stage', perm.trans ?_⟩
      exact (outward.append_left rest).trans List.perm_middle
    | false =>
      simp only [clash, Bool.false_eq_true, if_false, Option.bind_eq_bind, Option.bind_eq_some_iff,
        Option.pure_def, Option.some.injEq] at step
      obtain ⟨text, performed, rfl⟩ := step
      obtain ⟨head, tail, performing⟩ := stage.perform clash rOrdered performed
      have behind' : ∀ k ∈ r :: kept, ∀ s ∈ rest, s.span.start ≤ k.span.start := by
        intro k isKept s member
        rcases List.mem_cons.mp isKept with rfl | isKept
        · exact first s member
        · exact behindRest k isKept s member
      obtain ⟨before', after', kept', skipped', stage', perm⟩ :=
        ih falling orderedRest performing behind' ran
      exact ⟨before', after', kept', skipped', stage', perm.trans List.perm_middle⟩

/-- **A batch is a splice.** The replacements of a batch that does not fail fall into those it
keeps, which are compatible with each other and fit the text, and those it skips, each of which
conflicts with one that is kept. The text of the outcome is the splice of those kept into the text
at first. -/
theorem applyAll?_splices {text : String} {edits : List Edit} {outcome : Outcome}
    (done : applyAll? text edits = some outcome) :
    ∃ replacements kept skipped : List Replacement,
      edits.mapM (replacement? text.toList) = some replacements ∧
      kept.Sublist replacements ∧
      (kept ++ skipped).Perm replacements ∧
      kept.Pairwise Compatible ∧
      (∀ k ∈ kept, k.Fits text.toList) ∧
      outcome.text.toList = splice kept text.toList ∧
      outcome.applied = kept.length ∧
      outcome.skipped = skipped.length ∧
      outcome.applied + outcome.skipped = edits.length ∧
      ∀ r ∈ skipped, ∃ k ∈ kept, r.Conflicts k := by
  simp only [applyAll?, Option.bind_eq_bind, Option.bind_eq_some_iff, Option.pure_def,
    Option.some.injEq] at done
  obtain ⟨replacements, found, last, ran, rfl⟩ := done
  obtain ⟨lengths, ordered⟩ := replacements_of_mapM found
  have sorted := List.mergeSort_perm replacements performedBefore
  obtain ⟨before, after, performed, skipped, stage, perm⟩ :=
    Stage.run (pairwise_start_mergeSort replacements)
      (fun r member => ordered r (sorted.mem_iff.mp member)) (Stage.start text.toList)
      (by simp) ran
  rw [List.append_nil, List.append_nil] at perm
  have parts : (performed ++ skipped).Perm replacements := perm.trans sorted
  -- The batch keeps its replacements in the order of performance; the edits have them in another.
  obtain ⟨kept, same, sublist⟩ : performed.Subperm replacements :=
    (List.sublist_append_left performed skipped).subperm.trans parts.subperm
  have compatible : kept.Pairwise Compatible :=
    (same.pairwise_iff Compatible.symm).mpr stage.compatible
  have spliced : last.text = splice kept text.toList := by
    rw [splice_perm same (compatible.imp fun pair => pair.1), splice, stage.text_eq,
      stage.original_eq, spliceFrom_append before after fun k member => by
        have := stage.above k member
        omega, Nat.zero_add]
  have total : last.applied + last.skipped = edits.length := by
    rw [stage.applied_eq, stage.skipped_eq, ← lengths, ← parts.length_eq, List.length_append]
  refine ⟨replacements, kept, skipped, found, sublist, (same.append_right skipped).trans parts,
    compatible, fun k member => stage.fits k (same.mem_iff.mp member), ?_, ?_, stage.skipped_eq,
    total, fun r member => ?_⟩
  · rw [String.toList_ofList, spliced]
  · rw [stage.applied_eq, same.length_eq]
  · obtain ⟨k, isKept, conflict⟩ := stage.conflicts r member
    exact ⟨k, same.mem_iff.mpr isKept, conflict⟩

/-- A line removed twice, and a statement removed between an insertion at its start, which is
skipped, and one at its end, which is not. -/
theorem applyAll?_splices_touching :
    applyAll? "F();\nG(); H();\n"
        [.annotate ⟨5, 8⟩ "/* a */", .remove ⟨5, 9⟩, .remove ⟨0, 4⟩, .remove ⟨0, 4⟩,
          .annotate ⟨10, 13⟩ "/* b */"] = some ⟨"/* b */ H();\n", 3, 2⟩ ∧
      ∃ kept skipped : List Replacement, kept.length = 3 ∧ skipped.length = 2 ∧
        kept.Pairwise Compatible ∧
        "/* b */ H();\n".toList = splice kept "F();\nG(); H();\n".toList ∧
        ∀ r ∈ skipped, ∃ k ∈ kept, r.Conflicts k := by
  have done : applyAll? "F();\nG(); H();\n"
      [.annotate ⟨5, 8⟩ "/* a */", .remove ⟨5, 9⟩, .remove ⟨0, 4⟩, .remove ⟨0, 4⟩,
        .annotate ⟨10, 13⟩ "/* b */"] = some ⟨"/* b */ H();\n", 3, 2⟩ := by
    have parts : [annotate ⟨5, 8⟩ "/* a */", remove ⟨5, 9⟩, remove ⟨0, 4⟩, remove ⟨0, 4⟩,
        annotate ⟨10, 13⟩ "/* b */"].mapM (replacement? "F();\nG(); H();\n".toList) =
        some [⟨⟨5, 5⟩, "/* a */ "⟩, ⟨⟨5, 10⟩, ""⟩, ⟨⟨0, 5⟩, ""⟩, ⟨⟨0, 5⟩, ""⟩,
          ⟨⟨10, 10⟩, "/* b */ "⟩] := by decide +kernel
    have sorted : [⟨⟨5, 5⟩, "/* a */ "⟩, ⟨⟨5, 10⟩, ""⟩, ⟨⟨0, 5⟩, ""⟩, ⟨⟨0, 5⟩, ""⟩,
        ⟨⟨10, 10⟩, "/* b */ "⟩].mergeSort performedBefore =
        [⟨⟨10, 10⟩, "/* b */ "⟩, ⟨⟨5, 10⟩, ""⟩, ⟨⟨5, 5⟩, "/* a */ "⟩, ⟨⟨0, 5⟩, ""⟩,
          ⟨⟨0, 5⟩, ""⟩] := by
      simp [List.mergeSort, List.MergeSort.Internal.splitInTwo, performedBefore]
    rw [applyAll?, parts, Option.bind_eq_bind, Option.bind_some, sorted]
    decide +kernel
  obtain ⟨_, kept, skipped, -, -, -, compatible, -, spliced, applied, skips, -, conflicts⟩ :=
    applyAll?_splices done
  exact ⟨done, kept, skipped, applied.symm, skips.symm, compatible, spliced, conflicts⟩

end Edit

end ScriptLint
