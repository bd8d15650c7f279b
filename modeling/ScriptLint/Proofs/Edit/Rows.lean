/-
**What a batch of edits leaves alone.**

A removal may take more than its node: the rest of the line, if that is blank, or the blanks behind
the node. So what a batch leaves is told in two ways.

By lines: a line that no edit performed has its target on is found again in the outcome, in its order,
as the end of a line of its own. It is that whole line unless what is left of the text before it does
not end with a newline. For this a node must have been removed that begins inside a line and ends with
a newline, and with it all from there to the line.

By characters: apart from blanks the outcome is what the targets and the comments alone would make of
the text.

* `ArePerformed` — edits that are performed in one batch.
* `Untouched`, `ArePerformed.spares` — a line that no edit performed touches is spared.
* `Joined`, `ArePerformed.joined` — what takes away the newline before a line.
* `bare`, `ArePerformed.inked_splice` — the edits without what goes with a node, up to blanks.
* `applyAll?_rows` — what is left of the lines and of the characters, for every batch.
-/

import Mathlib.Data.List.Pairwise
import ScriptLint.Proofs.Edit.Performed
import ScriptLint.Proofs.Edit.Spared

namespace ScriptLint

namespace Edit

open Replacement

/-! ### Edits that have been performed -/

/-- Edits with their replacements, as they are performed in one batch: they fit the text, and each
one lies above the next. -/
structure ArePerformed (text : List Char) (applied : List (Edit × Replacement)) : Prop where
  found : ∀ pair ∈ applied, pair.1.replacement? text = some pair.2
  fits : ∀ pair ∈ applied, pair.2.Fits text
  apart : (applied.map Prod.snd).Pairwise Above

/-- No edit has an offset of the row between the ends of its target, these included. -/
def Untouched (text : List Char) (applied : List (Edit × Replacement)) (row : Text.Row) : Prop :=
  ∀ pair ∈ applied, ∀ place, (clamp (Text.size text) pair.1.target).start ≤ place →
    place ≤ (clamp (Text.size text) pair.1.target).stop → ¬ row.Holds place

/-- **A removal takes out a part of a row** only if its target touches the row. -/
theorem IsRemoval.exists_touching {text : List Char} {target span : Span}
    {earlier head node tail ending later : List Char}
    (removal : IsRemoval text target span earlier head node tail ending later) {row : Text.Row}
    (member : row ∈ Text.rows text) {place : Nat} (holds : row.Holds place)
    (started : span.start ≤ place) (notStopped : place < span.stop) :
    ∃ touching, (clamp (Text.size text) target).start ≤ touching ∧
      touching ≤ (clamp (Text.size text) target).stop ∧ row.Holds touching := by
  obtain ⟨rest, text_eq, whole, isLine⟩ := Text.exists_row member
  obtain ⟨nonempty, -, ended⟩ := Text.isLine_iff.mp isLine
  have lineSize := Text.size_pos nonempty
  have sizes := congrArg Text.size removal.text_eq
  have rowSizes := congrArg Text.size text_eq
  have endingSize : Text.size ending ≤ 1 := by
    rcases removal.ending_eq with rfl | rfl <;> decide
  obtain ⟨notBefore, inside⟩ := holds
  rw [removal.span_eq] at started notStopped
  rw [removal.target_eq]
  simp only [Text.size_append] at sizes rowSizes inside started notStopped ⊢
  by_cases before : Text.size row.before + Text.size row.line ≤ Text.size earlier + Text.size head
  · by_cases newline : row.line.getLast? = some '\n'
    · -- The row would end inside the head, which has no newline.
      have rowWhole : Text.WholeLines (row.before ++ row.line) :=
        whole.append (.inr newline)
      have strictly := inside.resolve_right fun atEnd => atEnd.2 newline
      have inHead : '\n' ∈ head := by
        refine Text.newline_mem_of_wholeLines (a := earlier)
          (c := node ++ tail ++ ending ++ later) (t := rest) ?_ rowWhole ?_ ?_
        · rw [← text_eq, removal.text_eq]
          simp only [List.append_assoc]
        · rw [Text.size_append]
          omega
        · rw [Text.size_append, Text.size_append]
          exact before
      exact absurd rfl (removal.head_blank _ inHead).2
    · -- The row is the last one, and the target begins at its end.
      obtain rfl := ended.resolve_right newline
      rw [Text.size_nil] at rowSizes
      refine ⟨Text.size row.before + Text.size row.line, by omega, by omega, by omega, .inr ⟨?_, newline⟩⟩
      rw [Text.size_append]
  · by_cases behind :
        Text.size row.before ≤ Text.size earlier + Text.size head + Text.size node
    · refine ⟨max (Text.size earlier + Text.size head) (Text.size row.before), by omega, by omega,
        by omega, .inl ?_⟩
      rw [Text.size_append]
      omega
    · -- The row would begin inside the tail, which has no newline.
      have inTail : '\n' ∈ tail := by
        refine Text.newline_mem_of_wholeLines (a := earlier ++ head ++ node)
          (c := ending ++ later) (t := row.line ++ rest) ?_ whole ?_ ?_
        · rw [← List.append_assoc row.before, ← text_eq, removal.text_eq]
          simp only [List.append_assoc]
        · simp only [Text.size_append]
          omega
        · simp only [Text.size_append]
          omega
      exact absurd rfl (removal.tail_blank _ inTail).2

section Performed

variable {text : List Char} {applied : List (Edit × Replacement)}

theorem ArePerformed.not_conflicts (performed : ArePerformed text applied) {r s : Replacement}
    (isFirst : r ∈ applied.map Prod.snd) (isSecond : s ∈ applied.map Prod.snd)
    (different : r ≠ s) : ¬ Conflicts r s := by
  have symmetric : Std.Symm fun a b : Replacement => ¬ Conflicts a b :=
    ⟨fun a b none conflicts => none conflicts.symm⟩
  have apart : (applied.map Prod.snd).Pairwise fun a b => ¬ Conflicts a b :=
    performed.apart.imp Above.not_conflicts
  exact apart.forall isFirst isSecond different

/-- A replacement stops before the next one starts. -/
theorem ArePerformed.stop_le_start (performed : ArePerformed text applied) {r s : Replacement}
    (isFirst : r ∈ applied.map Prod.snd) (isSecond : s ∈ applied.map Prod.snd)
    (earlier : r.span.start < s.span.start) : r.span.stop ≤ s.span.start := by
  have different : r ≠ s := by
    rintro rfl
    exact Nat.lt_irrefl _ earlier
  have none := performed.not_conflicts isFirst isSecond different
  unfold Conflicts at none
  omega

/-- Nothing is put in where something is taken out. -/
theorem ArePerformed.insertedAt_of_covered (performed : ArePerformed text applied) (place : Nat)
    (isCovered : covered (applied.map Prod.snd) place = true) :
    insertedAt (applied.map Prod.snd) place = [] := by
  obtain ⟨k, isIn, started, notStopped⟩ := covered_iff.mp isCovered
  refine insertedAt_eq_nil_of_newText fun r member here => ?_
  obtain ⟨⟨edit, r⟩, isPair, rfl⟩ := List.mem_map.mp member
  have found := performed.found _ isPair
  cases edit with
  | remove target => exact (exists_isRemoval found).1
  | annotate target comment =>
    obtain rfl := Option.some.inj found
    have different : (⟨⟨target.start, target.start⟩, comment ++ " "⟩ : Replacement) ≠ k := by
      rintro rfl
      simp only at here started notStopped
      omega
    have none := performed.not_conflicts member isIn different
    simp only [Conflicts] at none here
    omega

/-- **A row that is not touched** is spared. -/
theorem ArePerformed.spares (performed : ArePerformed text applied) {row : Text.Row}
    (member : row ∈ Text.rows text) (untouched : Untouched text applied row) :
    Spares (applied.map Prod.snd) row := by
  refine fun place holds => ⟨?_, ?_⟩
  · by_contra isCovered
    obtain ⟨r, isIn, started, notStopped⟩ := covered_iff.mp (Bool.not_eq_false _ ▸ isCovered)
    obtain ⟨⟨edit, r⟩, isPair, rfl⟩ := List.mem_map.mp isIn
    have found := performed.found _ isPair
    cases edit with
    | remove target =>
      obtain ⟨-, _, _, _, _, _, _, removal⟩ := exists_isRemoval found
      obtain ⟨touching, notBefore, notBehind, isHeld⟩ :=
        removal.exists_touching member holds started notStopped
      exact untouched _ isPair touching notBefore notBehind isHeld
    | annotate target comment =>
      obtain rfl := Option.some.inj found
      simp only at started notStopped
      omega
  · refine insertedAt_eq_nil_of_newText fun r isIn here => ?_
    obtain ⟨⟨edit, r⟩, isPair, rfl⟩ := List.mem_map.mp isIn
    have found := performed.found _ isPair
    cases edit with
    | remove target => exact (exists_isRemoval found).1
    | annotate target comment =>
      obtain rfl := Option.some.inj found
      obtain ⟨before, middle, after, text_eq, start, -⟩ := performed.fits _ isPair
      have start_eq : (clamp (Text.size text) target).start = place := by
        have sizes := congrArg Text.size text_eq
        simp only [Text.size_append] at sizes start here
        show min target.start (Text.size text) = place
        omega
      refine absurd holds (untouched _ isPair place (Nat.le_of_eq start_eq) ?_)
      rw [← start_eq]
      exact Nat.le_max_left _ _

/-- Where no span runs on beyond the end of whole lines, and what is left of them does not end with a
newline, a removal takes out their end. -/
theorem ArePerformed.exists_removal_before (performed : ArePerformed text applied)
    {before after : List Char} (text_eq : text = before ++ after) (whole : Text.WholeLines before)
    (uncrossed : ∀ r ∈ applied.map Prod.snd, r.span.start < Text.size before →
      r.span.stop ≤ Text.size before)
    (runsOn : ¬ Text.WholeLines (leftFrom (applied.map Prod.snd) 0 before)) :
    ∃ target r earlier head node tail ending, (.remove target, r) ∈ applied ∧
      IsRemoval text target r.span earlier head node tail ending after ∧
      before = earlier ++ head ++ node ++ tail ++ ending ∧ earlier ≠ before := by
  have nonempty : before ≠ [] := by
    rintro rfl
    exact runsOn (.inl rfl)
  obtain ⟨front, rfl⟩ := List.getLast?_eq_some_iff.mp (whole.resolve_left nonempty)
  have size_eq : Text.size (front ++ ['\n']) = Text.size front + 1 := Text.size_append _ _
  have isCovered : covered (applied.map Prod.snd) (Text.size front) = true := by
    by_contra isLeft
    refine runsOn (.inr ?_)
    rw [leftFrom_append, Nat.zero_add]
    simp [leftFrom, isLeft]
  obtain ⟨r, isIn, started, notStopped⟩ := covered_iff.mp isCovered
  have stop_eq : r.span.stop = Text.size (front ++ ['\n']) := by
    have := uncrossed r isIn (by omega)
    omega
  obtain ⟨⟨edit, r⟩, isPair, rfl⟩ := List.mem_map.mp isIn
  have found := performed.found _ isPair
  cases edit with
  | annotate target comment =>
    obtain rfl := Option.some.inj found
    simp only at started notStopped
    omega
  | remove target =>
    obtain ⟨-, earlier, head, node, tail, ending, later, removal⟩ := exists_isRemoval found
    rw [removal.span_eq] at started stop_eq
    obtain ⟨before_eq, rfl⟩ :=
      Text.append_inj_of_size (removal.text_eq.symm.trans text_eq) stop_eq
    refine ⟨target, r, earlier, head, node, tail, ending, isPair, removal, before_eq.symm, ?_⟩
    rintro rfl
    simp only at started
    omega

/-- A node has been removed that begins inside a line and ends with a newline, and with it all from
there to the end of `before`. -/
def Joined (text : List Char) (applied : List (Edit × Replacement)) (before : List Char) : Prop :=
  ∃ target r head node between, (.remove target, r) ∈ applied ∧
    before = head ++ node ++ between ∧
    clamp (Text.size text) target = ⟨Text.size head, Text.size (head ++ node)⟩ ∧
    ¬ Text.WholeLines head ∧ Text.WholeLines (head ++ node) ∧
    leftFrom (applied.map Prod.snd) (Text.size (head ++ node)) between = []

/-- **What runs on into a row** has been left by a removal that ends with a newline. -/
theorem ArePerformed.joined (performed : ArePerformed text applied)
    {before after : List Char} (text_eq : text = before ++ after) (whole : Text.WholeLines before)
    (uncrossed : ∀ r ∈ applied.map Prod.snd, r.span.start < Text.size before →
      r.span.stop ≤ Text.size before)
    (runsOn : ¬ Text.WholeLines (leftFrom (applied.map Prod.snd) 0 before)) :
    Joined text applied before := by
  -- By induction on the text before the row: removals of whole lines are passed backwards, up to one
  -- that begins inside a line.
  induction length : before.length using Nat.strongRecOn generalizing before after with
  | ind n ih =>
    obtain ⟨target, r, earlier, head, node, tail, ending, isPair, removal, before_eq, shorter⟩ :=
      performed.exists_removal_before text_eq whole uncrossed runsOn
    have isIn : r ∈ applied.map Prod.snd := List.mem_map_of_mem (f := Prod.snd) isPair
    have taken : leftFrom (applied.map Prod.snd) (Text.size earlier)
        (head ++ node ++ tail ++ ending) = [] := by
      refine leftFrom_eq_nil isIn _ (by rw [removal.span_eq]) (Nat.le_of_eq ?_)
      rw [removal.span_eq]
      simp only [Text.size_append]
      omega
    have rest_eq : before = earlier ++ (head ++ node ++ tail ++ ending) := by
      rw [before_eq]
      simp only [List.append_assoc]
    by_cases begins : Text.WholeLines earlier
    · have stillUncrossed : ∀ s ∈ applied.map Prod.snd, s.span.start < Text.size earlier →
          s.span.stop ≤ Text.size earlier := by
        intro s isOther before
        have stops := performed.stop_le_start isOther isIn
        rw [removal.span_eq] at stops
        exact stops before
      have stillRunsOn : ¬ Text.WholeLines (leftFrom (applied.map Prod.snd) 0 earlier) := by
        rw [rest_eq, leftFrom_append, Nat.zero_add, taken, List.append_nil] at runsOn
        exact runsOn
      have smaller : earlier.length < n := by
        rw [← length, rest_eq, List.length_append]
        have : head ++ node ++ tail ++ ending ≠ [] := by
          intro none
          rw [none, List.append_nil] at rest_eq
          exact shorter rest_eq.symm
        have := List.length_pos_of_ne_nil this
        omega
      have still_eq : text = earlier ++ (head ++ node ++ tail ++ ending ++ after) := by
        rw [text_eq, rest_eq, List.append_assoc]
      obtain ⟨other, s, start, removed, between, isOther, earlier_eq, target_eq, inside, ended,
        gone⟩ := ih earlier.length smaller still_eq begins stillUncrossed stillRunsOn rfl
      refine ⟨other, s, start, removed, between ++ (head ++ node ++ tail ++ ending), isOther, ?_,
        target_eq, inside, ended, ?_⟩
      · rw [rest_eq, earlier_eq, List.append_assoc, List.append_assoc]
      · rw [leftFrom_append, gone, ← Text.size_append, ← earlier_eq, taken]
        rfl
    · obtain ⟨rfl, rfl⟩ := removal.shape.resolve_left begins
      -- The lines end with a newline, so no blanks of the line behind the node have gone with it.
      have noTail : tail = [] := by
        by_contra some
        rw [before_eq, List.append_nil, List.append_nil] at whole
        have newline := whole.right.resolve_left some
        exact absurd rfl (removal.tail_blank _ (List.mem_of_getLast? newline)).2
      subst noTail
      simp only [List.append_nil] at before_eq
      refine ⟨target, r, earlier, node, [], isPair, by rw [before_eq, List.append_nil], ?_, begins,
        before_eq ▸ whole, rfl⟩
      rw [removal.target_eq, List.append_nil]

/-- No span runs on into a row that is spared. -/
theorem uncrossed_of_spares {row : Text.Row} (nonempty : row.line ≠ [])
    (spares : Spares (applied.map Prod.snd) row) :
    ∀ r ∈ applied.map Prod.snd, r.span.start < Text.size row.before →
      r.span.stop ≤ Text.size row.before := by
  intro r isIn started
  by_contra notStopped
  have lineSize := Text.size_pos nonempty
  have holds : row.Holds (Text.size row.before) :=
    ⟨Nat.le_refl _, .inl (by rw [Text.size_append]; omega)⟩
  have isCovered : covered (applied.map Prod.snd) (Text.size row.before) = true :=
    covered_iff.mpr ⟨r, isIn, by omega, by omega⟩
  rw [(spares _ holds).1] at isCovered
  cases isCovered

/-! ### Characters -/

/-- What an edit says by itself: the node goes and nothing with it, or the comment is put in. -/
def bare (text : List Char) : Edit → Replacement
  | remove target => ⟨clamp (Text.size text) target, ""⟩
  | annotate target comment => ⟨⟨target.start, target.start⟩, comment⟩

/-- **What goes with a node** is blank. -/
theorem IsRemoval.contains_iff {target span : Span}
    {earlier head node tail ending later : List Char}
    (removal : IsRemoval text target span earlier head node tail ending later)
    {before after : List Char} {c : Char} (text_eq : text = before ++ c :: after)
    (ink : Text.isBlank c = false) :
    span.contains (Text.size before) =
      (clamp (Text.size text) target).contains (Text.size before) := by
  have inHead : c ∉ head := fun member => by
    rw [(removal.head_blank c member).1] at ink
    cases ink
  have inTail : c ∉ tail ++ ending := fun member => by
    rcases List.mem_append.mp member with member | member
    · rw [(removal.tail_blank c member).1] at ink
      cases ink
    · rcases removal.ending_eq with rfl | rfl
      · cases member
      · obtain rfl := List.mem_singleton.mp member
        cases ink
  have notHead : ¬ (Text.size earlier ≤ Text.size before ∧
      Text.size before < Text.size (earlier ++ head)) := fun ⟨notBefore, inside⟩ => by
    refine inHead (Text.mem_of_size_lt (a := earlier) (d := node ++ tail ++ ending ++ later)
      (s := before) (t := after) ?_ notBefore inside)
    rw [← text_eq, removal.text_eq]
    simp only [List.append_assoc]
  have notTail : ¬ (Text.size (earlier ++ head ++ node) ≤ Text.size before ∧
      Text.size before < Text.size (earlier ++ head ++ node ++ (tail ++ ending))) :=
      fun ⟨notBefore, inside⟩ => by
    refine inTail (Text.mem_of_size_lt (a := earlier ++ head ++ node) (d := later) (s := before)
      (t := after) ?_ notBefore inside)
    rw [← text_eq, removal.text_eq]
    simp only [List.append_assoc]
  rw [removal.span_eq, removal.target_eq, Bool.eq_iff_iff]
  simp only [Span.contains, Bool.and_eq_true, decide_eq_true_eq, Text.size_append]
    at notHead notTail ⊢
  omega

/-- **What is put in** at an offset are the comments, up to blanks. -/
theorem inked_insertedAt_bare (found : ∀ pair ∈ applied, pair.1.replacement? text = some pair.2)
    (place : Nat) :
    inked (insertedAt (applied.map Prod.snd) place) =
      inked (insertedAt (applied.map fun pair => bare text pair.1) place) := by
  induction applied with
  | nil => rfl
  | cons pair rest ih =>
    obtain ⟨edit, r⟩ := pair
    have isFirst := found _ List.mem_cons_self
    have onward := ih fun pair member => found pair (List.mem_cons_of_mem _ member)
    rw [List.map_cons, List.map_cons, insertedAt_cons, insertedAt_cons]
    unfold inked at onward ⊢
    rw [List.filter_append, List.filter_append, onward]
    congr 1
    cases edit with
    | remove target =>
      rw [(exists_isRemoval isFirst).1]
      simp [bare]
    | annotate target comment =>
      obtain rfl := Option.some.inj isFirst
      have space : Text.isBlank ' ' = true := rfl
      by_cases here : target.start = place <;> simp [bare, here, space]

/-- **Up to blanks** the edits performed do what they say. -/
theorem ArePerformed.inked_splice (performed : ArePerformed text applied) :
    inked (splice (applied.map Prod.snd) text) =
      inked (splice (applied.map fun pair => bare text pair.1) text) := by
  refine inked_spliceFrom (inked_insertedAt_bare performed.found)
    (fun before c after text_eq ink => ?_) [] text rfl
  rw [covered, covered, List.any_map, List.any_map, Bool.eq_iff_iff, List.any_eq_true,
    List.any_eq_true]
  refine exists_congr fun pair => and_congr_right fun member => ?_
  have found := performed.found _ member
  obtain ⟨edit, r⟩ := pair
  cases edit with
  | remove target =>
    obtain ⟨-, _, _, _, _, _, _, removal⟩ := exists_isRemoval found
    show r.span.contains _ = true ↔ (clamp _ target).contains _ = true
    rw [removal.contains_iff text_eq ink]
  | annotate target comment =>
    obtain rfl := Option.some.inj found
    rfl

end Performed

/-! ### Batches -/

theorem arePerformed {text : String} {edits : List Edit} {outcome : Outcome}
    (done : applyAll? text edits = some outcome) :
    ArePerformed text.toList (performed text.toList edits) := by
  obtain ⟨-, -, apart, fits⟩ := applyAll?_performed done
  exact ⟨fun pair member => (of_mem_performed member).2, fits, apart⟩

/-- A row that no edit of a batch touches is untouched, whichever edits are performed. -/
theorem untouched_performed {text : List Char} {edits : List Edit} {row : Text.Row}
    (none : ∀ edit ∈ edits, ∀ place < (clamp (Text.size text) edit.target).stop + 1,
      (clamp (Text.size text) edit.target).start ≤ place → ¬ row.Holds place) :
    Untouched text (performed text edits) row :=
  fun pair member place notBefore notBehind =>
    none pair.1 (of_mem_performed member).1 place (Nat.lt_succ_of_le notBehind) notBefore

/-- **What a batch leaves alone.** The lines that no edit performed touches are found in the outcome,
in their order, each as the end of a line of its own, and as all of this line unless what is left
before runs on into it. This takes a removal that ends with a newline, and all that follows up to the
line must be gone as well. And up to blanks the outcome is the text without the nodes removed and with
the comments put in. -/
theorem applyAll?_rows {text : String} {edits : List Edit} {outcome : Outcome}
    (done : applyAll? text edits = some outcome) :
    outcome.applied = (performed text.toList edits).length ∧
      outcome.text.toList = splice ((performed text.toList edits).map Prod.snd) text.toList ∧
      (∀ picked : List Text.Row, picked.Sublist (Text.rows text.toList) →
        (∀ row ∈ picked, Untouched text.toList (performed text.toList edits) row) →
        List.SublistForall₂ (FoundIn ((performed text.toList edits).map Prod.snd)) picked
          (Text.lines outcome.text.toList)) ∧
      (∀ row ∈ Text.rows text.toList, Untouched text.toList (performed text.toList edits) row →
        ¬ Text.WholeLines
          (leftFrom ((performed text.toList edits).map Prod.snd) 0 row.before) →
        Joined text.toList (performed text.toList edits) row.before) ∧
      inked outcome.text.toList =
        inked (splice ((performed text.toList edits).map fun pair => bare text.toList pair.1)
          text.toList) := by
  obtain ⟨spliced, applied, -, -⟩ := applyAll?_performed done
  have performed := arePerformed done
  refine ⟨applied, spliced, fun picked among untouched => ?_, fun row member untouched runsOn => ?_,
    ?_⟩
  · rw [spliced]
    refine rows_spliceFrom performed.insertedAt_of_covered [] text.toList [] among
      (fun row member => ?_) Iff.rfl
    exact performed.spares (among.subset member) (untouched row member)
  · obtain ⟨later, text_eq, whole, isLine⟩ := Text.exists_row member
    rw [List.append_assoc] at text_eq
    exact performed.joined text_eq whole (uncrossed_of_spares (Text.isLine_iff.mp isLine).1
      (performed.spares member untouched)) runsOn
  · rw [spliced]
    exact performed.inked_splice

/-- A line removed, with its tab and its line end, and a line with an annotation and a removal: the
first line and the last one stay as they are. -/
theorem applyAll?_rows_around :
    applyAll? "F();\n\tG();\r\nH(); I();\nJ();\n"
        [.remove ⟨6, 10⟩, .annotate ⟨12, 15⟩ "/* a */", .remove ⟨17, 21⟩] =
        some ⟨"F();\n/* a */ H(); \nJ();\n", 3, 0⟩ ∧
      List.SublistForall₂ (FoundIn ((performed "F();\n\tG();\r\nH(); I();\nJ();\n".toList
          [.remove ⟨6, 10⟩, .annotate ⟨12, 15⟩ "/* a */", .remove ⟨17, 21⟩]).map Prod.snd))
        [⟨[], "F();\n".toList⟩, ⟨"F();\n\tG();\r\nH(); I();\n".toList, "J();\n".toList⟩]
        (Text.lines "F();\n/* a */ H(); \nJ();\n".toList) := by
  have done : applyAll? "F();\n\tG();\r\nH(); I();\nJ();\n"
      [.remove ⟨6, 10⟩, .annotate ⟨12, 15⟩ "/* a */", .remove ⟨17, 21⟩] =
      some ⟨"F();\n/* a */ H(); \nJ();\n", 3, 0⟩ := by
    have parts : [remove ⟨6, 10⟩, annotate ⟨12, 15⟩ "/* a */", remove ⟨17, 21⟩].mapM
        (replacement? "F();\n\tG();\r\nH(); I();\nJ();\n".toList) =
        some [⟨⟨5, 12⟩, ""⟩, ⟨⟨12, 12⟩, "/* a */ "⟩, ⟨⟨17, 21⟩, ""⟩] := by decide +kernel
    have sorted : [⟨⟨5, 12⟩, ""⟩, ⟨⟨12, 12⟩, "/* a */ "⟩, ⟨⟨17, 21⟩, ""⟩].mergeSort
        performedBefore = [⟨⟨17, 21⟩, ""⟩, ⟨⟨12, 12⟩, "/* a */ "⟩, ⟨⟨5, 12⟩, ""⟩] := by
      simp [List.mergeSort, List.MergeSort.Internal.splitInTwo, performedBefore]
    rw [applyAll?, parts, Option.bind_eq_bind, Option.bind_some, sorted]
    decide +kernel
  obtain ⟨-, -, rows, -, -⟩ := applyAll?_rows done
  refine ⟨done, rows _ (by decide +kernel) fun row member => untouched_performed ?_⟩
  rcases List.mem_cons.mp member with rfl | member
  · decide +kernel
  · obtain rfl := List.mem_singleton.mp member
    decide +kernel

/-- **A line may be joined to another.** The first target ends with a newline, the second one stands
alone on the next line and takes this line with it; the line behind them is joined to what is left of
the first. -/
theorem applyAll?_rows_joined :
    applyAll? "F(); G();\nH();\nI();\n" [.remove ⟨5, 10⟩, .remove ⟨10, 14⟩] =
        some ⟨"F(); I();\n", 2, 0⟩ ∧
      (⟨"F(); G();\nH();\n".toList, "I();\n".toList⟩ : Text.Row) ∈
        Text.rows "F(); G();\nH();\nI();\n".toList ∧
      Untouched "F(); G();\nH();\nI();\n".toList
        (performed "F(); G();\nH();\nI();\n".toList [.remove ⟨5, 10⟩, .remove ⟨10, 14⟩])
        ⟨"F(); G();\nH();\n".toList, "I();\n".toList⟩ ∧
      "I();\n".toList ∉ Text.lines "F(); I();\n".toList := by
  have done : applyAll? "F(); G();\nH();\nI();\n" [.remove ⟨5, 10⟩, .remove ⟨10, 14⟩] =
        some ⟨"F(); I();\n", 2, 0⟩ := by
    have parts : [remove ⟨5, 10⟩, remove ⟨10, 14⟩].mapM
        (replacement? "F(); G();\nH();\nI();\n".toList) =
        some [⟨⟨5, 10⟩, ""⟩, ⟨⟨10, 15⟩, ""⟩] := by decide +kernel
    have sorted : [⟨⟨5, 10⟩, ""⟩, ⟨⟨10, 15⟩, ""⟩].mergeSort performedBefore =
        [⟨⟨10, 15⟩, ""⟩, ⟨⟨5, 10⟩, ""⟩] := by
      simp [List.mergeSort, List.MergeSort.Internal.splitInTwo, performedBefore]
    rw [applyAll?, parts, Option.bind_eq_bind, Option.bind_some, sorted]
    decide +kernel
  exact ⟨done, by decide +kernel, untouched_performed (by decide +kernel), by decide +kernel⟩

end Edit

end ScriptLint
