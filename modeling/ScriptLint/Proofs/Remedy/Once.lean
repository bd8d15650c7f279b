/-
**One round of one comment is enough.**

A remedy that puts a comment before nodes looks at the text right before each of them. Nodes that start
at one offset are marked by one comment. What is put before a node ends with the comment and a space,
and it is the last thing put before that node, so the next round finds the node marked, wherever the
comments before it have moved it.

* `Edit.starts` — where edits start; `Edit.length_chosen` — as many insertions are performed.
* `Text.size_weaveFrom` — how much longer a text gets when a word is put at some of its places.
* `growth` — how far a node moves.
* `insertedBy_proposals` — what a round puts at an offset.
* `marks_once` — one round does not fail, puts the comment once at every start, and leaves nothing to
  propose for the nodes that it was about.
-/

import Mathlib.Data.List.Dedup
import ScriptLint.Proofs.Edit.Performed
import ScriptLint.Proofs.Remedy.Rounds

namespace ScriptLint

/-! ### A word at some places of a text -/

namespace Text

/-- What is put at the end of a text stands at the end of the woven text. -/
theorem exists_weaveFrom_eq (inserted : Nat → List Char) (offset : Nat) (s : List Char) :
    ∃ front, weaveFrom inserted offset s = front ++ inserted (offset + size s) := by
  induction s generalizing offset with
  | nil => exact ⟨[], rfl⟩
  | cons c rest ih =>
    obtain ⟨front, woven⟩ := ih (offset + c.utf8Size)
    refine ⟨inserted offset ++ c :: front, ?_⟩
    rw [weaveFrom, woven, size_cons, Nat.add_assoc]
    simp

theorem isPlace_cons {c : Char} {rest : List Char} {n : Nat} (place : IsPlace (c :: rest) n) :
    n = 0 ∨ c.utf8Size ≤ n ∧ IsPlace rest (n - c.utf8Size) := by
  obtain ⟨before, after, text_eq, rfl⟩ := place
  cases before with
  | nil => exact .inl rfl
  | cons d before =>
    obtain ⟨rfl, rest_eq⟩ := List.cons.inj text_eq
    rw [size_cons]
    exact .inr ⟨Nat.le_add_right _ _, before, after, rest_eq, by omega⟩

/-- The word, at those offsets that are among the places. -/
def wordAt (word : List Char) (places : List Nat) (offset : Nat) : List Char :=
  if offset ∈ places then word else []

/-- The offset is one of the text that begins at `offset`. -/
def within (offset : Nat) (s : List Char) (place : Nat) : Bool :=
  offset ≤ place && place ≤ offset + size s

theorem within_iff {offset : Nat} {s : List Char} {place : Nat} :
    within offset s place = true ↔ offset ≤ place ∧ place ≤ offset + size s := by
  rw [within, Bool.and_eq_true, decide_eq_true_iff, decide_eq_true_iff]

/-- Of the places of a text one may be its start; the others are places of what follows its first
character. -/
theorem countP_within_cons {places : List Nat} (distinct : places.Nodup) {offset : Nat} {c : Char}
    {rest : List Char}
    (placed : ∀ place ∈ places, within offset (c :: rest) place = true →
      IsPlace (c :: rest) (place - offset)) :
    places.countP (within offset (c :: rest)) =
      (if offset ∈ places then 1 else 0) + places.countP (within (offset + c.utf8Size) rest) := by
  have positive := c.utf8Size_pos
  have here : (places.filter (· == offset)).countP (within offset (c :: rest)) =
      places.count offset := by
    rw [List.countP_filter, List.count]
    refine List.countP_congr fun place _ => ?_
    simp only [within_iff, size_cons, Bool.and_eq_true, beq_iff_eq]
    omega
  have later : (places.filter fun place => !(place == offset)).countP (within offset (c :: rest)) =
      places.countP (within (offset + c.utf8Size) rest) := by
    rw [List.countP_filter]
    refine List.countP_congr fun place member => ?_
    simp only [Bool.and_eq_true, Bool.not_eq_true', beq_eq_false_iff_ne]
    constructor
    · rintro ⟨inside, elsewhere⟩
      have isPlace := isPlace_cons (placed place member inside)
      rw [within_iff, size_cons] at inside
      rw [within_iff]
      omega
    · intro inside
      rw [within_iff] at inside
      rw [within_iff, size_cons]
      omega
  rw [List.countP_eq_countP_filter_add places _ (· == offset), here, later,
    List.Nodup.count distinct]

/-- **A word at some places of a text** makes the text longer by as many words. -/
theorem size_weaveFrom {places : List Nat} (distinct : places.Nodup) (word : List Char)
    {offset : Nat} {s : List Char}
    (placed : ∀ place ∈ places, within offset s place = true → IsPlace s (place - offset)) :
    size (weaveFrom (wordAt word places) offset s) =
      size s + places.countP (within offset s) * size word := by
  induction s generalizing offset with
  | nil =>
    have here : places.countP (within offset []) = if offset ∈ places then 1 else 0 := by
      rw [← List.Nodup.count distinct, List.count]
      refine List.countP_congr fun place _ => ?_
      simp only [within_iff, size_nil, beq_iff_eq]
      omega
    rw [weaveFrom, here, wordAt]
    split <;> simp
  | cons c rest ih =>
    have positive := c.utf8Size_pos
    have placedRest : ∀ place ∈ places, within (offset + c.utf8Size) rest place = true →
        IsPlace rest (place - (offset + c.utf8Size)) := by
      intro place member inside
      rw [within_iff] at inside
      have isPlace := isPlace_cons
        (placed place member (within_iff.mpr (by rw [size_cons]; omega)))
      rw [← Nat.sub_sub]
      exact (isPlace.resolve_left (by omega)).2
    rw [weaveFrom, size_append, size_cons, size_cons, ih placedRest,
      countP_within_cons distinct placed, Nat.add_mul, wordAt]
    split <;> simp <;> omega

end Text

/-! ### As many insertions as starts -/

namespace Edit

open Replacement

/-- The offsets at which edits start, each once. -/
def starts (edits : List Edit) : List Nat :=
  (edits.map (·.target.start)).dedup

theorem nodup_starts (edits : List Edit) : (starts edits).Nodup :=
  List.nodup_dedup _

theorem mem_starts {edits : List Edit} {offset : Nat} :
    offset ∈ starts edits ↔ ∃ edit ∈ edits, edit.target.start = offset := by
  rw [starts, List.mem_dedup, List.mem_map]

/-- **Of insertions one is performed at each offset** at which some start. -/
theorem length_chosen {replacements : List Replacement}
    (insertions : ∀ r ∈ replacements, r.span.stop = r.span.start) :
    (chosen none (replacements.mergeSort performedBefore)).length =
      (replacements.map (·.span.start)).dedup.length := by
  have sorted := List.mergeSort_perm replacements performedBefore
  have insertionsSorted : ∀ r ∈ replacements.mergeSort performedBefore,
      r.span.stop = r.span.start := fun r member => insertions r (sorted.mem_iff.mp member)
  have falling := chosen_pairwise
    (fun r member => Nat.le_of_eq (insertionsSorted r member).symm) none
  have distinct :
      ((chosen none (replacements.mergeSort performedBefore)).map (·.span.start)).Nodup :=
    List.pairwise_map.mpr (falling.imp fun above => (Nat.ne_of_lt above.1).symm)
  have same (offset : Nat) :
      offset ∈ (chosen none (replacements.mergeSort performedBefore)).map (·.span.start) ↔
        offset ∈ (replacements.map (·.span.start)).dedup := by
    have noFloor : ∀ r ∈ replacements.mergeSort performedBefore, ∀ f, none = some f →
        r.span.start ≤ f := fun _ _ _ bounded => absurd bounded.symm (Option.some_ne_none _)
    have atOffset := chosen_filter_start insertionsSorted (pairwise_start_mergeSort replacements)
      noFloor offset
    rw [if_neg (by simp), filter_start_mergeSort insertions] at atOffset
    rw [List.mem_dedup, List.mem_map, List.mem_map]
    constructor
    · rintro ⟨r, member, start⟩
      exact ⟨r, sorted.mem_iff.mp (chosen_subset _ _ member), start⟩
    · rintro ⟨r, member, start⟩
      -- Some insertion starts here, so the first of them is performed.
      have some : replacements.filter (·.span.start == offset) ≠ [] :=
        List.ne_nil_of_mem (List.mem_filter.mpr ⟨member, by simpa using start⟩)
      obtain ⟨first, others, split⟩ := List.exists_cons_of_ne_nil some
      have performed : first ∈ (chosen none (replacements.mergeSort performedBefore)).filter
          (·.span.start == offset) := by
        rw [atOffset, split]
        simp
      obtain ⟨isChosen, here⟩ := List.mem_filter.mp performed
      exact ⟨first, isChosen, by simpa using here⟩
  have perm := (List.perm_ext_iff_of_nodup distinct (List.nodup_dedup _)).mpr same
  rw [← perm.length_eq, List.length_map]

/-- The replacements of annotations start where the annotations do. -/
theorem map_start_replacements {text : List Char} {edits : List Edit}
    (annotations : ∀ edit ∈ edits, edit.IsAnnotation) {replacements : List Replacement}
    (found : edits.mapM (replacement? text) = some replacements) :
    replacements.map (·.span.start) = edits.map (·.target.start) := by
  induction mapM_eq_some_iff.mp found with
  | nil => rfl
  | @cons edit r rest others first related ih =>
    have start : r.span.start = edit.target.start := by
      cases edit with
      | remove target => exact (annotations _ List.mem_cons_self).elim
      | annotate target comment => rw [← Option.some.inj first, Edit.target]
    rw [List.map_cons, List.map_cons, start, ih
      (fun edit member => annotations edit (List.mem_cons_of_mem _ member))
      (mapM_eq_some_iff.mpr related)]

/-- **A batch of annotations performs one at each start.** -/
theorem applied_annotations {text : String} {edits : List Edit} {outcome : Outcome}
    (annotations : ∀ edit ∈ edits, edit.IsAnnotation)
    (done : applyAll? text edits = some outcome) :
    outcome.applied = (starts edits).length := by
  obtain ⟨replacements, found, fits⟩ := fits_of_applyAll? done
  have insertions : ∀ r ∈ replacements, r.span.stop = r.span.start := by
    intro r member
    obtain ⟨edit, isEdit, isReplacement⟩ := exists_of_mem_mapM found member
    cases edit with
    | remove target => exact (annotations _ isEdit).elim
    | annotate target comment => rw [← Option.some.inj isReplacement]
  obtain ⟨outcome', done', -, applied, -⟩ := applyAll?_chosen found fits
  obtain rfl := Option.some.inj (done.symm.trans done')
  rw [applied, length_chosen insertions, map_start_replacements annotations found, starts]

end Edit

/-! ### One round -/

namespace Remedy

/-- The edits that a remedy proposes for the nodes with the given spans. -/
def proposals (remedy : Remedy) (text : String) (nodes : Nodes) (targets : List Span) : List Edit :=
  targets.filterMap (remedy.edit? text nodes)

/-- How far a comment and a space at each of the starts move what stands at an offset. -/
def growth (comment : String) (starts : List Nat) (offset : Nat) : Nat :=
  starts.countP (· ≤ offset) * Text.size (comment ++ " ").toList

section Round

variable {remedy : Remedy} {comment : String} {text : String} {nodes : Nodes} {targets : List Span}

theorem edit?_of_annotates (annotates : remedy.method = .annotate comment) (text : String)
    (nodes : Nodes) (target : Span) :
    remedy.edit? text nodes target = mark? text nodes comment target := by
  rw [edit?, annotates]

/-- A comment is proposed before a place of the text. -/
theorem of_mem_proposals (annotates : remedy.method = .annotate comment) {edit : Edit}
    (member : edit ∈ remedy.proposals text nodes targets) :
    ∃ target, edit = .annotate target comment ∧ Text.IsPlace text.toList target.start := by
  obtain ⟨target, -, proposed⟩ := List.mem_filterMap.mp member
  rw [edit?_of_annotates annotates, mark?_eq_some_iff] at proposed
  obtain ⟨-, ⟨before, after, parts, -⟩, rfl⟩ := proposed
  exact ⟨target, rfl, before, after, parts⟩

/-- **What a round puts at an offset**: the comment and a space, wherever an edit starts. -/
theorem insertedBy_proposals (annotates : remedy.method = .annotate comment) :
    Edit.insertedBy (remedy.proposals text nodes targets) =
      Text.wordAt (comment ++ " ").toList
        (Edit.starts (remedy.proposals text nodes targets)) := by
  funext offset
  unfold Text.wordAt
  split
  next isStart =>
    obtain ⟨edit, member, here⟩ := Edit.mem_starts.mp isStart
    refine Edit.insertedBy_eq member here fun other isOther _ => ?_
    obtain ⟨target, isAnnotation, -⟩ := of_mem_proposals annotates isOther
    exact ⟨target, isAnnotation⟩
  next noStart =>
    exact Edit.insertedBy_eq_nil fun edit member here =>
      noStart (Edit.mem_starts.mpr ⟨edit, member, here⟩)

/-- **One round does not fail**, and puts the comment once at every start. -/
theorem exists_round (annotates : remedy.method = .annotate comment) (text : String) (nodes : Nodes)
    (targets : List Span) :
    ∃ outcome, Edit.applyAll? text (remedy.proposals text nodes targets) = some outcome ∧
      outcome.applied = (Edit.starts (remedy.proposals text nodes targets)).length ∧
      outcome.text.toList = Text.weave (Text.wordAt (comment ++ " ").toList
        (Edit.starts (remedy.proposals text nodes targets))) text.toList := by
  set edits := remedy.proposals text nodes targets with edits_eq
  have annotations : ∀ edit ∈ edits, edit.IsAnnotation := by
    intro edit member
    obtain ⟨target, rfl, -⟩ := of_mem_proposals annotates member
    trivial
  have placed : ∀ edit ∈ edits, Text.IsPlace text.toList edit.target.start := by
    intro edit member
    obtain ⟨target, rfl, place⟩ := of_mem_proposals annotates member
    exact place
  obtain ⟨outcome, done, woven⟩ := Edit.applyAll?_annotations annotations placed
  refine ⟨outcome, done, Edit.applied_annotations annotations done, ?_⟩
  rw [woven, edits_eq, insertedBy_proposals annotates]

variable (nodes targets) in
/-- What a round inserts before a place makes the text before it longer by `growth`. -/
theorem size_weave_before (annotates : remedy.method = .annotate comment) {before after : List Char}
    (text_eq : text.toList = before ++ after) :
    Text.size (Text.weave (Text.wordAt (comment ++ " ").toList
        (Edit.starts (remedy.proposals text nodes targets))) before) =
      Text.size before +
        growth comment (Edit.starts (remedy.proposals text nodes targets)) (Text.size before) := by
  have placed : ∀ place ∈ Edit.starts (remedy.proposals text nodes targets),
      Text.within 0 before place = true → Text.IsPlace before (place - 0) := by
    intro place isStart inside
    obtain ⟨edit, member, rfl⟩ := Edit.mem_starts.mp isStart
    obtain ⟨target, rfl, front, back, text_eq', front_size⟩ := of_mem_proposals annotates member
    have inside := (Text.within_iff.mp inside).2
    obtain ⟨middle, before_eq, -⟩ := Text.exists_append_of_size_le (text_eq'.symm.trans text_eq)
      (by rw [front_size]; simpa [Edit.target] using inside)
    exact ⟨front, middle, before_eq, front_size⟩
  rw [Text.weave, Text.size_weaveFrom (Edit.nodup_starts _) _ placed, growth]
  congr 2
  refine List.countP_congr fun place _ => ?_
  simp [Text.within_iff]

/-- **One round of one comment is enough.** For all nodes of a text, whatever they are, the round does
not fail and puts the comment once wherever a node starts that it is proposed for. In the new text each
of these nodes, moved by what has been inserted at or before its start, stands behind the comment, and
so the remedy proposes nothing for it, whatever the nodes of the new text are. -/
theorem marks_once (remedy : Remedy) (comment : String)
    (annotates : remedy.method = .annotate comment) (text : String) (nodes : Nodes)
    (targets : List Span) :
    ∃ outcome, Edit.applyAll? text (remedy.proposals text nodes targets) = some outcome ∧
      outcome.applied = (Edit.starts (remedy.proposals text nodes targets)).length ∧
      outcome.text.toList = Text.weave (Text.wordAt (comment ++ " ").toList
        (Edit.starts (remedy.proposals text nodes targets))) text.toList ∧
      ∀ target ∈ targets, (remedy.edit? text nodes target).isSome = true →
        ∀ moved : Span, moved.start = target.start +
          growth comment (Edit.starts (remedy.proposals text nodes targets)) target.start →
        (∃ before after, Text.cut? moved.start outcome.text.toList = some (before, after) ∧
          isMarked comment before = true) ∧
        ∀ others : Nodes, remedy.edit? outcome.text others moved = none := by
  obtain ⟨outcome, done, applied, woven⟩ := exists_round annotates text nodes targets
  refine ⟨outcome, done, applied, woven, fun target isTarget proposed moved start => ?_⟩
  obtain ⟨edit, proposed⟩ := Option.isSome_iff_exists.mp proposed
  have isStart : target.start ∈ Edit.starts (remedy.proposals text nodes targets) := by
    refine Edit.mem_starts.mpr ⟨edit, List.mem_filterMap.mpr ⟨target, isTarget, proposed⟩, ?_⟩
    rw [edit?_of_annotates annotates, mark?_eq_some_iff] at proposed
    rw [proposed.2.2, Edit.target]
  rw [edit?_of_annotates annotates, mark?_eq_some_iff] at proposed
  obtain ⟨-, ⟨before, after, ⟨text_eq, size_eq⟩, -⟩, -⟩ := proposed
  -- The text before the moved node is what has been woven before it, and the comment is its end.
  have size_before := size_weave_before nodes targets annotates text_eq
  rw [size_eq, ← start] at size_before
  rw [text_eq] at woven
  obtain ⟨tail, woven_append, -⟩ := Text.weaveFrom_append _ 0 before after
  have cut := Text.cut?_eq_some_iff.mpr ⟨woven.trans woven_append, size_before⟩
  obtain ⟨front, woven_front⟩ := Text.exists_weaveFrom_eq (Text.wordAt (comment ++ " ").toList
    (Edit.starts (remedy.proposals text nodes targets))) 0 before
  rw [Nat.zero_add, size_eq, Text.wordAt, if_pos isStart] at woven_front
  have marked : isMarked comment (Text.weaveFrom (Text.wordAt (comment ++ " ").toList
      (Edit.starts (remedy.proposals text nodes targets))) 0 before) = true := by
    rw [woven_front, isMarked_append]
  refine ⟨⟨_, _, cut, marked⟩, fun others => ?_⟩
  rw [edit?_of_annotates annotates, Option.eq_none_iff_forall_ne_some]
  intro edit again
  obtain ⟨-, ⟨front', back, parts, unmarked⟩, -⟩ := mark?_eq_some_iff.mp again
  cases (Text.cut?_eq_some_iff.mpr parts).symm.trans cut
  rw [marked] at unmarked
  cases unmarked

end Round

/-- Two calls that start together, and one inside them, get a comment with blanks around it. -/
theorem marks_once_nested :
    let remedy : Remedy := ⟨"", "", .annotate " /* é */ "⟩
    let nodes : Nodes := ⟨[], [⟨⟨0, 10⟩, .invocation, "F(G()).H", none⟩,
      ⟨⟨0, 6⟩, .invocation, "F", none⟩, ⟨⟨2, 5⟩, .invocation, "G", none⟩]⟩
    let moved : Nodes := ⟨[], [⟨⟨11, 32⟩, .invocation, "F(G()).H", none⟩,
      ⟨⟨11, 28⟩, .invocation, "F", none⟩, ⟨⟨24, 27⟩, .invocation, "G", none⟩]⟩
    ∃ outcome, Edit.applyAll? "F(G()).H()"
        (remedy.proposals "F(G()).H()" nodes [⟨0, 10⟩, ⟨0, 6⟩, ⟨2, 5⟩]) = some outcome ∧
      (remedy.proposals "F(G()).H()" nodes [⟨0, 10⟩, ⟨0, 6⟩, ⟨2, 5⟩]).length = 3 ∧
      outcome.applied = 2 ∧
      remedy.edit? outcome.text moved ⟨11, 32⟩ = none ∧
      remedy.edit? outcome.text moved ⟨11, 28⟩ = none ∧
      remedy.edit? outcome.text moved ⟨24, 27⟩ = none := by
  intro remedy nodes moved
  obtain ⟨outcome, done, applied, -, settled⟩ := marks_once remedy " /* é */ " rfl "F(G()).H()" nodes
    [⟨0, 10⟩, ⟨0, 6⟩, ⟨2, 5⟩]
  refine ⟨outcome, done, by decide +kernel, applied.trans (by decide +kernel), ?_, ?_, ?_⟩
  · exact (settled ⟨0, 10⟩ (by decide) (by decide +kernel) ⟨11, 32⟩ (by decide +kernel)).2 moved
  · exact (settled ⟨0, 6⟩ (by decide) (by decide +kernel) ⟨11, 28⟩ (by decide +kernel)).2 moved
  · exact (settled ⟨2, 5⟩ (by decide) (by decide +kernel) ⟨24, 27⟩ (by decide +kernel)).2 moved

end Remedy

end ScriptLint
