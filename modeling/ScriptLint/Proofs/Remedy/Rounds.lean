/-
**Comments of two rules, round after round.**

Two rules put a comment before the calls that they report, and each looks only at what stands right
before its call. A round collects the comments of both, performs them as one batch and moves every
call by what is inserted at or before it; the next round finds the same calls again.

Calls that start at one offset get one comment in a round. When both rules report a call there, the
comment of the one hides that of the other, and so every round adds one more. Otherwise the rounds
come to rest: a round settles the first offset that is not settled yet, and what is inserted behind an
offset never unsettles it.

* `mark?_eq_some_iff` — when a comment is proposed, and at which place.
* `Draft` — a text with the calls reported in it; `Draft.round?`, `Draft.rounds?` — the rounds.
* `Draft.mem_edits_iff` — which comments are proposed.
* `Draft.IsContested` — both rules report a call at one offset.
* `Draft.Moves` — what one round does.
* `Draft.Moves.exists_earlier`, `Draft.Moves.ranked` — a round leaves proposals only behind others, so
  that it settles one more call.
* `Draft.rounds?_settle` — the rounds come to rest exactly when no offset is contested.
-/

import Mathlib.Data.List.Count
import ScriptLint.Ban
import ScriptLint.Proofs.Edit.Annotations

namespace ScriptLint.Remedy

/-! ### Marks -/

theorem isMarked_iff {comment : String} {before : List Char} :
    isMarked comment before = true ↔ Text.trim comment.toList <:+ Text.trimEnd before := by
  rw [isMarked, List.isSuffixOf_iff_suffix]

/-- A text is marked right behind the comment and a space. -/
theorem isMarked_append (comment : String) (front : List Char) :
    isMarked comment (front ++ (comment ++ " ").toList) = true := by
  rw [isMarked_iff]
  set core := Text.trim comment.toList with core_eq
  obtain ⟨trail, tail_eq, trailBlank⟩ :=
    Text.exists_dropEndWhile Text.isBlank (Text.trimStart comment.toList)
  obtain ⟨lead, comment_eq⟩ : ∃ lead, comment.toList = lead ++ (core ++ trail) := by
    refine ⟨comment.toList.takeWhile Text.isBlank, ?_⟩
    rw [core_eq, Text.trim, Text.trimEnd, ← tail_eq, Text.trimStart,
      List.takeWhile_append_dropWhile]
  have whole : front ++ (comment ++ " ").toList = (front ++ lead ++ core) ++ (trail ++ [' ']) := by
    rw [String.toList_append, comment_eq]
    simp
  have blanks : ∀ c ∈ trail ++ [' '], Text.isBlank c = true := by
    intro c member
    rcases List.mem_append.mp member with member | member
    · exact trailBlank c member
    · rw [List.mem_singleton.mp member]
      rfl
  by_cases none : core = []
  · rw [none]
    exact List.nil_suffix
  · have stays : ∀ c, (front ++ lead ++ core).getLast? = some c → Text.isBlank c = false := by
      intro c last
      rw [List.getLast?_append_of_ne_nil _ none] at last
      exact Text.getLast?_dropEndWhile last
    rw [whole, Text.trimEnd, Text.dropEndWhile_append blanks stays]
    exact List.suffix_append _ _

/-- **A comment is proposed** for a node at a place of the text that is not marked by it. -/
theorem mark?_eq_some_iff {text : String} {nodes : Nodes} {comment : String} {target : Span}
    {edit : Edit} :
    mark? text nodes comment target = some edit ↔
      nodes.hasNodeAt target = true ∧
        (∃ before after, (text.toList = before ++ after ∧ Text.size before = target.start) ∧
          isMarked comment before = false) ∧
        edit = .annotate target comment := by
  unfold mark?
  constructor
  · intro proposed
    split at proposed
    next hasNode =>
      split at proposed
      next before after found =>
        split at proposed
        · cases proposed
        next unmarked =>
          cases proposed
          exact ⟨hasNode, ⟨before, after, Text.cut?_eq_some_iff.mp found, by simpa using unmarked⟩,
            rfl⟩
      · cases proposed
    · cases proposed
  · rintro ⟨hasNode, ⟨before, after, parts, unmarked⟩, rfl⟩
    rw [if_pos hasNode, Text.cut?_eq_some_iff.mpr parts]
    simp [unmarked]

/-! ### Drafts and rounds -/

/-- The rules whose fix is a comment, in the order in which they run. -/
def marking : List Ban.Kind :=
  [.spreadsheetCall, .frameQuery]

/-- No text is marked by both of them. -/
theorem not_marked_twice {first second : String} {before : List Char}
    (isFirst : Ban.Kind.spreadsheetCall.fixMethod = .annotate first)
    (isSecond : Ban.Kind.frameQuery.fixMethod = .annotate second)
    (marked : isMarked first before = true) : isMarked second before = false := by
  cases isFirst
  cases isSecond
  by_contra both
  rw [Bool.not_eq_false, isMarked_iff] at both
  rcases List.suffix_or_suffix_of_suffix (isMarked_iff.mp marked) both with one | other
  · exact absurd one (by decide)
  · exact absurd other (by decide)

/-- A call with the rules that report it. -/
structure Flagged where
  call : Call
  kinds : List Ban.Kind
deriving Repr, DecidableEq, Inhabited

namespace Flagged

/-- Where the call starts. -/
def start (flagged : Flagged) : Nat :=
  flagged.call.span.start

/-- The call moved by a number of bytes. -/
def moveBy (distance : Nat) (flagged : Flagged) : Flagged :=
  { flagged with
    call := { flagged.call with
      span := ⟨flagged.call.span.start + distance, flagged.call.span.stop + distance⟩
      statement := flagged.call.statement.map fun span =>
        ⟨span.start + distance, span.stop + distance⟩ } }

end Flagged

/-- A text with the calls that are reported in it. -/
structure Draft where
  text : String
  calls : List Flagged
deriving Repr, DecidableEq, Inhabited

namespace Draft

/-- The nodes of the text. -/
def nodes (draft : Draft) : Nodes :=
  ⟨[], draft.calls.map (·.call)⟩

/-- The comments that the rules propose, rule by rule. -/
def edits (draft : Draft) : List Edit :=
  marking.flatMap fun kind =>
    (draft.calls.filter (·.kinds.contains kind)).filterMap fun flagged =>
      kind.remedy.edit? draft.text draft.nodes flagged.call.span

/-- How many bytes a round inserts at or before an offset. -/
def growth (draft : Draft) (offset : Nat) : Nat :=
  match Text.cut? offset draft.text.toList with
  | some (before, _) => Text.size (Text.weave (Edit.insertedBy draft.edits) before) - offset
  | none => 0

/-- A call moved by what a round inserts at or before its start. -/
def moved (draft : Draft) (flagged : Flagged) : Flagged :=
  flagged.moveBy (draft.growth flagged.start)

/-- One round: all comments as one batch, and every call moved. -/
def round? (draft : Draft) : Option Draft := do
  let outcome ← Edit.applyAll? draft.text draft.edits
  pure ⟨outcome.text, draft.calls.map draft.moved⟩

/-- So many rounds. -/
def rounds? : Nat → Draft → Option Draft
  | 0, draft => some draft
  | n + 1, draft => draft.round?.bind (rounds? n)

/-- Every call starts where the text can be cut. -/
def Placed (draft : Draft) : Prop :=
  ∀ flagged ∈ draft.calls, Text.IsPlace draft.text.toList flagged.start

/-- Both rules report a call at one offset. -/
def IsContested (draft : Draft) : Prop :=
  ∃ first ∈ draft.calls, ∃ second ∈ draft.calls, Ban.Kind.spreadsheetCall ∈ first.kinds ∧
    Ban.Kind.frameQuery ∈ second.kinds ∧ first.start = second.start

instance (draft : Draft) : Decidable draft.Placed :=
  inferInstanceAs (Decidable (∀ _ ∈ _, _))

instance (draft : Draft) : Decidable draft.IsContested :=
  inferInstanceAs (Decidable (∃ _ ∈ _, ∃ _ ∈ _, _))

variable {draft next : Draft}

/-- The text stands before the call. -/
def IsBefore (draft : Draft) (flagged : Flagged) (before : List Char) : Prop :=
  ∃ after, draft.text.toList = before ++ after ∧ Text.size before = flagged.start

theorem IsBefore.unique {flagged : Flagged} {before other : List Char}
    (first : draft.IsBefore flagged before) (second : draft.IsBefore flagged other) :
    before = other := by
  obtain ⟨after, text_eq, size_eq⟩ := first
  obtain ⟨after', text_eq', size_eq'⟩ := second
  exact (Text.append_inj_of_size (text_eq.symm.trans text_eq') (size_eq.trans size_eq'.symm)).1

/-! ### What is proposed -/

/-- The rule proposes its comment for the call. -/
def Proposes (draft : Draft) (kind : Ban.Kind) (flagged : Flagged) (comment : String) : Prop :=
  kind ∈ marking ∧ flagged ∈ draft.calls ∧ kind ∈ flagged.kinds ∧
    kind.fixMethod = .annotate comment ∧
    ∃ before, draft.IsBefore flagged before ∧ isMarked comment before = false

theorem edit?_eq_some_iff {kind : Ban.Kind} (isMarking : kind ∈ marking) {flagged : Flagged}
    (member : flagged ∈ draft.calls) {edit : Edit} :
    kind.remedy.edit? draft.text draft.nodes flagged.call.span = some edit ↔
      ∃ comment, kind.fixMethod = .annotate comment ∧
        (∃ before, draft.IsBefore flagged before ∧ isMarked comment before = false) ∧
        edit = .annotate flagged.call.span comment := by
  obtain ⟨comment, method⟩ : ∃ comment, kind.fixMethod = .annotate comment := by
    rcases List.mem_pair.mp isMarking with rfl | rfl <;> exact ⟨_, rfl⟩
  have hasNode : draft.nodes.hasNodeAt flagged.call.span = true := by
    simp only [Nodes.hasNodeAt, nodes, Bool.or_eq_true, List.any_eq_true, List.mem_map, beq_iff_eq]
    exact .inr ⟨flagged.call, ⟨flagged, member, rfl⟩, rfl⟩
  rw [edit?, show kind.remedy.method = .annotate comment from method]
  simp only [mark?_eq_some_iff, hasNode, true_and]
  constructor
  · rintro ⟨⟨before, after, isBefore, unmarked⟩, rfl⟩
    exact ⟨comment, method, ⟨before, ⟨after, isBefore⟩, unmarked⟩, rfl⟩
  · rintro ⟨comment', method', ⟨before, ⟨after, isBefore⟩, unmarked⟩, rfl⟩
    cases method.symm.trans method'
    exact ⟨⟨before, after, isBefore, unmarked⟩, rfl⟩

/-- **The comments that are proposed**: one for each rule and each call that it reports, unless the
text before the call is marked already. -/
theorem mem_edits_iff {edit : Edit} :
    edit ∈ draft.edits ↔ ∃ kind flagged comment, draft.Proposes kind flagged comment ∧
      edit = .annotate flagged.call.span comment := by
  simp only [edits, List.mem_flatMap, List.mem_filterMap, List.mem_filter, List.contains_iff_mem]
  constructor
  · rintro ⟨kind, isMarking, flagged, ⟨member, isReported⟩, proposed⟩
    obtain ⟨comment, method, unmarked, rfl⟩ := (edit?_eq_some_iff isMarking member).mp proposed
    exact ⟨kind, flagged, comment, ⟨isMarking, member, isReported, method, unmarked⟩, rfl⟩
  · rintro ⟨kind, flagged, comment, ⟨isMarking, member, isReported, method, unmarked⟩, rfl⟩
    exact ⟨kind, isMarking, flagged, ⟨member, isReported⟩,
      (edit?_eq_some_iff isMarking member).mpr ⟨comment, method, unmarked, rfl⟩⟩

/-- **A contested offset always gets one more comment**: it is not marked by both rules. -/
theorem IsContested.edits_ne_nil (contested : draft.IsContested) (placed : draft.Placed) :
    draft.edits ≠ [] := by
  obtain ⟨first, isFirst, second, isSecond, byFirst, bySecond, same⟩ := contested
  obtain ⟨before, after, text_eq, size_eq⟩ := placed first isFirst
  have beforeFirst : draft.IsBefore first before := ⟨after, text_eq, size_eq⟩
  have beforeSecond : draft.IsBefore second before := ⟨after, text_eq, size_eq.trans same⟩
  by_cases marked : isMarked "/* unity-lint: editor-only spreadsheet API */" before = true
  · refine List.ne_nil_of_mem (mem_edits_iff.mpr ⟨.frameQuery, second, _,
      ⟨by decide, isSecond, bySecond, rfl, before, beforeSecond, ?_⟩, rfl⟩)
    exact not_marked_twice rfl rfl marked
  · exact List.ne_nil_of_mem (mem_edits_iff.mpr ⟨.spreadsheetCall, first, _,
      ⟨by decide, isFirst, byFirst, rfl, before, beforeFirst, by simpa using marked⟩, rfl⟩)

/-- Where no offset is contested, the comments proposed for one offset are one comment. -/
theorem Proposes.comment_eq (uncontested : ¬ draft.IsContested)
    {kind other : Ban.Kind} {flagged second : Flagged} {comment another : String}
    (isReported : flagged ∈ draft.calls ∧ kind ∈ flagged.kinds) (isMarking : kind ∈ marking)
    (method : kind.fixMethod = .annotate comment)
    (proposed : draft.Proposes other second another) (same : second.start = flagged.start) :
    another = comment := by
  obtain ⟨otherMarking, isSecond, reportedSecond, otherMethod, -⟩ := proposed
  have kind_eq : other = kind := by
    rcases List.mem_pair.mp isMarking with rfl | rfl <;>
      rcases List.mem_pair.mp otherMarking with rfl | rfl
    · rfl
    · exact (uncontested ⟨flagged, isReported.1, second, isSecond, isReported.2, reportedSecond,
        same.symm⟩).elim
    · exact (uncontested ⟨second, isSecond, flagged, isReported.1, reportedSecond, isReported.2,
        same⟩).elim
    · rfl
  subst kind_eq
  cases otherMethod.symm.trans method
  rfl

/-! ### One round -/

/-- The text that a round puts at an offset. -/
def inserted (draft : Draft) : Nat → List Char :=
  Edit.insertedBy draft.edits

/-- What a round does: the comments are woven into the text, and every call moves. -/
structure Moves (draft next : Draft) : Prop where
  text : next.text.toList = Text.weave draft.inserted draft.text.toList
  calls : next.calls = draft.calls.map draft.moved

/-- **One round does not fail.** -/
theorem Placed.exists_moves (placed : draft.Placed) :
    ∃ next, draft.round? = some next ∧ draft.Moves next := by
  have annotations : ∀ edit ∈ draft.edits, edit.IsAnnotation := by
    intro edit member
    obtain ⟨kind, flagged, comment, -, rfl⟩ := mem_edits_iff.mp member
    trivial
  have places : ∀ edit ∈ draft.edits, Text.IsPlace draft.text.toList edit.target.start := by
    intro edit member
    obtain ⟨kind, flagged, comment, proposed, rfl⟩ := mem_edits_iff.mp member
    exact placed flagged proposed.2.1
  obtain ⟨outcome, done, woven⟩ := Edit.applyAll?_annotations annotations places
  refine ⟨⟨outcome.text, draft.calls.map draft.moved⟩, ?_, ⟨woven, rfl⟩⟩
  rw [round?, done]
  rfl

/-- The woven text stands before a moved call. -/
theorem Moves.isBefore (moves : draft.Moves next) {flagged : Flagged} {before : List Char}
    (isBefore : draft.IsBefore flagged before) :
    next.IsBefore (draft.moved flagged) (Text.weave draft.inserted before) := by
  obtain ⟨after, text_eq, size_eq⟩ := isBefore
  obtain ⟨tail, woven, -⟩ := Text.weaveFrom_append draft.inserted 0 before after
  refine ⟨tail, ?_, ?_⟩
  · rw [moves.text, text_eq]
    exact woven
  · have grown := Text.size_le_size_weaveFrom draft.inserted 0 before
    have growth_eq : draft.growth flagged.start =
        Text.size (Text.weave draft.inserted before) - flagged.start := by
      rw [growth, Text.cut?_eq_some_iff.mpr ⟨text_eq, size_eq⟩]
      rfl
    show _ = flagged.start + draft.growth flagged.start
    rw [growth_eq, ← size_eq]
    unfold Text.weave
    omega

theorem Moves.placed (moves : draft.Moves next) (placed : draft.Placed) : next.Placed := by
  intro flagged member
  rw [moves.calls, List.mem_map] at member
  obtain ⟨origin, isOrigin, rfl⟩ := member
  obtain ⟨before, isBefore⟩ := placed origin isOrigin
  obtain ⟨after, woven⟩ := moves.isBefore isBefore
  exact ⟨_, after, woven⟩

/-- Calls keep their order. -/
theorem Moves.start_lt (moves : draft.Moves next) (placed : draft.Placed) {first second : Flagged}
    (isFirst : first ∈ draft.calls) (isSecond : second ∈ draft.calls)
    (earlier : first.start < second.start) :
    (draft.moved first).start < (draft.moved second).start := by
  obtain ⟨before, after, text_eq, size_eq⟩ := placed first isFirst
  obtain ⟨longer, later, text_eq', size_eq'⟩ := placed second isSecond
  obtain ⟨middle, rfl, -⟩ := Text.exists_append_of_size_le (text_eq.symm.trans text_eq') (by omega)
  have more : middle ≠ [] := by
    rintro rfl
    rw [List.append_nil] at size_eq'
    omega
  obtain ⟨tail, woven, nonempty⟩ := Text.weaveFrom_append draft.inserted 0 before middle
  obtain ⟨-, -, first_eq⟩ := moves.isBefore ⟨after, text_eq, size_eq⟩
  obtain ⟨-, -, second_eq⟩ := moves.isBefore ⟨later, text_eq', size_eq'⟩
  have := Text.size_pos (nonempty more)
  rw [← first_eq, ← second_eq, Text.weave, Text.weave, woven, Text.size_append]
  omega

theorem moved_start_eq {first second : Flagged} (same : first.start = second.start) :
    (draft.moved first).start = (draft.moved second).start := by
  show first.start + draft.growth first.start = second.start + draft.growth second.start
  rw [same]

theorem Moves.start_lt_iff (moves : draft.Moves next) (placed : draft.Placed)
    {first second : Flagged} (isFirst : first ∈ draft.calls) (isSecond : second ∈ draft.calls) :
    (draft.moved first).start < (draft.moved second).start ↔ first.start < second.start := by
  refine ⟨fun earlier => ?_, moves.start_lt placed isFirst isSecond⟩
  by_contra notEarlier
  rcases Nat.lt_or_eq_of_le (Nat.not_lt.mp notEarlier) with later | same
  · have := moves.start_lt placed isSecond isFirst later
    omega
  · have : (draft.moved second).start = (draft.moved first).start := moved_start_eq same
    omega

/-- A round keeps what is contested. -/
theorem Moves.isContested_iff (moves : draft.Moves next) (placed : draft.Placed) :
    next.IsContested ↔ draft.IsContested := by
  constructor
  · rintro ⟨first, isFirst, second, isSecond, byFirst, bySecond, same⟩
    rw [moves.calls, List.mem_map] at isFirst isSecond
    obtain ⟨first, isFirst, rfl⟩ := isFirst
    obtain ⟨second, isSecond, rfl⟩ := isSecond
    refine ⟨first, isFirst, second, isSecond, byFirst, bySecond, ?_⟩
    have := moves.start_lt_iff placed isFirst isSecond
    have := moves.start_lt_iff placed isSecond isFirst
    omega
  · rintro ⟨first, isFirst, second, isSecond, byFirst, bySecond, same⟩
    refine ⟨draft.moved first, ?_, draft.moved second, ?_, byFirst, bySecond, moved_start_eq same⟩
    · rw [moves.calls]
      exact List.mem_map_of_mem isFirst
    · rw [moves.calls]
      exact List.mem_map_of_mem isSecond

/-- **A round leaves proposals only behind others.** Where no comment is proposed before a call, the
round puts the comment of its rule before it, or finds the call settled already. -/
theorem Moves.exists_earlier (moves : draft.Moves next) (uncontested : ¬ draft.IsContested)
    {kind : Ban.Kind} {flagged : Flagged} {comment : String} (member : flagged ∈ draft.calls)
    (proposed : next.Proposes kind (draft.moved flagged) comment) (placed : draft.Placed) :
    ∃ edit ∈ draft.edits, edit.target.start < flagged.start := by
  obtain ⟨isMarking, -, isReported, method, woven, isWoven, unmarked⟩ := proposed
  obtain ⟨before, after, text_eq, size_eq⟩ := placed flagged member
  have isBefore : draft.IsBefore flagged before := ⟨after, text_eq, size_eq⟩
  by_contra none
  simp only [not_exists, not_and, Nat.not_lt] at none
  have untouched : ∀ place < 0 + Text.size before, draft.inserted place = [] := by
    intro place earlier
    refine Edit.insertedBy_eq_nil fun edit isEdit same => ?_
    have := none edit isEdit
    omega
  have woven_eq : woven = before ++ draft.inserted flagged.start := by
    rw [isWoven.unique (moves.isBefore isBefore), Text.weave,
      Text.weaveFrom_eq_self_append untouched, size_eq, Nat.zero_add]
  by_cases here : ∃ edit ∈ draft.edits, edit.target.start = flagged.start
  · -- All comments proposed here are the one of this rule, and so the call is marked.
    obtain ⟨edit, isEdit, start_eq⟩ := here
    have inserted_eq : draft.inserted flagged.start = (comment ++ " ").toList := by
      refine Edit.insertedBy_eq isEdit start_eq fun other isOther sameStart => ?_
      obtain ⟨otherKind, second, another, proposed, rfl⟩ := mem_edits_iff.mp isOther
      have comment_eq := proposed.comment_eq uncontested ⟨member, isReported⟩ isMarking method
        sameStart
      exact ⟨second.call.span, by rw [comment_eq]⟩
    rw [woven_eq, inserted_eq, isMarked_append] at unmarked
    cases unmarked
  · -- Nothing is put here, and so the rule proposes its comment in this round already.
    simp only [not_exists, not_and] at here
    have inserted_eq : draft.inserted flagged.start = [] := Edit.insertedBy_eq_nil here
    rw [woven_eq, inserted_eq, List.append_nil] at unmarked
    exact here _ (mem_edits_iff.mpr ⟨kind, flagged, comment,
      ⟨isMarking, member, isReported, method, before, isBefore, unmarked⟩, rfl⟩) rfl

/-- How many calls start before an offset. -/
def rank (draft : Draft) (offset : Nat) : Nat :=
  draft.calls.countP (·.start < offset)

/-- So many calls start before every comment that is proposed. -/
def Ranked (n : Nat) (draft : Draft) : Prop :=
  ∀ edit ∈ draft.edits, n ≤ draft.rank edit.target.start

theorem rank_lt {flagged : Flagged} (member : flagged ∈ draft.calls) {offset : Nat}
    (earlier : flagged.start < offset) : draft.rank flagged.start < draft.rank offset := by
  obtain ⟨front, back, split⟩ := List.append_of_mem member
  have mono : ∀ calls : List Flagged,
      calls.countP (·.start < flagged.start) ≤ calls.countP (·.start < offset) := by
    intro calls
    refine List.countP_mono_left fun call _ before => ?_
    simp only [decide_eq_true_eq] at before ⊢
    omega
  have inFront := mono front
  have inBack := mono back
  simp only [rank, split, List.countP_append, List.countP_cons, decide_eq_true_eq, if_pos earlier,
    if_neg (Nat.lt_irrefl _)]
  omega

theorem Moves.rank_eq (moves : draft.Moves next) (placed : draft.Placed) {flagged : Flagged}
    (member : flagged ∈ draft.calls) :
    next.rank (draft.moved flagged).start = draft.rank flagged.start := by
  rw [rank, rank, moves.calls, List.countP_map]
  refine List.countP_congr fun call isCall => ?_
  simp only [Function.comp, decide_eq_true_eq]
  exact moves.start_lt_iff placed isCall member

/-- **One round settles one more call.** -/
theorem Moves.ranked (moves : draft.Moves next) (placed : draft.Placed)
    (uncontested : ¬ draft.IsContested) {n : Nat} (ranked : draft.Ranked n) :
    next.Ranked (n + 1) := by
  intro edit isEdit
  obtain ⟨kind, flagged, comment, proposed, rfl⟩ := mem_edits_iff.mp isEdit
  have member := proposed.2.1
  rw [moves.calls, List.mem_map] at member
  obtain ⟨origin, isOrigin, rfl⟩ := member
  obtain ⟨earlier, isEarlier, before⟩ := moves.exists_earlier uncontested isOrigin proposed placed
  have counted := ranked earlier isEarlier
  obtain ⟨_, second, _, proposed, rfl⟩ := mem_edits_iff.mp isEarlier
  have := rank_lt proposed.2.1 before
  show n + 1 ≤ next.rank (draft.moved origin).start
  rw [moves.rank_eq placed isOrigin]
  exact Nat.lt_of_le_of_lt counted this

/-- Not all calls start before one of them. -/
theorem Ranked.edits_eq_nil {n : Nat} (ranked : draft.Ranked n) (enough : draft.calls.length ≤ n) :
    draft.edits = [] := by
  rw [List.eq_nil_iff_forall_not_mem]
  intro edit isEdit
  have counted := ranked edit isEdit
  obtain ⟨_, flagged, _, proposed, rfl⟩ := mem_edits_iff.mp isEdit
  have : draft.rank flagged.start < draft.calls.length :=
    List.countP_lt_length_iff.mpr ⟨flagged, proposed.2.1, by simp⟩
  have : n ≤ draft.rank flagged.start := counted
  omega

/-! ### Every number of rounds -/

/-- What every round keeps holds after every number of rounds. -/
theorem rounds?_induction {holds : Nat → Draft → Prop}
    (step : ∀ n draft, holds n draft → ∃ next, draft.round? = some next ∧ holds (n + 1) next)
    {k : Nat} {draft : Draft} (start : holds k draft) (n : Nat) :
    ∃ last, draft.rounds? n = some last ∧ holds (k + n) last := by
  induction n generalizing k draft with
  | zero => exact ⟨draft, rfl, start⟩
  | succ n ih =>
    obtain ⟨next, done, kept⟩ := step k draft start
    obtain ⟨last, run, kept⟩ := ih kept
    refine ⟨last, ?_, ?_⟩
    · rw [rounds?, done]
      exact run
    · rwa [Nat.add_right_comm, Nat.add_assoc] at kept

/-- **The chase**: a contested offset gets a comment in every round. -/
theorem IsContested.rounds? (contested : draft.IsContested) (placed : draft.Placed) (n : Nat) :
    ∃ last, draft.rounds? n = some last ∧ last.edits ≠ [] := by
  have step : ∀ (_ : Nat) (draft : Draft), draft.Placed ∧ draft.IsContested →
      ∃ next, draft.round? = some next ∧ next.Placed ∧ next.IsContested := by
    rintro - draft ⟨placed, contested⟩
    obtain ⟨next, done, moves⟩ := placed.exists_moves
    exact ⟨next, done, moves.placed placed, (moves.isContested_iff placed).mpr contested⟩
  obtain ⟨last, run, placed, contested⟩ := rounds?_induction step (k := 0) ⟨placed, contested⟩ n
  exact ⟨last, run, contested.edits_ne_nil placed⟩

/-- **The rest**: where no offset is contested, each call costs one round at most. -/
theorem rounds?_of_not_isContested (uncontested : ¬ draft.IsContested) (placed : draft.Placed)
    {n : Nat} (enough : draft.calls.length ≤ n) :
    ∃ last, draft.rounds? n = some last ∧ last.edits = [] := by
  have step : ∀ (m : Nat) (other : Draft), (other.Placed ∧ ¬ other.IsContested ∧ other.Ranked m ∧
      other.calls.length = draft.calls.length) → ∃ next, other.round? = some next ∧
        next.Placed ∧ ¬ next.IsContested ∧ next.Ranked (m + 1) ∧
        next.calls.length = draft.calls.length := by
    rintro m other ⟨placed, uncontested, ranked, length_eq⟩
    obtain ⟨next, done, moves⟩ := placed.exists_moves
    refine ⟨next, done, moves.placed placed, ?_, moves.ranked placed uncontested ranked, ?_⟩
    · rwa [moves.isContested_iff placed]
    · rw [moves.calls, List.length_map, length_eq]
  have start : draft.Ranked 0 := fun _ _ => Nat.zero_le _
  obtain ⟨last, run, -, -, ranked, length_eq⟩ :=
    rounds?_induction step (k := 0) ⟨placed, uncontested, start, rfl⟩ n
  exact ⟨last, run, ranked.edits_eq_nil (by omega)⟩

/-- **Rounds come to rest exactly when no offset is contested.** No round fails. Without a contested
offset there is nothing left to propose after as many rounds as there are calls. With one, every
round proposes a comment. -/
theorem rounds?_settle (draft : Draft) (placed : draft.Placed) :
    (¬ draft.IsContested → ∀ n ≥ draft.calls.length,
      ∃ last, draft.rounds? n = some last ∧ last.edits = []) ∧
    (draft.IsContested → ∀ n, ∃ last, draft.rounds? n = some last ∧ last.edits ≠ []) :=
  ⟨fun uncontested _ enough => rounds?_of_not_isContested uncontested placed enough,
    fun contested n => contested.rounds? placed n⟩

/-- A chain whose first part constructs a workbook and which is a query as a whole. -/
def chained : Draft :=
  ⟨"new Book().Select(f)", [⟨⟨⟨0, 10⟩, .construction, "Book", none⟩, [.spreadsheetCall]⟩,
    ⟨⟨⟨0, 20⟩, .invocation, "Book().Select", none⟩, [.frameQuery]⟩]⟩

/-- A query of something that a workbook is made for, inside the call that makes it. -/
def nested : Draft :=
  ⟨"new Book(q.Select(f))", [⟨⟨⟨0, 21⟩, .construction, "Book", none⟩, [.spreadsheetCall]⟩,
    ⟨⟨⟨9, 20⟩, .invocation, "q.Select", none⟩, [.frameQuery]⟩]⟩

theorem rounds?_settle_nested :
    (nested.Placed ∧ ¬ nested.IsContested ∧ nested.edits ≠ [] ∧
      ∀ n ≥ 2, ∃ last, nested.rounds? n = some last ∧ last.edits = []) ∧
    (chained.Placed ∧ chained.IsContested ∧
      ∀ n, ∃ last, chained.rounds? n = some last ∧ last.edits ≠ []) := by
  have placedNested : nested.Placed := by decide
  have uncontested : ¬ nested.IsContested := by decide
  have placedChained : chained.Placed := by decide
  have contested : chained.IsContested := by decide
  exact ⟨⟨placedNested, uncontested, by decide, (rounds?_settle nested placedNested).1 uncontested⟩,
    placedChained, contested, (rounds?_settle chained placedChained).2 contested⟩

/-- The two rules chase each other at the start of a chain. -/
theorem rounds?_chained :
    chained.Placed ∧ ∀ n, ∃ last, chained.rounds? n = some last ∧ last.edits ≠ [] := by
  have placed : chained.Placed := by decide
  have contested : chained.IsContested := by decide
  exact ⟨placed, contested.rounds? placed⟩

end Draft

end ScriptLint.Remedy
