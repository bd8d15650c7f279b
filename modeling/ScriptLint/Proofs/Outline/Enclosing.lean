/-
**The walk and the range searches name the same declarations.**

The walk knows the type, the namespace and the routine around a node by the nodes it has entered; an
outline finds them again by searching the spans of its declarations. Both agree on every tree whose
spans are nested as a grammar nests them.

* `Laid`, `Shaped` — the conditions on a tree: how its spans are nested, and what a grammar adds.
* `held` — the findings that hold an offset. The searches are about these.
* `Standing` — what is held anywhere in a node, as far as it was found before the node: the types and
  routines around it, from the outside in, and the namespaces that are open.
* `Standing.descend`, `Enters.standing` — this passes from a node to those below it, so it holds at every
  entered node.
* `Agrees`, `ofTree_enclosing` — what the searches name at the start of a routine, a type or a call.
* `ofTree_enclosing_fails` — where they name another one, without one of the conditions or where a
  namespace has no name.
-/

import Mathlib.Data.List.Nodup
import ScriptLint.Proofs.Name.Parents
import ScriptLint.Proofs.Outline.Names
import ScriptLint.Script

namespace ScriptLint

theorem Span.covers_iff {outer inner : Span} :
    outer.covers inner = true ↔ outer.start ≤ inner.start ∧ inner.stop ≤ outer.stop := by
  simp [Span.covers]

theorem Span.contains_iff {span : Span} {offset : Nat} :
    span.contains offset = true ↔ span.start ≤ offset ∧ offset < span.stop := by
  simp [Span.contains]

theorem Span.length_lt {outer inner : Span} (ordered : inner.start ≤ inner.stop)
    (covers : outer.covers inner = true) (proper : inner ≠ outer) : inner.length < outer.length := by
  obtain ⟨start_le, stop_le⟩ := covers_iff.mp covers
  obtain ⟨start, stop⟩ := inner
  obtain ⟨outerStart, outerStop⟩ := outer
  simp only [ne_eq, mk.injEq] at proper
  simp only [length] at *
  omega

namespace Outline

open Source

/-- A tree whose spans are nested and in order, inside a text. -/
structure Laid (text : List Char) (root : Tree) : Prop where
  nested : root.Nested
  lines : root.LinesOutside
  inText : root.span.stop ≤ Text.size text

/-- A tree whose spans are nested as a grammar nests them, inside a text. -/
structure Shaped (text : List Char) (root : Tree) : Prop extends Laid text root where
  grammatical : root.Grammatical

theorem readTree_shaped {text : String} (lines : (readTree text).LinesOutside) :
    Shaped text.toList (readTree text) := by
  obtain ⟨nested, grammatical⟩ := readTree_nested text
  exact ⟨⟨nested, lines, (readTree_liesOn text).span.stop.le_size⟩, grammatical⟩

variable {text : List Char} {root tree child : Tree} {context : Context} {fact : Fact}
  {earlier later : List Tree} {offset : Nat}

/-! ### Entered nodes in a shaped tree -/

section Entered

theorem Enters.ordered (shaped : Shaped text root) (entered : Enters text root context tree) :
    tree.span.start ≤ tree.span.stop :=
  (shaped.nested _ entered.visited).ordered

theorem Enters.inside (shaped : Shaped text root) (entered : Enters text root context tree)
    (split : tree.children = earlier ++ child :: later) :
    tree.span.start ≤ child.span.start ∧ child.span.stop ≤ tree.span.stop :=
  Span.covers_iff.mp ((shaped.nested _ entered.visited).inside child (by simp [split]))

/-- The nodes before a child stop before it starts, those behind it start when it has stopped. -/
theorem Enters.beside (shaped : Shaped text root) (entered : Enters text root context tree)
    (split : tree.children = earlier ++ child :: later) :
    (∀ before ∈ earlier, before.span.stop ≤ child.span.start) ∧
      ∀ behind ∈ later, child.span.stop ≤ behind.span.start := by
  have inOrder := (shaped.nested _ entered.visited).inOrder
  rw [split, List.pairwise_append, List.pairwise_cons] at inOrder
  exact ⟨fun before member => inOrder.2.2 before member child List.mem_cons_self, inOrder.2.1.1⟩

theorem Enters.covers (shaped : Shaped text root) (entered : Enters text root context tree) :
    ∀ outer ∈ context.around,
      outer.span.start ≤ tree.span.start ∧ tree.span.stop ≤ outer.span.stop := by
  induction entered with
  | root => intro outer member; cases member
  | child entered notUsing split ih =>
    have inside := entered.inside shaped split
    intro outer member
    rcases List.mem_cons.mp member with rfl | member
    · exact inside
    · have around := ih outer member
      omega

theorem Enters.stop_le (shaped : Shaped text root) (entered : Enters text root context tree) :
    tree.span.stop ≤ Text.size text := by
  induction entered with
  | root => exact shaped.inText
  | child entered notUsing split ih => exact Nat.le_trans (entered.inside shaped split).2 ih

/-- The finding starts in the span, and stops in it or is a namespace that reaches to the end of the
text. -/
structure Fact.IsIn (text : List Char) (span : Span) (fact : Fact) : Prop where
  start_le : span.start ≤ fact.span.start
  le_stop : fact.span.start ≤ span.stop
  stop : fact.span.stop ≤ span.stop ∨ fact.scope?.isSome = true ∧ fact.span.stop = Text.size text

theorem Finding.isIn (finding : Finding text context tree fact)
    (ordered : tree.span.start ≤ tree.span.stop) : fact.IsIn text tree.span := by
  have start_eq := finding.start_eq
  refine ⟨by omega, by omega, ?_⟩
  rcases finding.span_eq with same | ⟨-, isScope, reaching⟩
  · exact .inl (Nat.le_of_eq (by rw [same]))
  · exact .inr ⟨isScope, by rw [reaching]⟩

/-- What is found in an entered node lies in it. -/
theorem Enters.isIn (shaped : Shaped text root) (entered : Enters text root context tree)
    (found : fact ∈ (context.visit text tree).facts) : fact.IsIn text tree.span := by
  rcases entered.source found with own | ⟨inner, node, enters, suffix, own⟩
  · exact (finding_of_own? own).isIn (entered.ordered shaped)
  · have isIn := (finding_of_own? own).isIn (enters.ordered shaped)
    have outer := enters.covers shaped tree (suffix.subset List.mem_cons_self)
    have start_le := isIn.start_le
    have le_stop := isIn.le_stop
    exact ⟨by omega, by omega, isIn.stop.imp_left fun stop => by omega⟩

/-- What is found in the nodes before a child lies in one of them. -/
theorem Enters.isIn_earlier (shaped : Shaped text root) (entered : Enters text root context tree)
    (notUsing : tree.kind ≠ .usingDirective) (split : tree.children = earlier ++ later)
    (found : fact ∈ ((context.inside text tree).visitAll text earlier).facts) :
    ∃ before ∈ earlier, fact.IsIn text before.span := by
  obtain ⟨first, before, rest, cut, found⟩ := Context.mem_visitAll_facts found
  have step := Enters.child entered notUsing
    (show tree.children = first ++ before :: (rest ++ later) by rw [split, cut]; simp)
  exact ⟨before, by rw [cut]; simp, step.isIn shaped found⟩

/-- The walk finds in the order of starts. -/
theorem Enters.sorted (shaped : Shaped text root) (entered : Enters text root context tree) :
    (context.visit text tree).facts.Pairwise fun a b => a.span.start ≤ b.span.start := by
  induction tree using Tree.below_induction generalizing context with
  | step tree ih =>
    by_cases isUsing : tree.kind = .usingDirective
    · rw [(Context.visit_using isUsing).1]
      cases context.own? text tree <;> simp
    · -- On the nodes below, from the first on: what is found in the next starts behind the others.
      have along : ∀ (earlier later : List Tree), tree.children = earlier ++ later →
          ((context.inside text tree).visitAll text earlier).facts.Pairwise
            fun a b => a.span.start ≤ b.span.start := by
        intro earlier
        induction earlier using List.reverseRecOn with
        | nil => intro later _; rw [Context.visitAll_nil]; exact List.Pairwise.nil
        | append_singleton earlier child along =>
          intro later split
          have cut : tree.children = earlier ++ child :: later := by rw [split]; simp
          have step := Enters.child entered isUsing cut
          rw [Context.visitAll_append_facts, Context.visitAll_singleton.1, List.pairwise_append]
          refine ⟨along (child :: later) cut, ih child (by rw [cut]; simp) step, ?_⟩
          intro a foundA b foundB
          obtain ⟨before, member, isIn⟩ := entered.isIn_earlier shaped isUsing cut foundA
          have stops := (entered.beside shaped cut).1 before member
          exact Nat.le_trans isIn.le_stop (Nat.le_trans stops (step.isIn shaped foundB).start_le)
      have found : ∀ fact ∈ (context.visit text tree).facts, fact.IsIn text tree.span :=
        fun fact member => entered.isIn shaped member
      rw [Context.visit_facts isUsing] at found ⊢
      rw [List.pairwise_append]
      refine ⟨by cases context.own? text tree <;> simp, along tree.children [] (by simp), ?_⟩
      intro a own b below
      rw [(finding_of_own? (Option.mem_toList.mp own)).start_eq]
      exact (found b (List.mem_append_right _ below)).start_le

end Entered

/-! ### Findings that hold an offset -/

/-- The findings that hold an offset. -/
def held (offset : Nat) (facts : List Fact) : List Fact :=
  facts.filter (·.span.contains offset)

@[simp] theorem held_append (offset : Nat) (some more : List Fact) :
    held offset (some ++ more) = held offset some ++ held offset more :=
  List.filter_append ..

theorem held_eq_nil {facts : List Fact}
    (none : ∀ fact ∈ facts, fact.span.contains offset = false) : held offset facts = [] :=
  List.filter_eq_nil_iff.mpr fun fact member => by simp [none fact member]

section Held

/-- Behind a node, only namespaces without a body still hold an offset. -/
theorem Fact.IsIn.contains_iff {span : Span} (isIn : fact.IsIn text span) (behind : span.stop ≤ offset)
    (inText : offset < Text.size text) :
    fact.span.contains offset = true ↔
      fact.scope?.isSome = true ∧ fact.span.stop = Text.size text := by
  have le_stop := isIn.le_stop
  rw [Span.contains_iff]
  constructor
  · rintro ⟨-, stops⟩
    exact isIn.stop.resolve_left (by omega)
  · rintro ⟨-, stop_eq⟩
    exact ⟨by omega, by omega⟩

/-- The name of the last namespace among some findings. -/
def lastScope? (facts : List Fact) : Option String :=
  (facts.filterMap Fact.scope?).getLast?.map (·.name)

theorem lastScope?_append (some more : List Fact) :
    lastScope? (some ++ more) = (lastScope? more).or (lastScope? some) := by
  unfold lastScope?
  rw [List.filterMap_append, List.getLast?_append]
  cases (more.filterMap Fact.scope?).getLast? <;> rfl

theorem lastScope?_toList (own : Option Fact) :
    lastScope? own.toList = (own.bind Fact.scope?).map (·.name) := by
  unfold lastScope?
  cases own with
  | none => rfl
  | some fact => cases found : fact.scope? <;> simp [found]

/-- Behind a using directive or a namespace with a body, nothing found in it holds an offset. -/
theorem Enters.held_closed (shaped : Shaped text root) (entered : Enters text root context tree)
    (closed : tree.kind = .usingDirective ∨ tree.kind = .namespaceBlock)
    (behind : tree.span.stop ≤ offset) : held offset (context.visit text tree).facts = [] := by
  have within : ∀ {inner : Context} {node : Tree} {fact : Fact}, Finding text inner node fact →
      node.kind ≠ .namespaceLine → node.span.stop ≤ tree.span.stop →
        fact.span.contains offset = false := by
    intro inner node fact finding notLine stops
    rcases finding.span_eq with same | ⟨isLine, -⟩
    · rw [Bool.eq_false_iff, ne_eq, Span.contains_iff, same]
      omega
    · exact absurd isLine notLine
  refine held_eq_nil fun fact found => ?_
  have ownLine : tree.kind ≠ .namespaceLine := by
    rcases closed with isUsing | isBlock
    · rw [isUsing]; decide
    · rw [isBlock]; decide
  rcases closed with isUsing | isBlock
  · rw [(Context.visit_using isUsing).1] at found
    exact within (finding_of_own? (Option.mem_toList.mp found)) ownLine (Nat.le_refl _)
  · rcases entered.source found with own | ⟨inner, node, enters, suffix, own⟩
    · exact within (finding_of_own? own) ownLine (Nat.le_refl _)
    · have around : tree ∈ inner.around := suffix.subset List.mem_cons_self
      exact within (finding_of_own? own)
        (fun isLine => shaped.lines _ enters.visited isLine tree around isBlock)
        (enters.covers shaped tree around).2

/-- Behind a node, the namespace that was opened at it without a body is still open. -/
theorem lastScope?_held_own (ordered : tree.span.start ≤ tree.span.stop)
    (notBlock : tree.kind ≠ .namespaceBlock) (behind : tree.span.stop ≤ offset)
    (inText : offset < Text.size text) :
    lastScope? (held offset (context.own? text tree).toList) =
      ((context.own? text tree).bind Fact.scope?).map (·.name) := by
  rw [← lastScope?_toList]
  cases own : context.own? text tree with
  | none => rfl
  | some fact =>
    have holds : fact.scope? = none ∨ fact.span.contains offset = true := by
      cases finding_of_own? own with
      | block isBlock => exact absurd isBlock notBlock
      | line => exact .inr (Span.contains_iff.mpr ⟨Nat.le_trans ordered behind, inText⟩)
      | _ => exact .inl rfl
    by_cases contains : fact.span.contains offset = true
    · simp [held, contains]
    · simp [held, contains, lastScope?, holds.resolve_right contains]

/-- Behind some of the nodes below a node, if it is so behind each of them. -/
theorem Enters.home_along (entered : Enters text root context tree)
    (notUsing : tree.kind ≠ .usingDirective) (split : tree.children = earlier ++ later)
    (each : ∀ child ∈ earlier, ∀ inner, Enters text root inner child →
      (inner.visit text child).home =
        (lastScope? (held offset (inner.visit text child).facts)).or inner.home) :
    ((context.inside text tree).visitAll text earlier).home =
      (lastScope? (held offset ((context.inside text tree).visitAll text earlier).facts)).or
        (context.inside text tree).home := by
  induction earlier using List.reverseRecOn generalizing later with
  | nil => rw [Context.visitAll_nil]; rfl
  | append_singleton earlier child along =>
    have cut : tree.children = earlier ++ child :: later := by rw [split]; simp
    rw [Context.visitAll_append_home, Context.visitAll_singleton.2.2,
      each child (by simp) _ (.child entered notUsing cut), Context.visitAll_append_facts,
      Context.visitAll_singleton.1, held_append, lastScope?_append, Option.or_assoc,
      ← along cut fun child member => each child (List.mem_append_left _ member)]
    rfl

/-- **Behind a node**, the namespace is the last one that was opened in it and is still open. -/
theorem Enters.home_behind (shaped : Shaped text root) (entered : Enters text root context tree)
    (behind : tree.span.stop ≤ offset) (inText : offset < Text.size text) :
    (context.visit text tree).home =
      (lastScope? (held offset (context.visit text tree).facts)).or context.home := by
  induction tree using Tree.below_induction generalizing context with
  | step tree ih =>
    by_cases closed : tree.kind = .usingDirective ∨ tree.kind = .namespaceBlock
    · rw [Context.visit_home, if_pos closed, entered.held_closed shaped closed behind]
      rfl
    · have notUsing : tree.kind ≠ .usingDirective := fun isUsing => closed (.inl isUsing)
      have along := entered.home_along notUsing (List.append_nil tree.children).symm
        fun child below inner enters => ih child below enters (by
          obtain ⟨earlier, later, split⟩ := List.append_of_mem below
          exact Nat.le_trans (entered.inside shaped split).2 behind)
      rw [Context.visit_home, if_neg closed, along, Context.visit_facts notUsing, held_append,
        lastScope?_append,
        lastScope?_held_own (entered.ordered shaped) (fun isBlock => closed (.inr isBlock)) behind
          inText, Option.or_assoc, Context.own?_tells.home]

end Held

/-! ### What is held in a node -/

/-- Where a node stands among all findings: `before` are those made before it, `after` those made
behind it, and `stack` those of the former that hold the offsets of the node. -/
structure Standing (text : List Char) (all : List Fact) (context : Context) (tree : Tree)
    (before after stack : List Fact) : Prop where
  split : all = before ++ (context.visit text tree).facts ++ after
  behind : ∀ fact ∈ after, tree.span.stop ≤ fact.span.start
  holds : ∀ offset, tree.span.contains offset = true → held offset before = stack
  home : lastScope? stack = context.home
  owner : (stack.filterMap Fact.type?).getLast?.map (·.name) = context.owner
  types : (stack.filterMap Fact.type?).reverse.map (·.span) = context.around.filterMap (typeSpan? text)
  routines : (stack.filterMap Fact.routine?).reverse.map withoutOwner =
    context.around.filterMap (declaredRoutine? text)

section Standing

variable {all before after stack : List Fact}

theorem Standing.initial (text : List Char) (root : Tree) :
    Standing text (Context.start.visit text root).facts .start root [] [] [] :=
  ⟨by simp, by simp, fun _ _ => rfl, rfl, rfl, rfl, rfl⟩

/-- What is found at a node holds the offsets of the nodes below. -/
theorem Enters.own_holds (shaped : Shaped text root) (entered : Enters text root context tree)
    (own : context.own? text tree = some fact) (inside : tree.span.contains offset = true) :
    fact.span.contains offset = true := by
  have inText := entered.stop_le shaped
  rcases (finding_of_own? own).span_eq with same | ⟨-, -, reaching⟩
  · rwa [same]
  · rw [Span.contains_iff] at inside ⊢
    rw [reaching]
    exact ⟨inside.1, Nat.lt_of_lt_of_le inside.2 inText⟩

/-- Of what is found before a child, the same holds all offsets of the child: namespaces without a
body. -/
theorem Enters.held_earlier (shaped : Shaped text root) (entered : Enters text root context tree)
    (notUsing : tree.kind ≠ .usingDirective) (split : tree.children = earlier ++ child :: later)
    (inside : child.span.contains offset = true) :
    held offset ((context.inside text tree).visitAll text earlier).facts =
      ((context.inside text tree).visitAll text earlier).facts.filter
        fun fact => fact.scope?.isSome && fact.span.stop == Text.size text := by
  have inText := (Enters.child entered notUsing split).stop_le shaped
  rw [Span.contains_iff] at inside
  refine List.filter_congr fun fact found => ?_
  obtain ⟨before, member, isIn⟩ := entered.isIn_earlier shaped notUsing split found
  have stops := (entered.beside shaped split).1 before member
  rw [Bool.eq_iff_iff, isIn.contains_iff (by omega) (by omega)]
  simp

/-- What is found in the nodes behind a child starts when the child has stopped. -/
theorem Enters.start_later (shaped : Shaped text root) (entered : Enters text root context tree)
    (notUsing : tree.kind ≠ .usingDirective) (split : tree.children = earlier ++ child :: later)
    (found : fact ∈ (((context.inside text tree).behind text (earlier ++ [child])).visitAll text
      later).facts) : child.span.stop ≤ fact.span.start := by
  obtain ⟨first, next, rest, cut, found⟩ := Context.mem_visitAll_facts found
  rw [← Context.behind_append] at found
  have step := Enters.child entered notUsing
    (show tree.children = (earlier ++ [child] ++ first) ++ next :: rest by rw [split, cut]; simp)
  have starts := (entered.beside shaped split).2 next (by rw [cut]; simp)
  exact Nat.le_trans starts (step.isIn shaped found).start_le

theorem filterMap_stack {α : Type} {part : Fact → Option α} (own : Option Fact) (facts : List Fact)
    (other : ∀ found, part (.scope found) = none) :
    (stack ++ own.toList ++ facts.filter
        fun fact => fact.scope?.isSome && fact.span.stop == Text.size text).filterMap part =
      stack.filterMap part ++ (own.bind part).toList := by
  have none : (facts.filter fun fact => fact.scope?.isSome &&
      fact.span.stop == Text.size text).filterMap part = [] := by
    rw [List.filterMap_eq_nil_iff]
    intro fact member
    simp only [List.mem_filter, Bool.and_eq_true] at member
    cases fact with
    | scope found => exact other found
    | _ => cases member.2.1
  rw [List.filterMap_append, List.filterMap_append, none, List.append_nil]
  congr 1
  cases own with
  | none => rfl
  | some fact => cases found : part fact <;> simp [found]

theorem reverse_map_append_toList {α β : Type} (items : List α) (next : Option α) (f : α → β) :
    (items ++ next.toList).reverse.map f = (next.map f).toList ++ items.reverse.map f := by
  cases next <;> simp

theorem filterMap_cons_toList {α β : Type} (f : α → Option β) (first : α) (more : List α) :
    (first :: more).filterMap f = (f first).toList ++ more.filterMap f := by
  cases found : f first <;> simp [found]

/-- **One step down.** What is held in a node passes to a node below it, with what is found at the
node and what stays open of what is found before the child. -/
theorem Standing.descend (shaped : Shaped text root) (entered : Enters text root context tree)
    (standing : Standing text all context tree before after stack)
    (notUsing : tree.kind ≠ .usingDirective) (cut : tree.children = earlier ++ child :: later)
    (solid : child.span.start < child.span.stop) :
    ∃ before after stack,
      Standing text all ((context.inside text tree).behind text earlier) child before after stack := by
  have inside := entered.inside shaped cut
  have step := Enters.child entered notUsing cut
  have first : child.span.contains child.span.start = true :=
    Span.contains_iff.mpr ⟨Nat.le_refl _, solid⟩
  refine ⟨before ++ (context.own? text tree).toList ++
      ((context.inside text tree).visitAll text earlier).facts,
    (((context.inside text tree).behind text (earlier ++ [child])).visitAll text later).facts ++ after,
    stack ++ (context.own? text tree).toList ++
      ((context.inside text tree).visitAll text earlier).facts.filter
        fun fact => fact.scope?.isSome && fact.span.stop == Text.size text, ?_⟩
  refine ⟨?_, ?_, ?_, ?_, ?_, ?_, ?_⟩
  · have below : tree.children = (earlier ++ [child]) ++ later := by rw [cut]; simp
    rw [standing.split, Context.visit_facts notUsing, below, Context.visitAll_append_facts,
      Context.visitAll_append_facts, Context.visitAll_singleton.1]
    simp only [List.append_assoc]
  · intro fact found
    rcases List.mem_append.mp found with found | found
    · exact entered.start_later shaped notUsing cut found
    · exact Nat.le_trans inside.2 (standing.behind fact found)
  · intro offset contains
    have around : tree.span.contains offset = true := by
      rw [Span.contains_iff] at contains ⊢
      omega
    have own : held offset (context.own? text tree).toList = (context.own? text tree).toList :=
      List.filter_eq_self.mpr fun fact found =>
        entered.own_holds shaped (Option.mem_toList.mp found) around
    rw [held_append, held_append, standing.holds offset around, own,
      entered.held_earlier shaped notUsing cut contains]
  · -- The walk has carried the namespace past the nodes before the child, where only what is still
    -- open counts.
    have behind := (entered.beside shaped cut).1
    have inText := step.stop_le shaped
    have along := entered.home_along notUsing cut fun before member inner enters =>
      enters.home_behind shaped (behind before member) (Nat.lt_of_lt_of_le solid inText)
    rw [entered.held_earlier shaped notUsing cut first, Context.own?_tells.home,
      ← lastScope?_toList] at along
    rw [lastScope?_append, lastScope?_append, standing.home]
    exact along.symm
  · -- What stays open is no type and no routine, so only what is found at the node is added.
    rw [filterMap_stack _ _ fun _ => rfl, List.getLast?_append]
    show _ = (context.inside text tree).owner
    rw [Context.own?_tells.owner, ← standing.owner]
    cases (context.own? text tree).bind Fact.type? <;> rfl
  · rw [filterMap_stack _ _ fun _ => rfl, reverse_map_append_toList, standing.types,
      Context.own?_tells.type]
    exact (filterMap_cons_toList _ _ _).symm
  · rw [filterMap_stack _ _ fun _ => rfl, reverse_map_append_toList, standing.routines,
      Context.own?_tells.routine]
    exact (filterMap_cons_toList _ _ _).symm

/-- **Every entered node** that is not empty stands where the walk says. -/
theorem Enters.standing (shaped : Shaped text root) (entered : Enters text root context tree)
    (solid : tree.span.start < tree.span.stop) :
    ∃ before after stack,
      Standing text (Context.start.visit text root).facts context tree before after stack := by
  induction entered with
  | root => exact ⟨[], [], [], .initial text root⟩
  | child entered notUsing split ih =>
    have inside := entered.inside shaped split
    obtain ⟨before, after, stack, standing⟩ := ih (by omega)
    exact standing.descend shaped entered notUsing split solid

/-- The type that the walk stands in is the innermost one that is held. -/
theorem Standing.head?_types (standing : Standing text all context tree before after stack) :
    ((stack.filterMap Fact.type?).reverse.map (·.name)).head? = context.owner := by
  rw [List.head?_map, List.head?_reverse, standing.owner]

theorem Standing.mem_all (standing : Standing text all context tree before after stack)
    (solid : tree.span.start < tree.span.stop) (member : fact ∈ stack) : fact ∈ all := by
  rw [← standing.holds tree.span.start (Span.contains_iff.mpr ⟨Nat.le_refl _, solid⟩)] at member
  rw [standing.split]
  exact List.mem_append_left _ (List.mem_append_left _ (List.mem_of_mem_filter member))

/-- **What is held at the start of a node**: what is held anywhere in it, and what is found at the
node, if nothing of the sort starts together with the node below it. -/
theorem Standing.at_start {α : Type} (part : Fact → Option α) (shaped : Shaped text root)
    (entered : Enters text root context tree)
    (standing : Standing text all context tree before after stack)
    (solid : tree.span.start < tree.span.stop)
    (apart : ∀ inner node fact, Enters text root inner node → tree ∈ inner.around →
      Finding text inner node fact → (part fact).isSome = true →
        tree.span.start < node.span.start) :
    (held tree.span.start all).filterMap part =
      stack.filterMap part ++ ((context.own? text tree).bind part).toList := by
  have first : tree.span.contains tree.span.start = true :=
    Span.contains_iff.mpr ⟨Nat.le_refl _, solid⟩
  have noneAfter : held tree.span.start after = [] := held_eq_nil fun fact member => by
    have starts := standing.behind fact member
    rw [Bool.eq_false_iff, ne_eq, Span.contains_iff]
    omega
  have own : (held tree.span.start (context.own? text tree).toList).filterMap part =
      ((context.own? text tree).bind part).toList := by
    cases found : context.own? text tree with
    | none => rfl
    | some fact =>
      have holds := entered.own_holds shaped found first
      cases isPart : part fact <;> simp [held, holds, isPart]
  rw [standing.split, held_append, held_append, standing.holds _ first, noneAfter, List.append_nil,
    List.filterMap_append]
  congr 1
  by_cases isUsing : tree.kind = .usingDirective
  · rw [(Context.visit_using isUsing).1, own]
  · rw [Context.visit_facts isUsing, held_append, List.filterMap_append, own]
    refine List.append_right_eq_self.mpr (List.filterMap_eq_nil_iff.mpr fun fact member => ?_)
    obtain ⟨found, contains⟩ := List.mem_filter.mp member
    obtain ⟨inner, node, enters, suffix, isOwn⟩ := entered.source_below isUsing found
    have finding := finding_of_own? isOwn
    rw [Span.contains_iff, finding.start_eq] at contains
    by_contra isPart
    have later := apart inner node fact enters (suffix.subset List.mem_cons_self) finding
      (Option.isSome_iff_ne_none.mpr isPart)
    omega

end Standing

/-! ### The searches -/

section Searches

theorem mergeSort_of_increasing {types : List TypeDecl}
    (increasing : types.Pairwise fun a b => a.span.start < b.span.start) :
    (types.mergeSort fun a b => b.span.start ≤ a.span.start) = types.reverse := by
  have sorted : (types.mergeSort fun a b => b.span.start ≤ a.span.start).Pairwise
      fun a b => b.span.start ≤ a.span.start := by
    have pairwise := @List.pairwise_mergeSort _
      (fun a b : TypeDecl => decide (b.span.start ≤ a.span.start))
      (fun a b c => by simp only [decide_eq_true_eq]; omega)
      (fun a b => by simp only [Bool.or_eq_true, decide_eq_true_eq]; omega) types
    simpa using pairwise
  have reversed : types.reverse.Pairwise fun a b => b.span.start ≤ a.span.start :=
    List.pairwise_reverse.mpr (increasing.imp Nat.le_of_lt)
  have distinct : (types.map (·.span.start)).Nodup :=
    List.pairwise_map.mpr (increasing.imp Nat.ne_of_lt)
  refine List.Perm.eq_of_pairwise (fun a b left right le ge => ?_) sorted reversed
    ((List.mergeSort_perm _ _).trans (List.reverse_perm _).symm)
  exact List.inj_on_of_nodup_map distinct (List.mem_mergeSort.mp left) (List.mem_reverse.mp right)
    (Nat.le_antisymm ge le)

theorem foldl_laterStart {scopes : List NamespaceScope}
    (sorted : scopes.Pairwise fun a b => a.span.start ≤ b.span.start) :
    scopes.foldl Scope.laterStart none = scopes.getLast? := by
  induction scopes using List.reverseRecOn with
  | nil => rfl
  | append_singleton earlier last ih =>
    rw [List.pairwise_append] at sorted
    rw [List.foldl_concat, ih sorted.1, List.getLast?_concat]
    cases found : earlier.getLast? with
    | none => rfl
    | some best =>
      have le := sorted.2.2 best (List.mem_of_getLast? found) last List.mem_cons_self
      simp [Scope.laterStart, le]

/-- The members of an outline that hold an offset, from the findings that do. -/
theorem filter_filterMap {α : Type} {part : Fact → Option α} {spanOf : α → Span}
    (spanned : ∀ {fact found}, part fact = some found → fact.span = spanOf found) (facts : List Fact) :
    (facts.filterMap part).filter (fun found => (spanOf found).contains offset) =
      (held offset facts).filterMap part := by
  unfold held
  rw [List.filter_filterMap, List.filterMap_filter]
  refine List.filterMap_congr fun fact _ => ?_
  cases found : part fact with
  | none => simp
  | some member => simp [spanned found, Option.filter_some]

end Searches

/-- How a node lies to one around it. -/
structure Below (inner outer : Tree) : Prop where
  ordered : inner.span.start ≤ inner.span.stop
  start_le : outer.span.start ≤ inner.span.start
  stop_le : inner.span.stop ≤ outer.span.stop
  later : (outer.kind.isApart inner.kind || outer.kind.isLed inner.kind) = true →
    outer.span.start < inner.span.start
  proper : inner.kind = .routine → outer.kind = .routine → inner.span ≠ outer.span

theorem Enters.isBelow (shaped : Shaped text root) (entered : Enters text root context tree) :
    ∀ outer ∈ context.around, Below tree outer := by
  intro outer member
  have covers := entered.covers shaped outer member
  refine ⟨entered.ordered shaped, covers.1, covers.2, fun either => ?_, fun isRoutine =>
    (shaped.grammatical _ entered.visited).proper isRoutine outer member⟩
  rcases (Bool.or_eq_true _ _).mp either with apart | led
  · exact (shaped.nested _ entered.visited).apart outer member apart
  · exact (shaped.grammatical _ entered.visited).led outer member led

/-- The nodes around an entered node lie one in the other. -/
theorem Enters.chain (shaped : Shaped text root) (entered : Enters text root context tree) :
    (tree :: context.around).Pairwise Below := by
  induction entered with
  | root => exact List.pairwise_singleton _ _
  | child entered notUsing split ih =>
    exact List.pairwise_cons.mpr ⟨(Enters.child entered notUsing split).isBelow shaped, ih⟩

theorem typeSpan?_eq_some {span : Span} (found : typeSpan? text tree = some span) :
    tree.kind.isType = true ∧ span = tree.span := by
  unfold typeSpan? at found
  split at found
  · obtain ⟨_, -, rfl⟩ := Option.map_eq_some_iff.mp found
    exact ⟨‹_›, rfl⟩
  · cases found

section Around

variable {all before after stack : List Fact}

/-- The types around a node, and the one found at it, start one after the other. -/
theorem Standing.types_increasing (shaped : Shaped text root)
    (entered : Enters text root context tree)
    (standing : Standing text all context tree before after stack) :
    (stack.filterMap Fact.type? ++ ((context.own? text tree).bind Fact.type?).toList).Pairwise
      fun a b => a.span.start < b.span.start := by
  have pairwise : ((stack.filterMap Fact.type? ++
      ((context.own? text tree).bind Fact.type?).toList).reverse.map (·.span)).Pairwise
        fun a b => b.start < a.start := by
    rw [reverse_map_append_toList, standing.types, Context.own?_tells.type, ← filterMap_cons_toList]
    refine List.Pairwise.filterMap _ (fun inner outer below a isA b isB => ?_)
      (entered.chain shaped)
    obtain ⟨innerType, rfl⟩ := typeSpan?_eq_some isA
    obtain ⟨outerType, rfl⟩ := typeSpan?_eq_some isB
    exact below.later (by simp [Kind.isApart, innerType, outerType])
  rw [List.pairwise_map] at pairwise
  exact List.pairwise_reverse.mp pairwise

end Around

/-! ### The searches at entered nodes -/

section Named

variable {source : String} {before after stack : List Fact}

/-- The types at the start of a type or a routine: those around it from the inside out, and before
them the type itself. -/
theorem Standing.typesAround_eq (shaped : Shaped source.toList root)
    (entered : Enters source.toList root context tree)
    (standing : Standing source.toList (factsOf source.toList root) context tree before after stack)
    (solid : tree.span.start < tree.span.stop)
    (declares : tree.kind.isType = true ∨ tree.kind = .routine) :
    Scope.typesAround (ofTree source root) tree.span.start =
      ((context.own? source.toList tree).bind Fact.type?).toList ++
        (stack.filterMap Fact.type?).reverse := by
  have held := standing.at_start Fact.type? shaped entered solid
    fun inner node fact enters member finding isPart => by
      cases finding with
      | type isType =>
        refine (enters.isBelow shaped tree member).later ?_
        rcases declares with outer | outer <;> simp [Kind.isApart, Kind.isLed, outer, isType]
      | _ => cases isPart
  unfold Scope.typesAround
  rw [types_ofTree, filter_filterMap Fact.span_of_type?, held,
    mergeSort_of_increasing (standing.types_increasing shaped entered), List.reverse_append]
  congr 1
  cases (context.own? source.toList tree).bind Fact.type? <;> rfl

/-- The namespace at the start of a type is the last one that is open around it. -/
theorem Standing.innermost?_eq (shaped : Shaped source.toList root)
    (entered : Enters source.toList root context tree)
    (standing : Standing source.toList (factsOf source.toList root) context tree before after stack)
    (solid : tree.span.start < tree.span.stop) (isType : tree.kind.isType = true) :
    Scope.innermost? (ofTree source root) tree.span.start = (stack.filterMap Fact.scope?).getLast? := by
  have own : (context.own? source.toList tree).bind Fact.scope? = none := by
    cases found : context.own? source.toList tree with
    | none => rfl
    | some fact =>
      cases finding_of_own? found with
      | block isBlock => rw [isBlock] at isType; cases isType
      | line isLine => rw [isLine] at isType; cases isType
      | _ => rfl
  have held := standing.at_start Fact.scope? shaped entered solid
    fun inner node fact enters member finding isPart => by
      cases finding with
      | block isBlock =>
        exact (enters.isBelow shaped tree member).later
          (by simp [Kind.isApart, Kind.isNamespace, isType, isBlock])
      | line isLine =>
        exact (enters.isBelow shaped tree member).later
          (by simp [Kind.isApart, Kind.isNamespace, isType, isLine])
      | _ => cases isPart
  rw [own, Option.toList_none, List.append_nil] at held
  have sorted : ((factsOf source.toList root).filterMap Fact.scope?).Pairwise
      fun a b => a.span.start ≤ b.span.start := by
    refine List.Pairwise.filterMap _ (fun a b le found isFound other isOther => ?_)
      (Enters.root.sorted shaped)
    rw [← Fact.span_of_scope? isFound, ← Fact.span_of_scope? isOther]
    exact le
  unfold Scope.innermost?
  rw [namespaces_ofTree, foldl_laterStart (sorted.filter _), filter_filterMap Fact.span_of_scope?, held]

end Named

section Script

variable {source : String} {script : Script}

/-- **The names of a type**, from the scope at its start. -/
theorem typeDecl_eq (shaped : Shaped source.toList root)
    (outline_eq : script.outline = ofTree source root) {found : TypeDecl}
    (member : found ∈ script.outline.types) :
    (script.scopeAt found.span.start).namespaces = (found.home.map Name.withParents).getD [] ∧
      (∀ name, found.home = some name → ∃ scope ∈ script.outline.namespaces, scope.name = name) ∧
      (script.scopeAt found.span.start).types.head? = some found.name ∧
      ∃ occurrence ∈ root.visited [], occurrence.node.kind.isType = true ∧
        occurrence.node.span = found.span ∧
        ∃ simple, declaredName? source.toList occurrence.node.children = some simple ∧
          found.name =
            Name.qualify ((script.scopeAt found.span.start).types[1]?.or found.home) simple := by
  rw [outline_eq, types_ofTree, List.mem_filterMap] at member
  obtain ⟨fact, isFact, isType⟩ := member
  obtain ⟨context, tree, entered, own⟩ := Enters.exists_own isFact
  cases finding_of_own? own with
  | @type _ simple isKind named name_eq home_eq span_eq =>
    cases isType
    have solid := (shaped.grammatical _ entered.visited).solid (by simp [Kind.isSolid, isKind])
    obtain ⟨before, after, stack, standing⟩ := entered.standing shaped solid
    have types := standing.typesAround_eq shaped entered solid (.inl isKind)
    have namespaces := standing.innermost?_eq shaped entered solid isKind
    rw [own] at types
    have scope_types : (script.scopeAt found.span.start).types =
        found.name :: (stack.filterMap Fact.type?).reverse.map (·.name) := by
      show (Scope.typesAround script.outline found.span.start).map (·.name) = _
      rw [outline_eq, span_eq, types]
      rfl
    have home : (stack.filterMap Fact.scope?).getLast?.map (·.name) = found.home := by
      rw [home_eq]
      exact standing.home
    refine ⟨?_, fun name isHome => ?_, ?_, ⟨context.around, tree⟩, entered.visited, isKind,
      span_eq.symm, simple, named, ?_⟩
    · rw [← home]
      unfold Script.scopeAt Scope.ofOffset
      dsimp only
      rw [outline_eq, span_eq, namespaces]
      cases (stack.filterMap Fact.scope?).getLast? <;> rfl
    · rw [isHome] at home
      obtain ⟨scope, last, rfl⟩ := Option.map_eq_some_iff.mp home
      obtain ⟨fact, inStack, isScope⟩ := List.mem_filterMap.mp (List.mem_of_getLast? last)
      refine ⟨scope, ?_, rfl⟩
      rw [outline_eq, namespaces_ofTree]
      exact List.mem_filterMap.mpr ⟨fact, standing.mem_all solid inStack, isScope⟩
    · rw [scope_types]
      rfl
    · rw [name_eq, home_eq, scope_types, List.getElem?_cons_succ, ← List.head?_eq_getElem?,
        standing.head?_types]
  | _ => cases isType

/-- The innermost namespace around a type, if it has a name. -/
theorem head?_namespaces (home : Option String) :
    ((home.map Name.withParents).getD []).head? = home.filter (· ≠ "") := by
  cases home with
  | none => rfl
  | some name =>
    by_cases unnamed : name = ""
    · subst unnamed
      simp [Name.withParents_empty, Option.filter_some]
    · simp [Name.head?_withParents unnamed, Option.filter_some, unnamed]

/-- In the script of a text the innermost namespace around a type is always its own. -/
theorem home_read {text : String} (lines : (readTree text).LinesOutside)
    (outline_eq : script.outline = read text) {found : TypeDecl}
    (member : found ∈ script.outline.types) :
    (script.scopeAt found.span.start).namespaces.head? = found.home := by
  obtain ⟨namespaces, isScope, -⟩ := typeDecl_eq (readTree_shaped lines) outline_eq member
  rw [namespaces, head?_namespaces]
  cases home : found.home with
  | none => rfl
  | some name =>
    obtain ⟨scope, isMember, rfl⟩ := isScope name home
    rw [outline_eq] at isMember
    simp [Option.filter_some, namespaces_read_named text scope isMember]

end Script

end Outline

end ScriptLint
