/-
**The spans of tokens and trees lie on characters.**

A token takes whole characters, tokens come in the order of the text, and a node spans from the first
token read for it to the last. So every span that the reader makes begins and ends between characters,
and no span stops before it starts.

* `Span.LiesOn` — both ends of a span are places of a text, in order.
* `Laid`, `tokensFrom_laid` — the tokens of a text lie on it, one after the other.
* `Peg.Reading`, `Peg.Reads.reading` — what a grammar reads lies between the tokens before and after it.
* `Tree.LiesOn`, `readTree_liesOn` — all nodes of the tree of a text lie on it.
-/

import ScriptLint.Proofs.Source.Reads
import ScriptLint.Proofs.Text.Parts
import ScriptLint.Source.Grammar

namespace ScriptLint

/-- The span begins and ends between characters of the text. -/
structure Span.LiesOn (text : List Char) (span : Span) : Prop where
  start : Text.IsPlace text span.start
  stop : Text.IsPlace text span.stop
  ordered : span.start ≤ span.stop

instance (text : List Char) (span : Span) : Decidable (span.LiesOn text) :=
  decidable_of_iff (Text.IsPlace text span.start ∧ Text.IsPlace text span.stop ∧
      span.start ≤ span.stop)
    ⟨fun ⟨start, stop, ordered⟩ => ⟨start, stop, ordered⟩,
      fun ⟨start, stop, ordered⟩ => ⟨start, stop, ordered⟩⟩

namespace Source

/-! ### Tokens -/

/-- The tokens lie on the text one after the other, from an offset on. -/
def Laid (text : List Char) : Nat → List Token → Prop
  | _, [] => True
  | low, token :: more =>
    low ≤ token.span.start ∧ token.span.LiesOn text ∧ Laid text token.span.stop more

theorem Laid.mono {text : List Char} {low high : Nat} (le : low ≤ high) {tokens : List Token}
    (laid : Laid text high tokens) : Laid text low tokens := by
  cases tokens with
  | nil => trivial
  | cons token more => exact ⟨Nat.le_trans le laid.1, laid.2⟩

/-- What is behind a lexeme of so many further characters. -/
theorem taken_eq {text before rest : List Char} {c : Char} {offset : Nat}
    (text_eq : text = before ++ c :: rest) (offset_eq : offset = Text.size before) (extra : Nat) :
    text = (before ++ c :: rest.take extra) ++ rest.drop extra ∧
      offset + Text.size (c :: rest.take extra) = Text.size (before ++ c :: rest.take extra) := by
  constructor
  · rw [text_eq, List.append_assoc, List.cons_append, List.take_append_drop]
  · rw [offset_eq, Text.size_append]

/-- **Tokens take whole characters**, in the order of the text. -/
theorem tokensFrom_laid {text before s : List Char} {offset : Nat} {frames : List Frame}
    {isGlued : Bool} (text_eq : text = before ++ s) (offset_eq : offset = Text.size before) :
    Laid text offset (tokensFrom frames isGlued offset s) := by
  fun_induction tokensFrom frames isGlued offset s generalizing before with
  | case1 => trivial
  | case2 frames isGlued offset c rest found taken stop more kind isKind =>
    rename_i ih
    obtain ⟨split, stop_eq⟩ := taken_eq text_eq offset_eq found.extra
    exact ⟨Nat.le_refl _, ⟨⟨before, _, text_eq, offset_eq.symm⟩, ⟨_, _, split, stop_eq.symm⟩,
      Nat.le_add_right _ _⟩, ih split stop_eq⟩
  | case3 frames isGlued offset c rest found taken stop more noKind =>
    rename_i ih
    obtain ⟨split, stop_eq⟩ := taken_eq text_eq offset_eq found.extra
    exact (ih split stop_eq).mono (Nat.le_add_right _ _)

/-! ### Trees -/

namespace Tree

mutual

/-- The spans of all nodes of the tree lie on the text. -/
def LiesOn (text : List Char) : Tree → Prop
  | node _ span children => span.LiesOn text ∧ AllLieOn text children

/-- The spans of all nodes of the trees lie on the text. -/
def AllLieOn (text : List Char) : List Tree → Prop
  | [] => True
  | tree :: more => tree.LiesOn text ∧ AllLieOn text more

end

theorem allLieOn_iff {text : List Char} {trees : List Tree} :
    AllLieOn text trees ↔ ∀ tree ∈ trees, tree.LiesOn text := by
  induction trees with
  | nil => simp [AllLieOn]
  | cons tree more ih => simp [AllLieOn, ih]

theorem LiesOn.span {text : List Char} {tree : Tree} (liesOn : tree.LiesOn text) :
    tree.span.LiesOn text := by
  cases tree
  exact liesOn.1

theorem LiesOn.children {text : List Char} {tree : Tree} (liesOn : tree.LiesOn text) :
    AllLieOn text tree.children := by
  cases tree
  exact liesOn.2

/-- The tree lies on the text between two offsets. -/
structure Between (text : List Char) (low high : Nat) (tree : Tree) : Prop where
  liesOn : tree.LiesOn text
  low_le : low ≤ tree.span.start
  le_high : tree.span.stop ≤ high

theorem Between.widen {text : List Char} {low high low' high' : Nat} {tree : Tree}
    (between : Between text low high tree) (lower : low' ≤ low) (higher : high ≤ high') :
    Between text low' high' tree :=
  ⟨between.liesOn, Nat.le_trans lower between.low_le, Nat.le_trans between.le_high higher⟩

end Tree

/-! ### What a grammar reads -/

namespace Peg

variable {ρ : Type} {text : List Char} {input middle last : Input} {trees more : List Tree}

/-- The tokens that are left lie on the text, behind the last one before them. -/
structure Input.LiesOn (text : List Char) (input : Input) : Prop where
  count : input.left = input.tokens.length
  stop : Text.IsPlace text input.stop
  laid : Laid text input.stop input.tokens

theorem Input.LiesOn.stop_le_start (liesOn : input.LiesOn text) : input.stop ≤ input.start := by
  have laid := liesOn.laid
  unfold Input.start
  cases tokens : input.tokens with
  | nil => exact Nat.le_refl _
  | cons token more =>
    rw [tokens] at laid
    exact laid.1

theorem Input.LiesOn.start (liesOn : input.LiesOn text) : Text.IsPlace text input.start := by
  have laid := liesOn.laid
  unfold Input.start
  cases tokens : input.tokens with
  | nil => exact liesOn.stop
  | cons token more =>
    rw [tokens] at laid
    exact laid.2.1.start

/-- What a grammar reads: tokens are taken from the front or none is, and the trees lie between the
tokens before and after. -/
structure Reading (text : List Char) (input : Input) (trees : List Tree) (last : Input) : Prop where
  liesOn : last.LiesOn text
  left_le : last.left ≤ input.left
  same : last.left = input.left → last = input
  passes : last.left < input.left → input.start ≤ last.stop
  trees : ∀ tree ∈ trees, tree.Between text input.stop last.stop

theorem Reading.nothing (liesOn : input.LiesOn text) : Reading text input [] input :=
  ⟨liesOn, Nat.le_refl _, fun _ => rfl, fun lt => absurd lt (Nat.lt_irrefl _), by simp⟩

theorem Reading.stop_le (reading : Reading text input trees last) (liesOn : input.LiesOn text) :
    input.stop ≤ last.stop := by
  rcases Nat.lt_or_eq_of_le reading.left_le with less | same
  · exact Nat.le_trans liesOn.stop_le_start (reading.passes less)
  · exact Nat.le_of_eq (by rw [reading.same same])

theorem Reading.token {next : Token} {rest : List Token} (liesOn : input.LiesOn text)
    (tokens : input.tokens = next :: rest) :
    Reading text input [] ⟨rest, input.left - 1, next.span.stop⟩ := by
  obtain ⟨count, stop, laid⟩ := liesOn
  rw [tokens] at count laid
  rw [List.length_cons] at count
  refine ⟨⟨?_, laid.2.1.stop, laid.2.2⟩, Nat.sub_le _ _, fun same => ?_, fun _ => ?_, by simp⟩
  · show input.left - 1 = rest.length
    omega
  · have : input.left - 1 = input.left := same
    omega
  · unfold Input.start
    rw [tokens]
    exact laid.2.1.ordered

theorem Reading.append (first : Reading text input trees middle)
    (second : Reading text middle more last) (liesOn : input.LiesOn text) :
    Reading text input (trees ++ more) last := by
  refine ⟨second.liesOn, Nat.le_trans second.left_le first.left_le, fun same => ?_, fun less => ?_,
    fun tree member => ?_⟩
  · have le := first.left_le
    have le' := second.left_le
    rw [second.same (by omega), first.same (by omega)]
  · rcases Nat.lt_or_eq_of_le first.left_le with progress | none
    · exact Nat.le_trans (first.passes progress) (second.stop_le first.liesOn)
    · obtain rfl := first.same none
      exact second.passes less
  · rcases List.mem_append.mp member with member | member
    · exact (first.trees tree member).widen (Nat.le_refl _) (second.stop_le first.liesOn)
    · exact (second.trees tree member).widen (first.stop_le liesOn) (Nat.le_refl _)

theorem Reading.enclose (reading : Reading text input trees last) (liesOn : input.LiesOn text)
    (kind : Kind) : Reading text input [enclose kind input last trees] last := by
  refine ⟨reading.liesOn, reading.left_le, reading.same, reading.passes, fun tree member => ?_⟩
  have inner : Tree.AllLieOn text trees :=
    Tree.allLieOn_iff.mpr fun tree member => (reading.trees tree member).liesOn
  obtain rfl := List.mem_singleton.mp member
  unfold Peg.enclose
  split
  next progress =>
    -- The first token read belongs to the node, and the last one does.
    exact ⟨⟨⟨liesOn.start, reading.liesOn.stop, reading.passes progress⟩, inner⟩,
      liesOn.stop_le_start, Nat.le_refl _⟩
  next =>
    exact ⟨⟨⟨liesOn.stop, liesOn.stop, Nat.le_refl _⟩, inner⟩, Nat.le_refl _,
      reading.stop_le liesOn⟩

/-- Continuations that lie behind a tree enclose it. -/
theorem foldl_attach_between {low bound high : Nat} {left : Tree}
    (between : left.Between text low high) (before : left.span.start ≤ bound)
    (behind : ∀ tree ∈ more, tree.Between text bound high) :
    (more.foldl attach left).Between text low high := by
  induction more generalizing left with
  | nil => exact between
  | cons continuation more ih =>
    have next := behind continuation List.mem_cons_self
    have ordered := next.liesOn.span.ordered
    have low_le := next.low_le
    refine ih ⟨⟨⟨between.liesOn.span.start, next.liesOn.span.stop, ?_⟩, between.liesOn,
      next.liesOn.children⟩, between.low_le, next.le_high⟩ before
      fun tree member => behind tree (List.mem_cons_of_mem _ member)
    show left.span.start ≤ continuation.span.stop
    omega

theorem Reading.grow {left : Tree} (first : Reading text input [left] middle)
    (second : Reading text middle more last) (liesOn : input.LiesOn text) :
    Reading text input [more.foldl attach left] last := by
  have both := first.append second liesOn
  refine ⟨both.liesOn, both.left_le, both.same, both.passes, fun tree member => ?_⟩
  obtain rfl := List.mem_singleton.mp member
  have between := first.trees left List.mem_cons_self
  have ordered := between.liesOn.span.ordered
  have le_high := between.le_high
  exact foldl_attach_between (between.widen (Nat.le_refl _) (second.stop_le first.liesOn))
    (Nat.le_trans ordered le_high) second.trees

/-- **What a grammar reads lies on the text.** -/
theorem Reads.reading {grammar : ρ → Peg ρ} {peg : Peg ρ} (read : Reads grammar peg input trees last)
    (liesOn : input.LiesOn text) : Reading text input trees last := by
  induction read with
  | nothing => exact .nothing liesOn
  | token tokens => exact .token liesOn tokens
  | seq _ _ ihLeft ihRight | again _ _ ihLeft ihRight =>
    have reading := ihLeft liesOn
    exact reading.append (ihRight reading.liesOn) liesOn
  | first _ ih | second _ ih | rule _ ih | lone _ ih => exact ih liesOn
  | @node kind _ _ _ _ _ ih => exact (ih liesOn).enclose liesOn kind
  | grow _ _ ihStart ihRest =>
    have reading := ihStart liesOn
    exact reading.grow (ihRest reading.liesOn) liesOn

end Peg

/-- **The tree of a text lies on the text.** -/
theorem readTree_liesOn (text : String) : (readTree text).LiesOn text.toList := by
  have whole : Text.IsPlace text.toList 0 := ⟨[], text.toList, rfl, rfl⟩
  unfold readTree
  dsimp only
  split
  next tree last read =>
    have liesOn : (Peg.Input.ofTokens (tokens text)).LiesOn text.toList :=
      ⟨rfl, whole, tokensFrom_laid (List.nil_append _).symm rfl⟩
    exact (((Peg.run_reads read).reading liesOn).trees tree List.mem_cons_self).liesOn
  next => exact ⟨⟨whole, whole, Nat.le_refl _⟩, trivial⟩

end Source

end ScriptLint
