/-
**What a reading starts with.**

A grammar is described by a table: which rules take a token for sure, and which declarations the trees
of a rule may start with. The table of the grammar of scripts is checked rule by rule; from it follows
how the nodes of every tree that is read lie to each other.

* `Tree.Whole` — no node is empty, and all lie to each other as they should.
* `Peg.eats`, `Peg.leads`, `Peg.isPrompt` — what the table says of an expression; `Peg.isChecked` — no
  node starts with a declaration that must start later.
* `Peg.Table.Describes` — the table is right about the rules.
* `Peg.Told`, `Peg.Reads.told` — what is read by a described grammar has the shape that the table tells.
* `readTree_nested` — the tree of every text is nested and grammatical.
-/

import ScriptLint.Proofs.Source.Nesting
import ScriptLint.Proofs.Source.Reads
import ScriptLint.Proofs.Text.Parts
import ScriptLint.Source.Grammar

namespace ScriptLint.Source

/-- Types, namespaces and routines. -/
def Kind.isDeclaration (kind : Kind) : Bool :=
  kind.isType || kind.isNamespace || kind == routine

/-- A node of the second kind must start later than one of the first kind around it. -/
def Kind.startsLater (outer inner : Kind) : Bool :=
  outer.isApart inner || outer.isLed inner || (outer == routine && inner == routine)

theorem Kind.isDeclaration_of_startsLater {outer inner : Kind}
    (later : outer.startsLater inner = true) : inner.isDeclaration = true := by
  simp only [startsLater, isApart, isLed, isDeclaration, Bool.or_eq_true, Bool.and_eq_true] at later ⊢
  tauto

/-! ### Trees that are whole -/

/-- A node is not empty, its children lie in it in order, and declarations start as late as they
must. -/
structure Occurrence.Whole (found : Occurrence) : Prop where
  solid : found.node.span.start < found.node.span.stop
  inside : ∀ child ∈ found.node.children, found.node.span.covers child.span = true
  inOrder : found.node.children.Pairwise fun a b => a.span.stop ≤ b.span.start
  later : ∀ outer ∈ found.around, outer.kind.startsLater found.node.kind = true →
    outer.span.start < found.node.span.start

namespace Tree

/-- All nodes of the tree are whole. -/
def Whole (tree : Tree) : Prop :=
  ∀ found ∈ tree.visited [], found.Whole

variable {tree child : Tree}

theorem Whole.nested (whole : tree.Whole) : tree.Nested := fun found member =>
  have here := whole found member
  ⟨Nat.le_of_lt here.solid, here.inside, here.inOrder, fun outer around apart =>
    here.later outer around (by simp [Kind.startsLater, apart])⟩

theorem Whole.grammatical (whole : tree.Whole) : tree.Grammatical := fun found member =>
  have here := whole found member
  ⟨fun _ => here.solid, fun outer around led =>
    here.later outer around (by simp [Kind.startsLater, led]),
    fun isRoutine outer around isOuter same => by
      have later := here.later outer around (by simp [Kind.startsLater, isRoutine, isOuter])
      rw [same] at later
      exact Nat.lt_irrefl _ later⟩

theorem Whole.of_child (whole : tree.Whole) (notUsing : tree.kind ≠ .usingDirective)
    (below : child ∈ tree.children) : child.Whole := by
  intro found member
  have here := whole _ (mem_visited_below notUsing below member)
  exact ⟨here.solid, here.inside, here.inOrder,
    fun outer around => here.later outer (List.mem_append_left _ around)⟩

theorem Whole.solid (whole : tree.Whole) : tree.span.start < tree.span.stop :=
  (whole _ (mem_visited_self [] tree)).solid

theorem Whole.inside (whole : tree.Whole) (below : child ∈ tree.children) :
    tree.span.start ≤ child.span.start ∧ child.span.stop ≤ tree.span.stop := by
  have covers := (whole _ (mem_visited_self [] tree)).inside child below
  simpa [Span.covers] using covers

/-- Nodes start in the tree. -/
theorem Whole.start_le (whole : tree.Whole) {found : Occurrence} (member : found ∈ tree.visited []) :
    tree.span.start ≤ found.node.span.start := by
  induction tree using below_induction generalizing found with
  | step tree ih =>
    rcases mem_visited_iff.mp member with rfl | ⟨notUsing, child, below, inner, deeper, rfl⟩
    · exact Nat.le_refl _
    · have start := ih child below (whole.of_child notUsing below) deeper
      exact Nat.le_trans (whole.inside below).1 start

/-- A tree is whole if the trees right below it are, in order inside it, and none of their nodes that
must start later starts with it. -/
theorem whole_of_children (solid : tree.span.start < tree.span.stop)
    (inside : ∀ child ∈ tree.children,
      tree.span.start ≤ child.span.start ∧ child.span.stop ≤ tree.span.stop)
    (inOrder : tree.children.Pairwise fun a b => a.span.stop ≤ b.span.start)
    (children : tree.kind ≠ .usingDirective → ∀ child ∈ tree.children, child.Whole)
    (later : tree.kind ≠ .usingDirective → ∀ child ∈ tree.children, ∀ found ∈ child.visited [],
      tree.kind.startsLater found.node.kind = true → tree.span.start < found.node.span.start) :
    tree.Whole := by
  intro found member
  rcases mem_visited_iff.mp member with rfl | ⟨notUsing, child, below, inner, deeper, rfl⟩
  · exact ⟨solid, fun child below => by simpa [Span.covers] using inside child below, inOrder,
      nofun⟩
  · have here := children notUsing child below inner deeper
    refine ⟨here.solid, here.inside, here.inOrder, fun outer around must => ?_⟩
    rcases List.mem_append.mp around with around | around
    · exact here.later outer around must
    · cases List.mem_singleton.mp around
      exact later notUsing child below inner deeper must

end Tree

/-! ### Tokens one after the other -/

/-- The tokens are not empty and lie one after the other, from an offset on. -/
def Strung : Nat → List Token → Prop
  | _, [] => True
  | low, token :: more =>
    low ≤ token.span.start ∧ token.span.start < token.span.stop ∧ Strung token.span.stop more

theorem Strung.mono {low high : Nat} (le : low ≤ high) {tokens : List Token}
    (strung : Strung high tokens) : Strung low tokens := by
  cases tokens with
  | nil => trivial
  | cons token more => exact ⟨Nat.le_trans le strung.1, strung.2⟩

theorem tokensFrom_strung (frames : List Frame) (isGlued : Bool) (offset : Nat) (s : List Char) :
    Strung offset (tokensFrom frames isGlued offset s) := by
  fun_induction tokensFrom frames isGlued offset s with
  | case1 => trivial
  | case2 frames isGlued offset c rest found taken stop more kind isKind ih =>
    have positive : 0 < Text.size taken := Text.size_pos (List.cons_ne_nil _ _)
    exact ⟨Nat.le_refl _, show offset < offset + Text.size taken by omega, ih⟩
  | case3 frames isGlued offset c rest found taken stop more noKind ih =>
    exact ih.mono (Nat.le_add_right _ _)

namespace Peg

/-- The tokens that are left are strung behind the last one before them. -/
structure Input.Strung (input : Input) : Prop where
  count : input.left = input.tokens.length
  strung : Source.Strung input.stop input.tokens

theorem Input.Strung.stop_le {input : Input} (strung : input.Strung) : input.stop ≤ input.start := by
  have laid := strung.strung
  unfold Input.start
  cases tokens : input.tokens with
  | nil => exact Nat.le_refl _
  | cons token more =>
    rw [tokens] at laid
    exact laid.1

/-! ### Tables -/

variable {ρ : Type}

/-- What is said of the rules of a grammar. -/
structure Table (ρ : Type) where
  /-- Nothing is said of the other rules. -/
  covers : ρ → Bool
  /-- The rule takes at least one token. -/
  eats : ρ → Bool
  /-- The declarations that may start with the first token of the rule. -/
  leads : ρ → List Kind
  /-- The trees of the rule start with its first token. -/
  isPrompt : ρ → Bool

variable (table : Table ρ)

/-- The expression takes at least one token. -/
def eats : Peg ρ → Bool
  | empty | many _ | ahead _ | notAhead _ => false
  | token _ => true
  | seq first second => first.eats || second.eats
  | alt first second => first.eats && second.eats
  | rule name => table.eats name
  | node _ body => body.eats
  | grow first _ => first.eats

/-- The declarations that may start with the first token of the expression. -/
def leads : Peg ρ → List Kind
  | empty | token _ | ahead _ | notAhead _ => []
  | seq first second => first.leads ++ if first.eats table then [] else second.leads
  | alt first second => first.leads ++ second.leads
  | many item => item.leads
  | rule name => table.leads name
  | node kind body => (if kind.isDeclaration then [kind] else []) ++ body.leads
  | grow first _ => first.leads

/-- The trees of the expression start with its first token. -/
def isPrompt : Peg ρ → Bool
  | empty | token _ | ahead _ | notAhead _ | node _ _ => true
  | seq _ _ | many _ => false
  | alt first second => first.isPrompt && second.isPrompt
  | rule name => table.isPrompt name
  | grow first _ => first.isPrompt

/-- No tree of the expression is a declaration, as its form shows. -/
def isPlain : Peg ρ → Bool
  | empty | token _ | ahead _ | notAhead _ => true
  | seq first second | alt first second => first.isPlain && second.isPlain
  | many item => item.isPlain
  | rule _ | grow _ _ => false
  | node kind _ => !kind.isDeclaration

theorem Reads.plain {grammar : ρ → Peg ρ} {peg : Peg ρ} {input last : Input} {trees : List Tree}
    (read : Reads grammar peg input trees last) (plain : peg.isPlain = true) :
    ∀ tree ∈ trees, tree.kind.isDeclaration = false := by
  induction read with
  | nothing | token => simp
  | seq _ _ left right =>
    obtain ⟨first, second⟩ := (Bool.and_eq_true _ _).mp plain
    exact List.forall_mem_append.mpr ⟨left first, right second⟩
  | first _ ih => exact ih ((Bool.and_eq_true _ _).mp plain).1
  | second _ ih => exact ih ((Bool.and_eq_true _ _).mp plain).2
  | again _ _ left right => exact List.forall_mem_append.mpr ⟨left plain, right plain⟩
  | node => exact List.forall_mem_singleton.mpr (by simpa [isPlain] using plain)
  | rule | grow | lone => cases plain

/-- Every node takes a token, and starts with no declaration that must start later; nothing grows from
a declaration. -/
def isChecked : Peg ρ → Bool
  | empty | token _ | ahead _ | notAhead _ => true
  | seq first second | alt first second => first.isChecked && second.isChecked
  | many item => item.isChecked
  | rule name => table.covers name
  | node kind body => body.isChecked && body.eats table &&
      (body.leads table).all fun inner => !kind.startsLater inner
  | grow first continuation => first.isChecked && continuation.isChecked && first.isPrompt table &&
      (first.leads table).isEmpty && continuation.isPlain

/-- The table is right about the rules of a grammar. -/
structure Table.Describes (grammar : ρ → Peg ρ) : Prop where
  isChecked : ∀ name, table.covers name = true → (grammar name).isChecked table = true
  eats : ∀ name, table.covers name = true → table.eats name = true →
    (grammar name).eats table = true
  leads : ∀ name, table.covers name = true → (grammar name).leads table ⊆ table.leads name
  isPrompt : ∀ name, table.covers name = true → table.isPrompt name = true →
    (grammar name).isPrompt table = true

/-! ### What is read -/

/-- The shape of what is read: the trees lie in order between the tokens before and after, are whole,
and only the given declarations start with the first token. -/
structure Shapely (input : Input) (trees : List Tree) (last : Input) (leading : List Kind) : Prop where
  strung : last.Strung
  left_le : last.left ≤ input.left
  same : last.left = input.left → last = input ∧ trees = []
  passes : last.left < input.left → input.start < last.stop
  within : ∀ tree ∈ trees, input.start ≤ tree.span.start ∧ tree.span.stop ≤ last.stop
  inOrder : trees.Pairwise fun a b => a.span.stop ≤ b.span.start
  whole : ∀ tree ∈ trees, tree.Whole
  leads : ∀ tree ∈ trees, ∀ found ∈ tree.visited [], found.node.kind.isDeclaration = true →
    found.node.kind ∈ leading ∨ input.start < found.node.span.start

variable {input middle last : Input} {trees more : List Tree} {leading others : List Kind}

theorem Shapely.nothing (strung : input.Strung) : Shapely input [] input leading :=
  ⟨strung, Nat.le_refl _, fun _ => ⟨rfl, rfl⟩, fun lt => absurd lt (Nat.lt_irrefl _), by simp,
    List.Pairwise.nil, by simp, by simp⟩

theorem Shapely.mono (shapely : Shapely input trees last leading) (subset : leading ⊆ others) :
    Shapely input trees last others :=
  { shapely with
    leads := fun tree member found inside isDeclaration =>
      (shapely.leads tree member found inside isDeclaration).imp_left fun here => subset here }

theorem Shapely.stop_le (shapely : Shapely input trees last leading) (strung : input.Strung) :
    input.stop ≤ last.stop := by
  rcases Nat.lt_or_eq_of_le shapely.left_le with less | same
  · exact Nat.le_trans strung.stop_le (Nat.le_of_lt (shapely.passes less))
  · exact Nat.le_of_eq (by rw [(shapely.same same).1])

theorem Shapely.start_le (shapely : Shapely input trees last leading) :
    input.start ≤ last.start := by
  rcases Nat.lt_or_eq_of_le shapely.left_le with less | same
  · exact Nat.le_trans (Nat.le_of_lt (shapely.passes less)) shapely.strung.stop_le
  · exact Nat.le_of_eq (by rw [(shapely.same same).1])

theorem Shapely.token {next : Token} {rest : List Token} (strung : input.Strung)
    (tokens : input.tokens = next :: rest) :
    Shapely input [] ⟨rest, input.left - 1, next.span.stop⟩ leading := by
  obtain ⟨count, laid⟩ := strung
  rw [tokens] at count laid
  rw [List.length_cons] at count
  refine ⟨⟨?_, laid.2.2⟩, Nat.sub_le _ _, fun same => ?_, fun _ => ?_, by simp, List.Pairwise.nil,
    by simp, by simp⟩
  · show input.left - 1 = rest.length
    omega
  · have : input.left - 1 = input.left := same
    omega
  · unfold Input.start
    rw [tokens]
    exact laid.2.1

/-- One reading after another. What the second starts with counts only if the first takes nothing. -/
theorem Shapely.append (first : Shapely input trees middle leading)
    (second : Shapely middle more last others) (strung : input.Strung) {all : List Kind}
    (left : leading ⊆ all) (right : middle.left = input.left → others ⊆ all) :
    Shapely input (trees ++ more) last all := by
  have stop_le := second.stop_le first.strung
  have start_le := first.start_le
  have ahead := first.strung.stop_le
  refine ⟨second.strung, Nat.le_trans second.left_le first.left_le, fun same => ?_, fun less => ?_,
    fun tree member => ?_, ?_, fun tree member => ?_, fun tree member found inside isDeclaration => ?_⟩
  · have le := first.left_le
    have le' := second.left_le
    obtain ⟨rfl, rfl⟩ := first.same (by omega)
    exact second.same same
  · rcases Nat.lt_or_eq_of_le first.left_le with progress | none
    · exact Nat.lt_of_lt_of_le (first.passes progress) stop_le
    · obtain ⟨rfl, -⟩ := first.same none
      exact second.passes less
  · rcases List.mem_append.mp member with member | member
    · have within := first.within tree member
      exact ⟨within.1, Nat.le_trans within.2 stop_le⟩
    · have within := second.within tree member
      exact ⟨Nat.le_trans start_le within.1, within.2⟩
  · refine List.pairwise_append.mpr ⟨first.inOrder, second.inOrder, fun a left b right => ?_⟩
    have before := (first.within a left).2
    have behind := (second.within b right).1
    omega
  · exact (List.mem_append.mp member).elim (first.whole tree) (second.whole tree)
  · rcases List.mem_append.mp member with member | member
    · exact (first.leads tree member found inside isDeclaration).imp_left fun here => left here
    · rcases Nat.lt_or_eq_of_le first.left_le with progress | none
      · right
        have passes := first.passes progress
        have behind := (second.within tree member).1
        have start := (second.whole tree member).start_le inside
        omega
      · obtain ⟨rfl, -⟩ := first.same none
        exact (second.leads tree member found inside isDeclaration).imp_left fun here => right rfl here

/-- A node of what is read, if it starts with nothing that must start later. -/
theorem Shapely.enclose (shapely : Shapely input trees last leading) {kind : Kind}
    (progress : last.left < input.left)
    (apart : ∀ inner ∈ leading, kind.startsLater inner = false) :
    Shapely input [enclose kind input last trees] last
      ((if kind.isDeclaration then [kind] else []) ++ leading) := by
  have passes := shapely.passes progress
  have node : Peg.enclose kind input last trees = .node kind ⟨input.start, last.stop⟩ trees :=
    if_pos progress
  rw [node]
  have whole : (Tree.node kind ⟨input.start, last.stop⟩ trees).Whole := by
    refine Tree.whole_of_children passes shapely.within shapely.inOrder (fun _ => shapely.whole) ?_
    intro _ child below found inside later
    refine (shapely.leads child below found inside
      (Kind.isDeclaration_of_startsLater later)).resolve_left fun here => ?_
    exact absurd later (by rw [Tree.kind_node, apart _ here]; simp)
  refine ⟨shapely.strung, shapely.left_le, fun same => absurd same (Nat.ne_of_lt progress),
    fun _ => passes, fun tree member => ?_, List.pairwise_singleton _ _, fun tree member => ?_,
    fun tree member found inside isDeclaration => ?_⟩
  · cases List.mem_singleton.mp member
    exact ⟨Nat.le_refl _, Nat.le_refl _⟩
  · cases List.mem_singleton.mp member
    exact whole
  · cases List.mem_singleton.mp member
    rcases Tree.mem_visited_iff.mp inside with rfl | ⟨-, child, below, inner, deeper, rfl⟩
    · have : kind.isDeclaration = true := isDeclaration
      exact .inl (by simp [this])
    · exact (shapely.leads child below inner deeper isDeclaration).imp_left
        (List.mem_append_right _)

/-- A whole tree without a declaration at its start. -/
structure Bare (tree : Tree) : Prop where
  whole : tree.Whole
  later : ∀ found ∈ tree.visited [], found.node.kind.isDeclaration = true →
    tree.span.start < found.node.span.start

/-- A continuation behind a bare tree makes a bare tree of both. -/
theorem Bare.attach {left continuation : Tree} (bare : Bare left) (whole : continuation.Whole)
    (plain : continuation.kind.isDeclaration = false)
    (behind : left.span.stop ≤ continuation.span.start) : Bare (attach left continuation) := by
  have leftSolid := bare.whole.solid
  have solid := whole.solid
  have below : continuation.kind ≠ .usingDirective → ∀ child ∈ continuation.children,
      ∀ found ∈ child.visited [], left.span.start < found.node.span.start := by
    intro notUsing child member found inside
    have inner := whole.inside member
    have start := (whole.of_child notUsing member).start_le inside
    omega
  constructor
  · refine Tree.whole_of_children ?_ ?_ ?_ ?_ ?_
    · show left.span.start < continuation.span.stop
      omega
    · intro child member
      show left.span.start ≤ child.span.start ∧ child.span.stop ≤ continuation.span.stop
      rcases List.mem_cons.mp member with rfl | member
      · omega
      · have inner := whole.inside member
        omega
    · refine List.pairwise_cons.mpr ⟨fun child member => ?_,
        (whole _ (Tree.mem_visited_self [] continuation)).inOrder⟩
      have inner := whole.inside member
      omega
    · intro notUsing child member
      rcases List.mem_cons.mp member with rfl | member
      · exact bare.whole
      · exact whole.of_child notUsing member
    · intro notUsing child member found inside later
      rcases List.mem_cons.mp member with rfl | member
      · exact bare.later found inside (Kind.isDeclaration_of_startsLater later)
      · exact below notUsing child member found inside
  · intro found inside isDeclaration
    rcases Tree.mem_visited_iff.mp inside with rfl | ⟨notUsing, child, member, inner, deeper, rfl⟩
    · exact absurd isDeclaration (by rw [show (Peg.attach left continuation).kind =
        continuation.kind from rfl, plain]; simp)
    · rcases List.mem_cons.mp member with rfl | member
      · exact bare.later inner deeper isDeclaration
      · exact below notUsing child member inner deeper

theorem Bare.foldl_attach {left : Tree} {high : Nat} (bare : Bare left)
    (inOrder : (left :: more).Pairwise fun a b => a.span.stop ≤ b.span.start)
    (whole : ∀ tree ∈ more, tree.Whole) (plain : ∀ tree ∈ more, tree.kind.isDeclaration = false)
    (within : ∀ tree ∈ left :: more, tree.span.stop ≤ high) :
    Bare (more.foldl Peg.attach left) ∧ (more.foldl Peg.attach left).span.start = left.span.start ∧
      (more.foldl Peg.attach left).span.stop ≤ high := by
  induction more generalizing left with
  | nil => exact ⟨bare, rfl, within left List.mem_cons_self⟩
  | cons continuation more ih =>
    rw [List.pairwise_cons, List.pairwise_cons] at inOrder
    obtain ⟨beforeAll, behind, rest⟩ := inOrder
    exact ih (bare.attach (whole _ List.mem_cons_self) (plain _ List.mem_cons_self)
        (beforeAll _ List.mem_cons_self))
      (List.pairwise_cons.mpr ⟨behind, rest⟩)
      (fun tree member => whole tree (List.mem_cons_of_mem _ member))
      (fun tree member => plain tree (List.mem_cons_of_mem _ member))
      (List.forall_mem_cons.mpr ⟨within continuation (by simp),
        fun tree member => within tree (by simp [member])⟩)

/-- What the table says of an expression holds of what is read by it. -/
structure Told (table : Table ρ) (peg : Peg ρ) (input : Input) (trees : List Tree) (last : Input) :
    Prop where
  shapely : Shapely input trees last (peg.leads table)
  eats : peg.eats table = true → last.left < input.left
  prompt : peg.isPrompt table = true → ∀ tree ∈ trees, tree.span.start = input.start

theorem Told.nothing {peg : Peg ρ} (strung : input.Strung) (idle : peg.isIdle = true) :
    Told table peg input [] input := by
  refine ⟨.nothing strung, fun eats => ?_, by simp⟩
  cases peg <;> cases idle <;> cases eats

theorem Told.token {accepts : Token → Bool} {next : Token} {rest : List Token}
    (strung : input.Strung) (tokens : input.tokens = next :: rest) :
    Told table (token accepts) input [] ⟨rest, input.left - 1, next.span.stop⟩ := by
  refine ⟨.token strung tokens, fun _ => ?_, by simp⟩
  have count := strung.count
  rw [tokens, List.length_cons] at count
  show input.left - 1 < input.left
  omega

theorem Told.seq {first second : Peg ρ} (left : Told table first input trees middle)
    (right : Told table second middle more last) (strung : input.Strung) :
    Told table (seq first second) input (trees ++ more) last := by
  refine ⟨left.shapely.append right.shapely strung (List.subset_append_left _ _) fun same => ?_,
    fun eats => ?_, nofun⟩
  · have none : ¬first.eats table = true := fun eats =>
      absurd same (Nat.ne_of_lt (left.eats eats))
    rw [leads, if_neg none]
    exact List.subset_append_right _ _
  · rcases (Bool.or_eq_true _ _).mp eats with eats | eats
    · exact Nat.lt_of_le_of_lt right.shapely.left_le (left.eats eats)
    · exact Nat.lt_of_lt_of_le (right.eats eats) left.shapely.left_le

theorem Told.first {first second : Peg ρ} (told : Told table first input trees last) :
    Told table (alt first second) input trees last where
  shapely := told.shapely.mono (List.subset_append_left _ _)
  eats both := told.eats ((Bool.and_eq_true _ _).mp both).1
  prompt both := told.prompt ((Bool.and_eq_true _ _).mp both).1

theorem Told.second {first second : Peg ρ} (told : Told table second input trees last) :
    Told table (alt first second) input trees last where
  shapely := told.shapely.mono (List.subset_append_right _ _)
  eats both := told.eats ((Bool.and_eq_true _ _).mp both).2
  prompt both := told.prompt ((Bool.and_eq_true _ _).mp both).2

theorem Told.again {item : Peg ρ} (left : Told table item input trees middle)
    (right : Told table (many item) middle more last) (strung : input.Strung) :
    Told table (many item) input (trees ++ more) last where
  shapely := left.shapely.append right.shapely strung (List.Subset.refl _) fun _ => List.Subset.refl _
  eats := nofun
  prompt := nofun

theorem Told.node {kind : Kind} {body : Peg ρ} (told : Told table body input trees last)
    (eats : body.eats table = true)
    (apart : ∀ inner ∈ body.leads table, kind.startsLater inner = false) :
    Told table (node kind body) input [enclose kind input last trees] last := by
  have progress := told.eats eats
  have node : enclose kind input last trees = .node kind ⟨input.start, last.stop⟩ trees :=
    if_pos progress
  refine ⟨told.shapely.enclose progress apart, fun _ => progress, fun _ => ?_⟩
  rw [node, List.forall_mem_singleton]
  rfl

theorem Told.grow {first continuation : Peg ρ} {left : Tree}
    (told : Told table first input [left] middle)
    (rest : Told table (many continuation) middle more last) (strung : input.Strung)
    (prompt : first.isPrompt table = true) (leads : first.leads table = [])
    (plain : ∀ tree ∈ more, tree.kind.isDeclaration = false) :
    Told table (grow first continuation) input [more.foldl attach left] last := by
  have both : Shapely input (left :: more) last _ :=
    told.shapely.append rest.shapely strung (List.subset_append_left _ _)
      fun _ => List.subset_append_right _ _
  have start := told.prompt prompt left List.mem_cons_self
  -- The first tree starts where the reading does, and no declaration does.
  have bare : Bare left := by
    refine ⟨told.shapely.whole left List.mem_cons_self, fun found inside isDeclaration => ?_⟩
    have later := told.shapely.leads left List.mem_cons_self found inside isDeclaration
    rw [leads] at later
    rw [start]
    exact later.resolve_left (by simp)
  obtain ⟨grown, grown_start, grown_stop⟩ := bare.foldl_attach both.inOrder rest.shapely.whole
    plain fun tree member => (both.within tree member).2
  have shapely : Shapely input [more.foldl attach left] last (first.leads table) := by
    refine ⟨both.strung, both.left_le, fun same => ?_, both.passes, ?_,
      List.pairwise_singleton _ _, List.forall_mem_singleton.mpr grown.whole, ?_⟩
    · cases (both.same same).2
    · exact List.forall_mem_singleton.mpr ⟨Nat.le_of_eq (by rw [grown_start, start]), grown_stop⟩
    · refine List.forall_mem_singleton.mpr fun found inside isDeclaration => .inr ?_
      have later := grown.later found inside isDeclaration
      rwa [grown_start, start] at later
  refine ⟨shapely, fun eats => ?_, fun _ => ?_⟩
  · exact Nat.lt_of_le_of_lt rest.shapely.left_le (told.eats eats)
  · exact List.forall_mem_singleton.mpr (by rw [grown_start, start])

theorem Told.lone {first continuation : Peg ρ} (told : Told table first input trees last) :
    Told table (Peg.grow first continuation) input trees last where
  shapely := told.shapely
  eats := told.eats
  prompt := told.prompt

theorem Told.rule {grammar : ρ → Peg ρ} (describes : table.Describes grammar) {name : ρ}
    (covered : table.covers name = true) (told : Told table (grammar name) input trees last) :
    Told table (Peg.rule name) input trees last where
  shapely := told.shapely.mono (describes.leads name covered)
  eats eats := told.eats (describes.eats name covered eats)
  prompt prompt := told.prompt (describes.isPrompt name covered prompt)

/-- **What is read by a described grammar** has the shape that the table tells. -/
theorem Reads.told {grammar : ρ → Peg ρ} (describes : table.Describes grammar) {peg : Peg ρ}
    (read : Reads grammar peg input trees last) (strung : input.Strung)
    (checked : peg.isChecked table = true) : Told table peg input trees last := by
  induction read with
  | nothing idle => exact .nothing table strung idle
  | token tokens => exact .token table strung tokens
  | seq left right ihLeft ihRight =>
    obtain ⟨checkedLeft, checkedRight⟩ := (Bool.and_eq_true _ _).mp checked
    have told := ihLeft strung checkedLeft
    exact told.seq table (ihRight told.shapely.strung checkedRight) strung
  | first read ih => exact (ih strung ((Bool.and_eq_true _ _).mp checked).1).first
  | second read ih => exact (ih strung ((Bool.and_eq_true _ _).mp checked).2).second
  | again left right ihLeft ihRight =>
    have told := ihLeft strung checked
    exact told.again table (ihRight told.shapely.strung checked) strung
  | rule read ih => exact .rule table describes checked (ih strung (describes.isChecked _ checked))
  | node read ih =>
    simp only [isChecked, Bool.and_eq_true, List.all_eq_true, Bool.not_eq_true'] at checked
    obtain ⟨⟨checked, eats⟩, apart⟩ := checked
    exact (ih strung checked).node table eats apart
  | grow start rest ihStart ihRest =>
    simp only [isChecked, Bool.and_eq_true, List.isEmpty_iff] at checked
    obtain ⟨⟨⟨⟨checkedFirst, checkedMore⟩, prompt⟩, leads⟩, plain⟩ := checked
    have told := ihStart strung checkedFirst
    exact told.grow table (ihRest told.shapely.strung checkedMore) strung prompt leads
      (rest.plain plain)
  | lone read ih =>
    simp only [isChecked, Bool.and_eq_true] at checked
    exact (ih strung checked.1.1.1.1).lone

end Peg

/-! ### The grammar of scripts -/

namespace Grammar

/-- The declarations that a member of a type or a namespace may be. -/
def memberKinds : List Kind :=
  [.namespaceBlock, .typeDeclaration, .interfaceDeclaration, .routine]

/-- What the rules of scripts start with. Only attributes may be missing, and only statements and
members start with declarations. -/
def table : Peg.Table Rule where
  covers rule := rule != .script
  eats rule := rule != .script && rule != .attributes
  leads
    | .statement => [.routine]
    | .member => memberKinds
    | .item | .regionItem => .namespaceLine :: memberKinds
    | _ => []
  isPrompt rule := rule == .primary || rule == .access || rule == .operand

theorem table_describes : table.Describes grammar where
  isChecked rule := by cases rule <;> decide
  eats rule := by cases rule <;> decide
  leads rule := by cases rule <;> decide
  isPrompt rule := by cases rule <;> decide
end Grammar

theorem tokens_strung (text : String) : (Peg.Input.ofTokens (tokens text)).Strung :=
  ⟨rfl, tokensFrom_strung [] false 0 text.toList⟩

/-- A script is read as items one after the other. -/
theorem reads_script {input last : Peg.Input} {trees : List Tree}
    (read : Peg.Reads grammar (.rule .script) input trees last) (strung : input.Strung) :
    ∃ inner, trees = [Peg.enclose .script input last inner] ∧
      Peg.Told Grammar.table (.many (.oneOf [.rule .item, .node .error (.token fun _ => true)]))
        input inner last := by
  obtain ⟨inner, readBody, trees_eq⟩ := read.of_rule.of_node
  exact ⟨inner, trees_eq, readBody.told Grammar.table Grammar.table_describes strung (by decide)⟩

/-- The tree of a text is whole, or nothing was read. -/
theorem readTree_whole (text : String) :
    (readTree text).Whole ∨ ∃ stop, readTree text = .node .script ⟨stop, stop⟩ [] := by
  unfold readTree
  dsimp only
  split
  next tree last read =>
    obtain ⟨inner, same, told⟩ := reads_script (Peg.run_reads read) (tokens_strung text)
    cases same
    rcases Nat.lt_or_eq_of_le told.shapely.left_le with progress | none
    · have free : ∀ inner, Kind.script.startsLater inner = false := fun _ => rfl
      exact .inl ((told.shapely.enclose progress fun inner _ => free inner).whole _ List.mem_cons_self)
    · rw [(told.shapely.same none).2, Peg.enclose, if_neg (Nat.not_lt_of_le (Nat.le_of_eq none.symm))]
      exact .inr ⟨_, rfl⟩
  next => exact .inr ⟨0, rfl⟩

/-- **The tree of every text** is nested and has the shape that the grammar gives. -/
theorem readTree_nested (text : String) : (readTree text).Nested ∧ (readTree text).Grammatical := by
  rcases readTree_whole text with whole | ⟨stop, empty⟩
  · exact ⟨whole.nested, whole.grammatical⟩
  · have only : ∀ found ∈ (readTree text).visited [], found = ⟨[], .node .script ⟨stop, stop⟩ []⟩ := by
      intro found member
      rw [empty] at member
      rcases Tree.mem_visited_iff.mp member with same | ⟨-, child, below, -⟩
      · exact same
      · cases below
    refine ⟨fun found member => ?_, fun found member => ?_⟩
    all_goals cases only found member
    · exact ⟨Nat.le_refl _, nofun, List.Pairwise.nil, nofun⟩
    · exact ⟨nofun, nofun, nofun⟩

end ScriptLint.Source
