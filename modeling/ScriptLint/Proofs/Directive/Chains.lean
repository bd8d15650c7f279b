/-
**Replay over nested chains.**

A script's conditional directives form chains: an `#if`, any number of `#elif`, at most one `#else`
and an `#endif`, with other chains and definitions between them. The replay of such directives never
reaches below the regions it starts from. It is exact as long as no `#elif` has been passed; every
`#elif` that has been passed leaves one region behind for good, since an `#endif` closes one region
only.

* `Block`, `Branches` — chains as trees; `Block.directives` — the lines of such a tree, in order.
* `Block.openAt` — the chains around an offset, outermost first: those whose `#if` stands at or before
  it and whose `#endif` stands behind it. `OpenChain.region` — the region that such a chain means.
* `elseIfsUpTo` — the number of `#elif` at or before an offset, those of closed chains included.
* `Block.replay_length`, `Branches.replay_length` — how many regions are open above the first ones.
* `Block.replay_exact` — which regions these are when no `#elif` has been passed.
* `replayFrom_chains` — both, for every tree and every offset.
-/

import ScriptLint.Proofs.Directive.Wrap

namespace ScriptLint.Directive

/-- A directive line apart from its word: the text behind it and the offset of its `#`. -/
structure Line where
  condition : Option String
  position : Nat
deriving Repr, DecidableEq, Inhabited

/-- The directive that a word makes of a line. -/
def Line.directive (line : Line) (kind : Kind) : Directive :=
  ⟨kind, line.condition, line.position⟩

mutual

/-- Definitions and chains, one after the other. -/
inductive Block where
  | nil
  | definition (isUndef : Bool) (line : Line) (rest : Block)
  | chain (opening : Line) (body : Block) (branches : Branches) (rest : Block)

/-- What follows the first body of a chain, up to its `#endif`. -/
inductive Branches where
  | close (closing : Line)
  | otherwise (line : Line) (body : Block) (closing : Line)
  | elseIf (line : Line) (body : Block) (more : Branches)

end

mutual

/-- The lines of a block, in order. -/
def Block.directives : Block → List Directive
  | .nil => []
  | .definition isUndef line rest =>
    line.directive (if isUndef then .undef else .define) :: rest.directives
  | .chain opening body branches rest =>
    opening.directive .openIf :: (body.directives ++ (branches.directives ++ rest.directives))

/-- The lines of the branches, in order. -/
def Branches.directives : Branches → List Directive
  | .close closing => [closing.directive .endIf]
  | .otherwise line body closing =>
    line.directive .otherwise :: (body.directives ++ [closing.directive .endIf])
  | .elseIf line body more => line.directive .elseIf :: (body.directives ++ more.directives)

end

/-- The `#endif` of a chain. -/
def Branches.closing : Branches → Line
  | .close closing => closing
  | .otherwise _ _ closing => closing
  | .elseIf _ _ more => more.closing

/-- The `#else` of a chain. -/
def Branches.else? : Branches → Option Line
  | .close _ => none
  | .otherwise line _ _ => some line
  | .elseIf _ _ more => more.else?

/-- A chain around an offset: its `#if`, and its `#else` if it has one. -/
structure OpenChain where
  opening : Line
  else? : Option Line
deriving Repr, DecidableEq, Inhabited

/-- The region of a chain at an offset: the condition of its `#if`, renamed once its `#else` has been
passed. -/
def OpenChain.region (target : Nat) (chain : OpenChain) : Region :=
  ⟨if chain.else?.any (·.position ≤ target) then .otherwise else .openIf, chain.opening.condition⟩

mutual

/-- The chains of a block around an offset, outermost first. -/
def Block.openAt (target : Nat) : Block → List OpenChain
  | .nil => []
  | .definition _ _ rest => rest.openAt target
  | .chain opening body branches rest =>
    (if opening.position ≤ target ∧ target < branches.closing.position then
      [⟨opening, branches.else?⟩] else []) ++
        (body.openAt target ++ (branches.openAt target ++ rest.openAt target))

/-- The chains inside the branches of a chain around an offset. -/
def Branches.openAt (target : Nat) : Branches → List OpenChain
  | .close _ => []
  | .otherwise _ body _ => body.openAt target
  | .elseIf _ body more => body.openAt target ++ more.openAt target

end

/-- The number of `#elif` at or before an offset. -/
def elseIfsUpTo (target : Nat) (directives : List Directive) : Nat :=
  directives.countP fun directive => directive.kind == .elseIf && directive.position ≤ target

/-- The directives stand one behind the other. -/
def Increasing (directives : List Directive) : Prop :=
  directives.Pairwise fun a b => a.position < b.position

instance (directives : List Directive) : Decidable (Increasing directives) :=
  inferInstanceAs (Decidable (List.Pairwise _ _))

theorem elseIfsUpTo_append (target : Nat) (first second : List Directive) :
    elseIfsUpTo target (first ++ second) = elseIfsUpTo target first + elseIfsUpTo target second :=
  List.countP_append

theorem elseIfsUpTo_cons_of_ne {directive : Directive} (other : directive.kind ≠ .elseIf)
    (target : Nat) (rest : List Directive) :
    elseIfsUpTo target (directive :: rest) = elseIfsUpTo target rest :=
  List.countP_cons_of_neg (by simp [other])

theorem elseIfsUpTo_cons_self {line : Line} {target : Nat} (reached : line.position ≤ target)
    (rest : List Directive) :
    elseIfsUpTo target (line.directive .elseIf :: rest) = elseIfsUpTo target rest + 1 :=
  List.countP_cons_of_pos (by simp [Line.directive, reached])

theorem elseIfsUpTo_of_lt {target : Nat} {directives : List Directive}
    (later : ∀ d ∈ directives, target < d.position) : elseIfsUpTo target directives = 0 := by
  refine List.countP_eq_zero.mpr fun d member => ?_
  have := later d member
  simp only [Bool.and_eq_true, decide_eq_true_eq, not_and]
  omega

/-! ### Offsets before and behind a tree -/

/-- The `#endif` is one of the lines of the branches. -/
theorem Branches.closing_mem (branches : Branches) :
    branches.closing.directive .endIf ∈ branches.directives := by
  match branches with
  | .close closing => simp [Branches.directives, Branches.closing]
  | .otherwise line body closing => simp [Branches.directives, Branches.closing]
  | .elseIf line body more =>
    have inner := more.closing_mem
    simp [Branches.directives, Branches.closing, inner]

/-- So is the `#else`. -/
theorem Branches.else_mem {branches : Branches} {line : Line} (found : branches.else? = some line) :
    line.directive .otherwise ∈ branches.directives := by
  match branches with
  | .close closing => cases found
  | .otherwise first body closing =>
    obtain rfl : first = line := Option.some.inj found
    simp [Branches.directives]
  | .elseIf first body more =>
    have inner := more.else_mem found
    simp [Branches.directives, inner]

/-- The offset lies before all of the directives or behind all of them. -/
def Apart (target : Nat) (directives : List Directive) : Prop :=
  ∀ a ∈ directives, ∀ b ∈ directives, a.position ≤ target → b.position ≤ target

theorem Apart.of_lt {target : Nat} {directives : List Directive}
    (later : ∀ d ∈ directives, target < d.position) : Apart target directives := by
  intro a member b _ passed
  have := later a member
  omega

theorem Apart.of_le {target : Nat} {directives : List Directive}
    (passed : ∀ d ∈ directives, d.position ≤ target) : Apart target directives :=
  fun _ _ b member _ => passed b member

theorem Apart.mono {target : Nat} {inner outer : List Directive} (apart : Apart target outer)
    (within : inner ⊆ outer) : Apart target inner :=
  fun a first b second => apart a (within first) b (within second)

mutual

/-- A chain is open only between its own lines. -/
theorem Block.openAt_eq_nil {target : Nat} (block : Block)
    (apart : Apart target block.directives) : block.openAt target = [] := by
  match block with
  | .nil => rfl
  | .definition isUndef line rest =>
    exact rest.openAt_eq_nil (apart.mono (by simp [Block.directives]))
  | .chain opening body branches rest =>
    have outside : ¬ (opening.position ≤ target ∧ target < branches.closing.position) := by
      rintro ⟨opened, unclosed⟩
      have closed : branches.closing.position ≤ target :=
        apart (opening.directive .openIf) (by simp [Block.directives])
          (branches.closing.directive .endIf) (by simp [Block.directives, branches.closing_mem])
          opened
      omega
    rw [Block.openAt, if_neg outside,
      body.openAt_eq_nil (apart.mono (by simp [Block.directives])),
      branches.openAt_eq_nil (apart.mono fun d member => by simp [Block.directives, member]),
      rest.openAt_eq_nil (apart.mono fun d member => by simp [Block.directives, member])]
    rfl

theorem Branches.openAt_eq_nil {target : Nat} (branches : Branches)
    (apart : Apart target branches.directives) : branches.openAt target = [] := by
  match branches with
  | .close closing => rfl
  | .otherwise line body closing =>
    exact body.openAt_eq_nil (apart.mono (by simp [Branches.directives]))
  | .elseIf line body more =>
    rw [Branches.openAt, body.openAt_eq_nil (apart.mono (by simp [Branches.directives])),
      more.openAt_eq_nil (apart.mono (by simp [Branches.directives]))]
    rfl

end

/-! ### How many regions are open -/

/-- An offset before the first of the directives lies before all of them. -/
theorem Increasing.lt_of_lt_head {directive : Directive} {rest : List Directive} {target : Nat}
    (increasing : Increasing (directive :: rest)) (early : target < directive.position) :
    ∀ d ∈ directive :: rest, target < d.position := by
  intro d member
  rcases List.mem_cons.mp member with rfl | member
  · exact early
  · have : directive.position < d.position := List.rel_of_pairwise_cons increasing member
    omega

/-- An offset behind one of the later directives lies behind all of the earlier ones. -/
theorem Increasing.le_of_le {first second : List Directive} {target : Nat}
    (increasing : Increasing (first ++ second)) {directive : Directive}
    (member : directive ∈ second) (passed : directive.position ≤ target) :
    ∀ d ∈ first, d.position ≤ target := by
  intro d earlier
  have : d.position < directive.position :=
    (List.pairwise_append.mp increasing).2.2 d earlier directive member
  omega

theorem Increasing.left {first second : List Directive} (increasing : Increasing (first ++ second)) :
    Increasing first :=
  (List.pairwise_append.mp increasing).1

theorem Increasing.right {first second : List Directive}
    (increasing : Increasing (first ++ second)) : Increasing second :=
  (List.pairwise_append.mp increasing).2.1

theorem Increasing.tail {directive : Directive} {rest : List Directive}
    (increasing : Increasing (directive :: rest)) : Increasing rest :=
  List.Pairwise.of_cons increasing

/-- An `#endif` closes one region. -/
theorem replay_endIf (target : Nat) (closing : Line) (start : Regions) {opened : Regions}
    (nonempty : opened ≠ []) :
    ∃ above : Regions,
      Regions.replayFrom (opened ++ start) [closing.directive .endIf] target = above ++ start ∧
      above.length + (if closing.position ≤ target then 1 else 0) = opened.length := by
  obtain ⟨top, outer, rfl⟩ := List.exists_cons_of_ne_nil nonempty
  by_cases reached : closing.position ≤ target
  · refine ⟨outer, ?_, ?_⟩
    · rw [Regions.replayFrom_cons_of_le reached]
      rfl
    · rw [if_pos reached, List.length_cons]
  · refine ⟨top :: outer, ?_, ?_⟩
    · rw [Regions.replayFrom_cons_of_lt (Nat.lt_of_not_le reached)]
      rfl
    · rw [if_neg reached, Nat.add_zero]

/-- Branches that have not been reached. -/
theorem Branches.replay_unreached {target : Nat} {branches : Branches} {opened start : Regions}
    (later : ∀ d ∈ branches.directives, target < d.position) :
    ∃ above : Regions,
      Regions.replayFrom (opened ++ start) branches.directives target = above ++ start ∧
      above.length + (if branches.closing.position ≤ target then 1 else 0) =
        opened.length + (branches.openAt target).length +
          elseIfsUpTo target branches.directives := by
  have unclosed : target < branches.closing.position := later _ branches.closing_mem
  refine ⟨opened, Regions.replayFrom_of_lt later _, ?_⟩
  rw [branches.openAt_eq_nil (.of_lt later), elseIfsUpTo_of_lt later, if_neg (by omega)]
  rfl

mutual

/-- **A block** leaves the regions alone that it starts from. Above them stand as many as there are
chains open, and one for every `#elif` that has been passed. -/
theorem Block.replay_length (target : Nat) (block : Block) (start : Regions)
    (increasing : Increasing block.directives) :
    ∃ above : Regions, start.replayFrom block.directives target = above ++ start ∧
      above.length = (block.openAt target).length + elseIfsUpTo target block.directives := by
  match block with
  | .nil => exact ⟨[], rfl, rfl⟩
  | .definition isUndef line rest =>
    obtain ⟨above, replayed, length⟩ := rest.replay_length target start increasing.tail
    refine ⟨above, ?_, ?_⟩
    · rw [← replayed, Block.directives]
      by_cases reached : line.position ≤ target
      · rw [Regions.replayFrom_cons_of_le reached]
        cases isUndef <;> rfl
      · rw [Regions.replayFrom_cons_of_lt (Nat.lt_of_not_le reached)]
    · rw [Block.openAt, Block.directives, length,
        elseIfsUpTo_cons_of_ne (by cases isUndef <;> simp [Line.directive])]
  | .chain opening body branches rest =>
    by_cases reached : opening.position ≤ target
    · have later := increasing.tail
      obtain ⟨inBody, replayedBody, lengthBody⟩ :=
        body.replay_length target (⟨.openIf, opening.condition⟩ :: start) later.left
      obtain ⟨inChain, replayedChain, lengthChain⟩ :=
        branches.replay_length target (inBody ++ [⟨.openIf, opening.condition⟩]) start (by simp)
          later.right.left
      obtain ⟨inRest, replayedRest, lengthRest⟩ :=
        rest.replay_length target (inChain ++ start) later.right.right
      refine ⟨inRest ++ inChain, ?_, ?_⟩
      · rw [Block.directives, Regions.replayFrom_cons_of_le reached, Regions.replayFrom_append,
          Regions.replayFrom_append, List.append_assoc, ← replayedRest, ← replayedChain,
          List.append_assoc, List.singleton_append, ← replayedBody]
        rfl
      · rw [Block.openAt, Block.directives, elseIfsUpTo_cons_of_ne (by simp [Line.directive]),
          elseIfsUpTo_append, elseIfsUpTo_append]
        by_cases closed : branches.closing.position ≤ target
        · rw [if_neg (by omega)]
          rw [if_pos closed] at lengthChain
          simp only [List.length_append, List.length_singleton, List.length_nil] at lengthChain ⊢
          omega
        · rw [if_pos ⟨reached, by omega⟩]
          rw [if_neg closed] at lengthChain
          simp only [List.length_append, List.length_singleton] at lengthChain ⊢
          omega
    · have later : ∀ d ∈ (Block.chain opening body branches rest).directives,
          target < d.position :=
        increasing.lt_of_lt_head (Nat.lt_of_not_le reached)
      refine ⟨[], Regions.replayFrom_of_lt later start, ?_⟩
      rw [Block.openAt_eq_nil _ (.of_lt later), elseIfsUpTo_of_lt later]
      rfl

/-- **The branches of a chain** take place above the regions that were open before it; their `#endif`
closes one of those that are open in it. -/
theorem Branches.replay_length (target : Nat) (branches : Branches) (opened start : Regions)
    (nonempty : opened ≠ []) (increasing : Increasing branches.directives) :
    ∃ above : Regions,
      Regions.replayFrom (opened ++ start) branches.directives target = above ++ start ∧
      above.length + (if branches.closing.position ≤ target then 1 else 0) =
        opened.length + (branches.openAt target).length +
          elseIfsUpTo target branches.directives := by
  match branches with
  | .close closing => exact replay_endIf target closing start nonempty
  | .otherwise line body closing =>
    obtain ⟨top, outer, rfl⟩ := List.exists_cons_of_ne_nil nonempty
    by_cases reached : line.position ≤ target
    · obtain ⟨inBody, replayedBody, lengthBody⟩ := body.replay_length target
        (⟨.otherwise, top.condition⟩ :: (outer ++ start)) increasing.tail.left
      have inChain : inBody ++ ⟨.otherwise, top.condition⟩ :: outer ≠ [] := by simp
      obtain ⟨above, replayedEnd, lengthEnd⟩ := replay_endIf target closing start inChain
      refine ⟨above, ?_, ?_⟩
      · rw [Branches.directives, Regions.replayFrom_cons_of_le reached, Regions.replayFrom_append,
          ← replayedEnd, List.append_assoc, List.cons_append, List.cons_append, ← replayedBody]
        rfl
      · rw [Branches.closing, lengthEnd, Branches.openAt, Branches.directives,
          elseIfsUpTo_cons_of_ne (by simp [Line.directive]), elseIfsUpTo_append]
        have noElseIf : elseIfsUpTo target [closing.directive .endIf] = 0 := rfl
        simp only [List.length_append, List.length_cons]
        omega
    · have later : ∀ d ∈ (Branches.otherwise line body closing).directives,
          target < d.position :=
        increasing.lt_of_lt_head (Nat.lt_of_not_le reached)
      exact Branches.replay_unreached later
  | .elseIf line body more =>
    by_cases reached : line.position ≤ target
    · obtain ⟨inBody, replayedBody, lengthBody⟩ := body.replay_length target
        (⟨.elseIf, line.condition⟩ :: (opened ++ start)) increasing.tail.left
      obtain ⟨above, replayedMore, lengthMore⟩ := more.replay_length target
        (inBody ++ ⟨.elseIf, line.condition⟩ :: opened) start (by simp) increasing.tail.right
      refine ⟨above, ?_, ?_⟩
      · rw [Branches.directives, Regions.replayFrom_cons_of_le reached, Regions.replayFrom_append,
          ← replayedMore, List.append_assoc, List.cons_append, ← replayedBody]
        rfl
      · rw [Branches.closing, lengthMore, Branches.openAt, Branches.directives,
          elseIfsUpTo_cons_self reached, elseIfsUpTo_append]
        simp only [List.length_append, List.length_cons]
        omega
    · have later : ∀ d ∈ (Branches.elseIf line body more).directives, target < d.position :=
        increasing.lt_of_lt_head (Nat.lt_of_not_le reached)
      exact Branches.replay_unreached later

end

/-! ### Which regions are open -/

/-- A block that has been passed, and no `#elif` in it, changes nothing. -/
theorem Block.replay_passed {target : Nat} {block : Block}
    (increasing : Increasing block.directives)
    (passed : ∀ d ∈ block.directives, d.position ≤ target)
    (none : elseIfsUpTo target block.directives = 0) (start : Regions) :
    start.replayFrom block.directives target = start := by
  obtain ⟨above, replayed, length⟩ := block.replay_length target start increasing
  rw [block.openAt_eq_nil (.of_le passed), none] at length
  rw [replayed, List.eq_nil_of_length_eq_zero length, List.nil_append]

/-- The region of a chain, as long as its `#endif` has not been passed. -/
def Branches.ownRegion (target : Nat) (opening : Line) (branches : Branches) : Regions :=
  if branches.closing.position ≤ target then [] else
    [OpenChain.region target ⟨opening, branches.else?⟩]

/-- Before its branches, a chain has the region that its `#if` has opened. -/
theorem Branches.ownRegion_unreached {target : Nat} {branches : Branches}
    (later : ∀ d ∈ branches.directives, target < d.position) (opening : Line) :
    branches.ownRegion target opening = [⟨.openIf, opening.condition⟩] := by
  have unclosed : target < branches.closing.position := later _ branches.closing_mem
  have unreached : branches.else?.any (·.position ≤ target) = false := by
    cases found : branches.else? with
    | none => rfl
    | some line =>
      have : target < line.position := later _ (Branches.else_mem found)
      simpa using this
  rw [Branches.ownRegion, if_neg (by omega), OpenChain.region]
  simp only [unreached, Bool.false_eq_true, if_false]

mutual

/-- **A block without a passed `#elif`** opens the regions of the chains around the offset. -/
theorem Block.replay_exact (target : Nat) (block : Block) (start : Regions)
    (increasing : Increasing block.directives)
    (none : elseIfsUpTo target block.directives = 0) :
    start.replayFrom block.directives target =
      ((block.openAt target).map (·.region target)).reverse ++ start := by
  match block with
  | .nil => rfl
  | .definition isUndef line rest =>
    rw [Block.directives, elseIfsUpTo_cons_of_ne (by cases isUndef <;> simp [Line.directive])]
      at none
    rw [Block.openAt, ← rest.replay_exact target start increasing.tail none, Block.directives]
    by_cases reached : line.position ≤ target
    · rw [Regions.replayFrom_cons_of_le reached]
      cases isUndef <;> rfl
    · rw [Regions.replayFrom_cons_of_lt (Nat.lt_of_not_le reached)]
  | .chain opening body branches rest =>
    by_cases reached : opening.position ≤ target
    · rw [Block.directives, elseIfsUpTo_cons_of_ne (by simp [Line.directive]), elseIfsUpTo_append,
        elseIfsUpTo_append] at none
      have later := increasing.tail
      have own : (if opening.position ≤ target ∧ target < branches.closing.position then
          [(⟨opening, branches.else?⟩ : OpenChain)] else []).map (·.region target) =
            branches.ownRegion target opening := by
        rw [Branches.ownRegion]
        by_cases closed : branches.closing.position ≤ target
        · rw [if_pos closed, if_neg (by omega)]
          rfl
        · rw [if_neg closed, if_pos ⟨reached, by omega⟩]
          rfl
      have opened : Regions.apply start (opening.directive .openIf) =
          ⟨.openIf, opening.condition⟩ :: start := rfl
      rw [Block.directives, Regions.replayFrom_cons_of_le reached, Regions.replayFrom_append,
        Regions.replayFrom_append, opened, rest.replay_exact target _ later.right.right (by omega),
        Block.openAt]
      by_cases inBody : ∀ d ∈ branches.directives, target < d.position
      · rw [body.replay_exact target _ later.left (by omega), Regions.replayFrom_of_lt inBody,
          branches.openAt_eq_nil (.of_lt inBody)]
        simp only [List.map_append, own, Branches.ownRegion_unreached inBody, List.reverse_append]
        simp
      · have passedBody : ∀ d ∈ body.directives, d.position ≤ target := by
          simp only [not_forall, Nat.not_lt] at inBody
          obtain ⟨d, member, passed⟩ := inBody
          exact later.le_of_le (List.mem_append_left _ member) passed
        rw [Block.replay_passed later.left passedBody (by omega),
          branches.replay_exact target opening start later.right.left (by omega),
          body.openAt_eq_nil (.of_le passedBody)]
        have single : (branches.ownRegion target opening).reverse =
            branches.ownRegion target opening := by
          rw [Branches.ownRegion]
          split <;> rfl
        simp [own, single]
    · have later : ∀ d ∈ (Block.chain opening body branches rest).directives,
          target < d.position :=
        increasing.lt_of_lt_head (Nat.lt_of_not_le reached)
      rw [Regions.replayFrom_of_lt later, Block.openAt_eq_nil _ (.of_lt later)]
      rfl

/-- **The branches of a chain**, when its `#if` has left the innermost region. -/
theorem Branches.replay_exact (target : Nat) (branches : Branches) (opening : Line)
    (start : Regions) (increasing : Increasing branches.directives)
    (none : elseIfsUpTo target branches.directives = 0) :
    Regions.replayFrom (⟨.openIf, opening.condition⟩ :: start) branches.directives target =
      ((branches.openAt target).map (·.region target)).reverse ++
        (branches.ownRegion target opening ++ start) := by
  by_cases unreached : ∀ d ∈ branches.directives, target < d.position
  · rw [Regions.replayFrom_of_lt unreached, branches.openAt_eq_nil (.of_lt unreached),
      Branches.ownRegion_unreached unreached]
    rfl
  · match branches with
    | .close closing =>
      have closed : closing.position ≤ target := by
        simpa [Branches.directives, Line.directive] using unreached
      rw [Branches.directives, Regions.replayFrom_cons_of_le closed, Branches.ownRegion,
        Branches.closing, if_pos closed]
      rfl
    | .otherwise line body closing =>
      have reached : line.position ≤ target := by
        by_contra early
        exact unreached (increasing.lt_of_lt_head (Nat.lt_of_not_le early))
      rw [Branches.directives, elseIfsUpTo_cons_of_ne (by simp [Line.directive]),
        elseIfsUpTo_append] at none
      have renamed : Regions.apply (⟨.openIf, opening.condition⟩ :: start)
          (line.directive .otherwise) = ⟨.otherwise, opening.condition⟩ :: start := rfl
      rw [Branches.directives, Regions.replayFrom_cons_of_le reached, renamed,
        Regions.replayFrom_append, body.replay_exact target _ increasing.tail.left (by omega),
        Branches.openAt, Branches.ownRegion, Branches.closing]
      by_cases closed : closing.position ≤ target
      · have passed : ∀ d ∈ body.directives, d.position ≤ target :=
          increasing.tail.le_of_le List.mem_cons_self closed
        rw [Regions.replayFrom_cons_of_le closed, body.openAt_eq_nil (.of_le passed),
          if_pos closed]
        rfl
      · rw [Regions.replayFrom_cons_of_lt (Nat.lt_of_not_le closed), if_neg closed,
          OpenChain.region]
        simp [Branches.else?, reached, Regions.replayFrom]
    | .elseIf line body more =>
      have reached : line.position ≤ target := by
        by_contra early
        exact unreached (increasing.lt_of_lt_head (Nat.lt_of_not_le early))
      rw [Branches.directives, elseIfsUpTo_cons_self reached] at none
      omega

end

/-- **Replay over nested chains.** The regions that a replay starts from stay at the bottom. Above
them stand as many regions as there are chains open at the offset, and one for every `#elif` at or
before it. When there is no such `#elif`, they are the regions of the open chains, outermost first,
and an offset outside every chain is guarded by no keyword. -/
theorem replayFrom_chains (block : Block) (increasing : Increasing block.directives)
    (start : Regions) (target : Nat) :
    ∃ above : Regions, start.replayFrom block.directives target = above ++ start ∧
      above.length = (block.openAt target).length + elseIfsUpTo target block.directives ∧
      (elseIfsUpTo target block.directives = 0 →
        above.reverse = (block.openAt target).map (·.region target) ∧
        (block.openAt target = [] →
          ∀ keyword, guards block.directives target keyword = false)) := by
  obtain ⟨above, replayed, length⟩ := block.replay_length target start increasing
  refine ⟨above, replayed, length, fun none => ⟨?_, fun outside keyword => ?_⟩⟩
  · rw [block.replay_exact target start increasing none] at replayed
    rw [← List.append_cancel_right replayed, List.reverse_reverse]
  · rw [guards, Regions.replay, block.replay_exact target [] increasing none, outside]
    simp [Regions.mentions]

/-- A chain with an `#elif`, around a chain with an `#else`. -/
def forked : Block :=
  .definition false ⟨some "X", 0⟩
    (.chain ⟨some "A", 10⟩
      (.chain ⟨some "B", 20⟩ .nil (.otherwise ⟨none, 30⟩ .nil ⟨none, 40⟩) .nil)
      (.elseIf ⟨some "C", 50⟩ .nil (.close ⟨none, 60⟩)) .nil)

/-- Before its `#elif`, and behind its `#endif`, where the region of the `#if` is left behind. -/
theorem replayFrom_chains_forked :
    Increasing forked.directives ∧
      (∃ above : Regions, Regions.replayFrom [⟨.openIf, some "Z"⟩] forked.directives 35 =
          above ++ [⟨.openIf, some "Z"⟩] ∧
        above.reverse = [⟨.openIf, some "A"⟩, ⟨.otherwise, some "B"⟩]) ∧
      ∃ above : Regions, Regions.replayFrom [⟨.openIf, some "Z"⟩] forked.directives 65 =
          above ++ [⟨.openIf, some "Z"⟩] ∧ forked.openAt 65 = [] ∧ above.length = 1 := by
  have increasing : Increasing forked.directives := by decide
  obtain ⟨inner, replayedInner, -, exact⟩ :=
    replayFrom_chains forked increasing [⟨.openIf, some "Z"⟩] 35
  obtain ⟨left, replayedLeft, length, -⟩ :=
    replayFrom_chains forked increasing [⟨.openIf, some "Z"⟩] 65
  exact ⟨increasing, ⟨inner, replayedInner, (exact (by decide)).1⟩,
    left, replayedLeft, by decide, length⟩

end ScriptLint.Directive
