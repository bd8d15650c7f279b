/-
**Reading as a relation.**

The reader is a function that returns what it has read. What it has read was read in one of a few
ways, one for each form of expression; properties of trees are shown along these.

* `Peg.Reads` — an expression reads trees from one input to another. The expressions that may take no
  token share one case.
* `Peg.run_reads` — what the reader returns is read so.
* `Peg.Reads.suffix`, `Peg.Reads.count` — what is left of the tokens after a reading.
* `Peg.Reads.of_seq` and so on — how an expression of a form was read.
-/

import ScriptLint.Source.Peg

namespace ScriptLint.Source.Peg

variable {ρ : Type}

@[simp] theorem kind_enclose {kind : Kind} {before after : Input} {children : List Tree} :
    (enclose kind before after children).kind = kind := by
  unfold enclose
  split <;> rfl

@[simp] theorem children_enclose {kind : Kind} {before after : Input} {children : List Tree} :
    (enclose kind before after children).children = children := by
  unfold enclose
  split <;> rfl

/-- Expressions that may succeed without a token. -/
def isIdle : Peg ρ → Bool
  | empty | many _ | ahead _ | notAhead _ => true
  | _ => false

/-- The expression reads the trees between the two inputs. -/
inductive Reads (grammar : ρ → Peg ρ) : Peg ρ → Input → List Tree → Input → Prop
  | nothing {peg : Peg ρ} {input : Input} (idle : peg.isIdle = true) :
      Reads grammar peg input [] input
  | token {accepts : Token → Bool} {input : Input} {next : Token} {rest : List Token}
      (tokens : input.tokens = next :: rest) (accepted : accepts next = true) :
      Reads grammar (token accepts) input [] ⟨rest, input.left - 1, next.span.stop⟩
  | seq {first second : Peg ρ} {input middle last : Input} {trees more : List Tree}
      (left : Reads grammar first input trees middle)
      (right : Reads grammar second middle more last) :
      Reads grammar (seq first second) input (trees ++ more) last
  | first {first second : Peg ρ} {input last : Input} {trees : List Tree}
      (read : Reads grammar first input trees last) :
      Reads grammar (alt first second) input trees last
  | second {first second : Peg ρ} {input last : Input} {trees : List Tree}
      (read : Reads grammar second input trees last) :
      Reads grammar (alt first second) input trees last
  | again {item : Peg ρ} {input middle last : Input} {trees more : List Tree}
      (left : Reads grammar item input trees middle)
      (right : Reads grammar (many item) middle more last) :
      Reads grammar (many item) input (trees ++ more) last
  | rule {name : ρ} {input last : Input} {trees : List Tree}
      (read : Reads grammar (grammar name) input trees last) :
      Reads grammar (rule name) input trees last
  | node {kind : Kind} {body : Peg ρ} {input last : Input} {trees : List Tree}
      (read : Reads grammar body input trees last) :
      Reads grammar (node kind body) input [enclose kind input last trees] last
  | grow {first continuation : Peg ρ} {input middle last : Input} {left : Tree} {more : List Tree}
      (start : Reads grammar first input [left] middle)
      (rest : Reads grammar (many continuation) middle more last) :
      Reads grammar (grow first continuation) input [more.foldl attach left] last
  | lone {first continuation : Peg ρ} {input last : Input} {trees : List Tree}
      (read : Reads grammar first input trees last) :
      Reads grammar (grow first continuation) input trees last

/-- **What the reader returns** is read. -/
theorem run_reads {grammar : ρ → Peg ρ} {fuel : Nat} {peg : Peg ρ} {input last : Input}
    {trees : List Tree} (read : run grammar fuel peg input = some (trees, last)) :
    Reads grammar peg input trees last := by
  fun_induction run grammar fuel peg input generalizing trees last with
  | case1 | case12 | case13 | case16 =>
    cases read
    exact .nothing rfl
  | case2 fuel input accepts next rest tokens accepted =>
    cases read
    exact .token tokens accepted
  | case5 fuel input first second trees middle readFirst more last readSecond ihFirst ihSecond =>
    cases read
    exact .seq (ihFirst readFirst) (ihSecond readSecond)
  | case8 fuel input first second result readFirst ih =>
    cases read
    exact .first (ih readFirst)
  | case9 fuel input first second failed ihFirst ihSecond => exact .second (ihSecond read)
  | case10 fuel input item trees middle readItem progress more last readMore ihItem ihMore =>
    cases read
    exact .again (ihItem readItem) (ihMore readMore)
  | case14 fuel input expected ih =>
    obtain ⟨result, -, pair⟩ := Option.map_eq_some_iff.mp read
    cases pair
    exact .nothing rfl
  | case18 input name fuel ih => exact .rule (ih read)
  | case19 fuel input kind body ih =>
    obtain ⟨⟨inner, last⟩, readBody, pair⟩ := Option.map_eq_some_iff.mp read
    cases pair
    exact .node (ih readBody)
  | case20 fuel input first continuation left middle readFirst ihFirst ihMore =>
    obtain ⟨⟨more, last⟩, readMore, pair⟩ := Option.map_eq_some_iff.mp read
    cases pair
    exact .grow (ihFirst readFirst) (ihMore readMore)
  | case21 fuel input first continuation other ih => exact .lone (ih read)
  | _ => cases read

namespace Reads

variable {grammar : ρ → Peg ρ} {peg first second : Peg ρ} {input last : Input} {trees : List Tree}

theorem suffix (read : Reads grammar peg input trees last) : last.tokens <:+ input.tokens := by
  induction read with
  | nothing => exact List.suffix_refl _
  | token tokens =>
    rw [tokens]
    exact List.suffix_cons _ _
  | seq _ _ left right | again _ _ left right | grow _ _ left right => exact right.trans left
  | first _ ih | second _ ih | rule _ ih | node _ ih | lone _ ih => exact ih

/-- Counted tokens stay counted. -/
theorem count (read : Reads grammar peg input trees last)
    (counted : input.left = input.tokens.length) : last.left = last.tokens.length := by
  induction read with
  | nothing => exact counted
  | token tokens =>
    rw [tokens, List.length_cons] at counted
    exact Nat.sub_eq_of_eq_add counted
  | seq _ _ left right | again _ _ left right | grow _ _ left right => exact right (left counted)
  | first _ ih | second _ ih | rule _ ih | node _ ih | lone _ ih => exact ih counted

theorem of_seq (read : Reads grammar (.seq first second) input trees last) :
    ∃ before middle behind, Reads grammar first input before middle ∧
      Reads grammar second middle behind last ∧ trees = before ++ behind := by
  cases read with
  | nothing idle => cases idle
  | seq left right => exact ⟨_, _, _, left, right, rfl⟩

theorem of_token {accepts : Token → Bool} (read : Reads grammar (.token accepts) input trees last) :
    ∃ next, input.tokens = next :: last.tokens ∧ accepts next = true ∧
      last.stop = next.span.stop ∧ trees = [] := by
  cases read with
  | nothing idle => cases idle
  | token tokens accepted => exact ⟨_, tokens, accepted, rfl, rfl⟩

theorem of_empty (read : Reads grammar .empty input trees last) : last = input := by
  cases read
  rfl

theorem of_alt (read : Reads grammar (.alt first second) input trees last) :
    Reads grammar first input trees last ∨ Reads grammar second input trees last := by
  cases read with
  | nothing idle => cases idle
  | first read => exact .inl read
  | second read => exact .inr read

theorem of_rule {name : ρ} (read : Reads grammar (.rule name) input trees last) :
    Reads grammar (grammar name) input trees last := by
  cases read with
  | nothing idle => cases idle
  | rule read => exact read

theorem of_node {kind : Kind} {body : Peg ρ} (read : Reads grammar (.node kind body) input trees last) :
    ∃ inner, Reads grammar body input inner last ∧ trees = [enclose kind input last inner] := by
  cases read with
  | nothing idle => cases idle
  | node read => exact ⟨_, read, rfl⟩

end Reads

end ScriptLint.Source.Peg
