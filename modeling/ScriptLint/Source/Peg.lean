/-
**Ordered grammars over tokens.**

A grammar says for each rule what it consists of. Of two alternatives the first that succeeds is
taken for good, so a reading is a function of the tokens and needs no search.

* `Peg` — grammar expressions. `node` makes one tree of what it reads; `grow` reads a first tree and
  then as many continuations as there are, each taking what has been read so far as its first child.
* `Peg.Input` — the tokens that are left, counted.
* `Peg.run` — reads tokens. Only entering a rule costs fuel, so the fuel bounds the depth of rules in
  each other; a repetition goes on only while it makes progress.
-/

import ScriptLint.Source.Token
import ScriptLint.Source.Tree

namespace ScriptLint.Source

/-- What a rule consists of, over rules named by `ρ`. -/
inductive Peg (ρ : Type) where
  /-- Reads nothing. -/
  | empty
  /-- Reads one token that is accepted. -/
  | token (accepts : Token → Bool)
  /-- Reads both, in order. -/
  | seq (first second : Peg ρ)
  /-- Reads the first, or else the second. -/
  | alt (first second : Peg ρ)
  /-- Reads the item as often as it succeeds. -/
  | many (item : Peg ρ)
  /-- Succeeds if the expression would, and reads nothing. -/
  | ahead (expected : Peg ρ)
  /-- Succeeds if the expression would not, and reads nothing. -/
  | notAhead (forbidden : Peg ρ)
  /-- Reads what the rule consists of. -/
  | rule (name : ρ)
  /-- Makes a node of what is read. -/
  | node (kind : Kind) (body : Peg ρ)
  /-- Reads the first, then continuations that enclose it. -/
  | grow (first continuation : Peg ρ)

namespace Peg

variable {ρ : Type}

/-! ### Derived expressions -/

/-- Reads all expressions, in order. -/
def all (parts : List (Peg ρ)) : Peg ρ :=
  parts.foldr seq empty

/-- Never succeeds. -/
def never : Peg ρ :=
  token fun _ => false

/-- Reads the first expression that succeeds. -/
def oneOf (choices : List (Peg ρ)) : Peg ρ :=
  choices.foldr alt never

/-- Reads the expression if it succeeds. -/
def optional (part : Peg ρ) : Peg ρ :=
  alt part empty

/-- Reads the expression once or more often. -/
def many1 (item : Peg ρ) : Peg ρ :=
  seq item (many item)

/-- Reads items with separators between them. -/
def sepBy1 (item separator : Peg ρ) : Peg ρ :=
  seq item (many (seq separator item))

/-- Reads any number of items with separators between them. -/
def sepBy (item separator : Peg ρ) : Peg ρ :=
  optional (sepBy1 item separator)

/-- Reads the given word. -/
def word (text : String) : Peg ρ :=
  token (·.isWord text)

/-- Reads one of the given words. -/
def wordOf (texts : List String) : Peg ρ :=
  token (·.isWordOf texts)

/-- Reads the given operator or bracket. -/
def mark (text : String) : Peg ρ :=
  token (·.isMark text)

/-- Reads one of the given operators and brackets. -/
def markOf (texts : List String) : Peg ρ :=
  token (·.isMarkOf texts)

/-- Reads a name. -/
def identifier : Peg ρ :=
  token (·.isIdentifier)

/-- Reads a token of a kind. -/
def kindOf (kind : Token.Kind) : Peg ρ :=
  token (·.kind == kind)

/-- Reads an expression in parentheses. -/
def parens (body : Peg ρ) : Peg ρ :=
  all [mark "(", body, mark ")"]

/-- Reads an expression in square brackets. -/
def brackets (body : Peg ρ) : Peg ρ :=
  all [mark "[", body, mark "]"]

/-- Reads an expression in braces. -/
def braces (body : Peg ρ) : Peg ρ :=
  all [mark "\x7b", body, mark "\x7d"]

/-! ### Reading -/

/-- What is left to read. -/
structure Input where
  tokens : List Token
  /-- How many tokens these are. -/
  left : Nat
  /-- Where the last token before them ended. -/
  stop : Nat
deriving Repr, Inhabited

/-- The input that begins with the given tokens. -/
def Input.ofTokens (tokens : List Token) : Input :=
  ⟨tokens, tokens.length, 0⟩

/-- The trees that were read, and what is left. -/
abbrev Result := Option (List Tree × Input)

/-- Where the next token starts. -/
def Input.start (input : Input) : Nat :=
  match input.tokens with
  | next :: _ => next.span.start
  | [] => input.stop

/-- The node of what lies between two inputs. -/
def enclose (kind : Kind) (before after : Input) (children : List Tree) : Tree :=
  if after.left < before.left then
    .node kind ⟨before.start, after.stop⟩ children
  else
    .node kind ⟨before.stop, before.stop⟩ children

/-- The continuation with what was read before as its first child. -/
def attach (left continuation : Tree) : Tree :=
  .node continuation.kind ⟨left.span.start, continuation.span.stop⟩ (left :: continuation.children)

theorem sizeOf_pos (peg : Peg ρ) : 0 < sizeOf peg := by
  cases peg <;> simp only [empty.sizeOf_spec, token.sizeOf_spec, seq.sizeOf_spec, alt.sizeOf_spec,
    many.sizeOf_spec, ahead.sizeOf_spec, notAhead.sizeOf_spec, rule.sizeOf_spec, node.sizeOf_spec,
    grow.sizeOf_spec] <;> omega

/-- Reads tokens by a grammar. -/
def run (grammar : ρ → Peg ρ) (fuel : Nat) (peg : Peg ρ) (input : Input) : Result :=
  match peg with
  | empty => some ([], input)
  | token accepts =>
    match input.tokens with
    | next :: rest => if accepts next then some ([], ⟨rest, input.left - 1, next.span.stop⟩) else none
    | [] => none
  | seq first second =>
    match run grammar fuel first input with
    | some (trees, middle) =>
      match run grammar fuel second middle with
      | some (more, last) => some (trees ++ more, last)
      | none => none
    | none => none
  | alt first second =>
    match run grammar fuel first input with
    | some result => some result
    | none => run grammar fuel second input
  | many item =>
    match run grammar fuel item input with
    | some (trees, middle) =>
      if middle.left < input.left then
        match run grammar fuel (many item) middle with
        | some (more, last) => some (trees ++ more, last)
        | none => none
      else
        some ([], input)
    | none => some ([], input)
  | ahead expected => (run grammar fuel expected input).map fun _ => ([], input)
  | notAhead forbidden =>
    match run grammar fuel forbidden input with
    | some _ => none
    | none => some ([], input)
  | rule name =>
    match fuel with
    | 0 => none
    | fuel + 1 => run grammar fuel (grammar name) input
  | node kind body =>
    (run grammar fuel body input).map fun (trees, last) => ([enclose kind input last trees], last)
  | grow first continuation =>
    match run grammar fuel first input with
    | some ([left], middle) =>
      (run grammar fuel (many continuation) middle).map fun (more, last) =>
        ([more.foldl attach left], last)
    | result => result
termination_by (fuel, sizeOf peg, input.left)
decreasing_by
  all_goals first
    | decreasing_tactic
    | (have positive := sizeOf_pos first
       apply Prod.Lex.right
       apply Prod.Lex.left
       simp only [many.sizeOf_spec, grow.sizeOf_spec]
       omega)

end Peg

end ScriptLint.Source
