/-
**Preprocessor directives and the regions they open.**

A script's conditional directives are kept with their condition text and the offset of their `#`.
Which symbols guard an offset is a textual question, answered without evaluating any condition:
the directives up to the offset are replayed on a stack of regions.

* `Regions.apply` — one directive: `#if` and `#elif` open a region, `#else` renames the innermost
  one and keeps its condition, `#endif` closes it, a definition changes nothing.
* `Regions.replay` — all directives at or before an offset, in the order of the list.
* `Regions.mentions` — some open region's condition text holds a keyword.
* `defines` — the script defines a symbol for itself.
-/

import ScriptLint.Text.Find

namespace ScriptLint

/-- What a directive line does. -/
inductive Directive.Kind where
  /-- The line `#if COND`. -/
  | openIf
  /-- The line `#elif COND`. -/
  | elseIf
  /-- The line `#else`. -/
  | otherwise
  /-- The line `#endif`. -/
  | endIf
  /-- The line `#define SYMBOL`. -/
  | define
  /-- The line `#undef SYMBOL`. -/
  | undef
deriving Repr, DecidableEq, Inhabited

/-- The word written after the `#`. -/
def Directive.Kind.keyword : Directive.Kind → String
  | openIf => "if"
  | elseIf => "elif"
  | otherwise => "else"
  | endIf => "endif"
  | define => "define"
  | undef => "undef"

/-- The kinds of directive. -/
def Directive.Kind.all : List Directive.Kind :=
  [openIf, elseIf, otherwise, endIf, define, undef]

/-- The directive that a word names. -/
def Directive.Kind.ofKeyword? (word : String) : Option Directive.Kind :=
  all.find? (·.keyword == word)

/-- One directive line: its condition or symbol text and the offset of its `#`. -/
structure Directive where
  kind : Directive.Kind
  condition : Option String
  position : Nat
deriving Repr, DecidableEq, Inhabited

/-- What the innermost directive of a region made of it. -/
inductive Region.Kind where
  | openIf
  | elseIf
  | otherwise
deriving Repr, DecidableEq, Inhabited

/-- A conditional region that is open at some offset. -/
structure Region where
  kind : Region.Kind
  condition : Option String
deriving Repr, DecidableEq, Inhabited

/-- The open regions, innermost first. -/
abbrev Regions := List Region

namespace Regions

/-- What one directive does to the open regions. -/
def apply (regions : Regions) (directive : Directive) : Regions :=
  match directive.kind with
  | .openIf => ⟨.openIf, directive.condition⟩ :: regions
  | .elseIf => ⟨.elseIf, directive.condition⟩ :: regions
  | .otherwise =>
    match regions with
    | [] => []
    | top :: outer => ⟨.otherwise, top.condition⟩ :: outer
  | .endIf => regions.drop 1
  | .define | .undef => regions

/-- The regions left open by the directives at or before `target`, from `start` on. -/
def replayFrom (start : Regions) (directives : List Directive) (target : Nat) : Regions :=
  (directives.filter (·.position ≤ target)).foldl apply start

/-- The regions open at an offset. -/
def replay (directives : List Directive) (target : Nat) : Regions :=
  replayFrom [] directives target

/-- Some condition holds the keyword; no condition holds the empty one. -/
def mentions (regions : Regions) (keyword : String) : Bool :=
  !keyword.isEmpty &&
    regions.any fun region =>
      match region.condition with
      | some condition => Text.hasInfix keyword.toList condition.toList
      | none => false

end Regions

namespace Directive

/-- An offset lies in a region whose condition mentions the keyword. -/
def guards (directives : List Directive) (target : Nat) (keyword : String) : Bool :=
  (Regions.replay directives target).mentions keyword

/-- Some `#define` names the symbol as the first word of its text. -/
def defines (directives : List Directive) (symbol : String) : Bool :=
  directives.any fun directive =>
    directive.kind == .define &&
      (directive.condition.bind fun text => (Text.words text.toList).head?) == some symbol.toList

end Directive

end ScriptLint
