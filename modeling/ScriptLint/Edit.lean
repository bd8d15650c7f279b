/-
**Edits of a script's text.**

An edit names the node it is about and says what to do with it. On a given text it becomes a
replacement of a span; a batch of edits is turned into replacements of the text as it was, and these
are performed from the end of the text backwards, so that each still finds its offsets unmoved.

* `removalSpan?` — a removed node takes its whole line with it when nothing else stands there, and
  otherwise the spaces and tabs after it.
* `Edit.replacement?` — the replacement an edit performs.
* `Replacement.clashes` — a replacement reaches past the last one performed, or is an insertion at
  its very start; such a one is skipped.
* `applyAll?` — a batch. It fails only where a text would be cut inside a character or beyond its
  end.
-/

import ScriptLint.Span
import ScriptLint.Text.Blank
import ScriptLint.Text.Measure

namespace ScriptLint

/-- New text for a span of bytes. -/
structure Replacement where
  span : Span
  newText : String
deriving Repr, DecidableEq, Inhabited

/-- What is to be done with a node. -/
inductive Edit where
  /-- Delete the node. -/
  | remove (target : Span)
  /-- Put a comment right before the node. -/
  | annotate (target : Span) (comment : String)
deriving Repr, DecidableEq, Inhabited

namespace Edit

/-- The node the edit is about. -/
def target : Edit → Span
  | remove target => target
  | annotate target _ => target

/-- The span that goes when a node between `before` and `after` is removed, where the node lies at
`node`. -/
def removalSpan (before after : List Char) (node : Span) : Span :=
  let lineHead := before.reverse.takeWhile (· != '\n')
  let lineTail := after.takeWhile (· != '\n')
  if lineHead.all Text.isBlank && lineTail.all Text.isBlank then
    let lineEnd := if lineTail.length < after.length then 1 else 0
    ⟨node.start - Text.size lineHead, node.stop + Text.size lineTail + lineEnd⟩
  else
    ⟨node.start, node.stop + Text.size (after.takeWhile fun c => c == ' ' || c == '\t')⟩

/-- The target with both ends brought into a text of `size` bytes. -/
def clamp (size : Nat) (target : Span) : Span :=
  let start := min target.start size
  ⟨start, max start (min target.stop size)⟩

/-- The span that goes with a removed node; none if an end of the node is inside a character. -/
def removalSpan? (text : List Char) (target : Span) : Option Span := do
  let node := clamp (Text.size text) target
  let (before, _) ← Text.cut? node.start text
  let (_, after) ← Text.cut? node.stop text
  pure (removalSpan before after node)

/-- The replacement an edit performs on a text. -/
def replacement? (text : List Char) : Edit → Option Replacement
  | remove target => do pure ⟨← removalSpan? text target, ""⟩
  | annotate target comment => some ⟨⟨target.start, target.start⟩, comment ++ " "⟩

end Edit

namespace Replacement

/-- The order of performance: what starts later comes first, then what stops later. -/
def performedBefore (a b : Replacement) : Bool :=
  b.span.start < a.span.start || (a.span.start == b.span.start && b.span.stop ≤ a.span.stop)

/-- The replacement meets the one performed last, which starts at `floor`. -/
def clashes (floor : Option Nat) (replacement : Replacement) : Bool :=
  match floor with
  | none => false
  | some floor =>
    floor < replacement.span.stop ||
      (replacement.span.isEmpty && replacement.span.start == floor)

/-- The text with the span replaced; none if an end of the span is no place to cut. -/
def perform? (text : List Char) (replacement : Replacement) : Option (List Char) := do
  let (before, _) ← Text.cut? replacement.span.start text
  let (_, after) ← Text.cut? replacement.span.stop text
  pure (before ++ replacement.newText.toList ++ after)

end Replacement

namespace Edit

/-- A batch under way: the text so far, the start of the last replacement performed, and the counts
of those performed and skipped. -/
structure Progress where
  text : List Char
  floor : Option Nat
  applied : Nat
  skipped : Nat
deriving Repr, DecidableEq, Inhabited

/-- Performs a replacement or skips it. -/
def Progress.step? (progress : Progress) (replacement : Replacement) : Option Progress :=
  if replacement.clashes progress.floor then
    some { progress with skipped := progress.skipped + 1 }
  else do
    let text ← replacement.perform? progress.text
    pure ⟨text, some replacement.span.start, progress.applied + 1, progress.skipped⟩

/-- The result of a batch. -/
structure Outcome where
  text : String
  applied : Nat
  skipped : Nat
deriving Repr, DecidableEq, Inhabited

/-- Performs a batch of edits on a text. -/
def applyAll? (text : String) (edits : List Edit) : Option Outcome := do
  let replacements ← edits.mapM (replacement? text.toList)
  let last ← (replacements.mergeSort Replacement.performedBefore).foldlM Progress.step?
    ⟨text.toList, none, 0, 0⟩
  pure ⟨String.ofList last.text, last.applied, last.skipped⟩

end Edit

end ScriptLint
