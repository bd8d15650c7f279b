/-
**Half-open ranges of byte offsets.**

A span runs from `start` up to, and without, `stop`. Spans come from outside as well as from the
reader of scripts, so nothing forbids `stop < start`; such a span is empty and holds no offset.

* `contains`, `covers`, `overlaps` — how a span lies to an offset or to another span.
* `compare` — the order by start, then by stop.
-/

namespace ScriptLint

/-- The byte offsets from `start` up to `stop`. -/
structure Span where
  start : Nat
  stop : Nat
deriving Repr, DecidableEq, Inhabited

namespace Span

/-- The number of offsets in the span. -/
def length (s : Span) : Nat :=
  s.stop - s.start

/-- No offset lies in the span. -/
def isEmpty (s : Span) : Bool :=
  s.stop ≤ s.start

/-- The offset lies in the span. -/
def contains (s : Span) (offset : Nat) : Bool :=
  s.start ≤ offset && offset < s.stop

/-- Both ends of `t` lie between the ends of `s`. -/
def covers (s t : Span) : Bool :=
  s.start ≤ t.start && t.stop ≤ s.stop

/-- Each span starts before the other stops. -/
def overlaps (s t : Span) : Bool :=
  s.start < t.stop && t.start < s.stop

/-- The order by start and, for equal starts, by stop. -/
def compare (s t : Span) : Ordering :=
  (Ord.compare s.start t.start).then (Ord.compare s.stop t.stop)

end Span

end ScriptLint
