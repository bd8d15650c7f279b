/-
**A flag that stops a run.**

Someone outside may set the flag at any moment, and nothing clears it. What a check sees of it is the
answers of its reads: no up to some read, and yes from then on.

* `Watch` — when the flag gets set, as one check sees it: never, after a number of reads, or when a
  number of calls has been bound.
* `Watch.isSet`, `Watch.afterRead` — what a read finds and leaves; `Watch.bind` — one call is bound.
* `Watch.isSet_afterRead`, `Watch.isSet_bind` — a flag that is set stays so.
-/

namespace ScriptLint

/-- When the flag gets set. -/
inductive Watch where
  /-- Never. -/
  | quiet
  /-- After so many reads have found it not set. -/
  | afterReads (count : Nat)
  /-- When so many calls have been bound. -/
  | afterBindings (count : Nat)
deriving Repr, DecidableEq, Inhabited

namespace Watch

/-- The flag is set. -/
def isSet : Watch → Bool
  | quiet => false
  | afterReads count => count == 0
  | afterBindings count => count == 0

/-- What a read leaves. -/
def afterRead : Watch → Watch
  | quiet => quiet
  | afterReads count => afterReads (count - 1)
  | afterBindings count => afterBindings count

/-- One call is bound. -/
def bind : Watch → Watch
  | quiet => quiet
  | afterReads count => afterReads count
  | afterBindings count => afterBindings (count - 1)

/-- A flag that is set stays so when it is read. -/
theorem isSet_afterRead {watch : Watch} (stopped : watch.isSet = true) :
    watch.afterRead.isSet = true := by
  cases watch <;> simp_all [isSet, afterRead]

/-- A flag that is set stays so when a call is bound. -/
theorem isSet_bind {watch : Watch} (stopped : watch.isSet = true) : watch.bind.isSet = true := by
  cases watch <;> simp_all [isSet, bind]

end Watch

end ScriptLint
