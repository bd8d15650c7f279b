/-
**A run over a project on a disk.**

* `Linter.paths?` — the scripts below the root: files with the extension of C#, not left out by an ignore
  file or by a pattern, in the order of paths.
* `Linter.checkDisk`, `Linter.fixDisk` — the report of a run over them; files that hold no text are
  passed over.
* `FixReport.save?` — the disk with the changed texts; `Linter.diskAfterFix` — the disk that a run leaves.
-/

import ScriptLint.Ignore.Walk
import ScriptLint.Linter

namespace ScriptLint

/-- Why a run over a disk has no result. -/
inductive ProjectError where
  /-- There is nothing to walk through. -/
  | walk
  /-- The run itself has none. -/
  | run (error : RunError)
deriving Repr, DecidableEq, Inhabited

/-- The path ends with a name and the extension of C#. -/
def isScriptPath (path : String) : Bool :=
  match (Path.components path).getLast? with
  | some (.name text) => List.isSuffixOf ['.', 'c', 's'] text && 3 < text.length
  | _ => false

/-- The path with all separators as slashes. -/
def withSlashes (path : String) : String :=
  String.ofList (path.toList.map fun c => if c == '\\' then '/' else c)

namespace Linter

/-- A pattern takes the path out, as it is or below the root. -/
def isExcluded (linter : Linter) (path : String) : Bool :=
  let below := withSlashes (Path.fromRoot linter.root path)
  let whole := withSlashes path
  linter.excludes.any fun pattern => pattern.accepts below || pattern.accepts whole

/-- The paths of the scripts, in order. -/
def paths? (linter : Linter) (disk : Disk) : Option (List String) := do
  let reached ← disk.reached? linter.config.analyzer.respectsIgnoreFiles linter.root
  let scripts := reached.filter fun path => isScriptPath path && !linter.isExcluded path
  pure (scripts.mergeSort fun a b => (Path.compare a b).isLE)

/-- The scripts that hold text. -/
def sources? (linter : Linter) (disk : Disk) : Option (List Source) := do
  let paths ← linter.paths? disk
  pure (paths.filterMap fun path => (disk.read? [] path).map (Source.ofText path))

/-- The result of a run over the scripts on a disk. -/
def overDisk {α : Type} (linter : Linter) (disk : Disk)
    (use : List Source → Except RunError α) : Except ProjectError α :=
  match linter.sources? disk with
  | none => .error .walk
  | some sources => (use sources).mapError .run

/-- The report of a run. -/
def checkDisk (linter : Linter) (disk : Disk) (schedule : Schedule := .undisturbed) :
    Except ProjectError Report :=
  linter.overDisk disk (linter.check schedule)

/-- The report of a run with the changed texts. -/
def fixDisk (linter : Linter) (disk : Disk) (schedule : Schedule := .undisturbed) :
    Except ProjectError FixReport :=
  linter.overDisk disk (linter.fix schedule)

end Linter

/-- The disk with the changed texts. -/
def FixReport.save? (fixed : FixReport) (disk : Disk) : Option Disk :=
  fixed.files.foldlM (fun disk file => disk.write? [] file.path file.text) disk

/-- The disk that a run leaves which fixes in place. Nothing is written before the run has its result,
and nothing at all when it has none. -/
def Linter.diskAfterFix (linter : Linter) (disk : Disk) (schedule : Schedule := .undisturbed) :
    Disk :=
  match linter.fixDisk disk schedule with
  | .error _ => disk
  | .ok fixed => (fixed.save? disk).getD disk

end ScriptLint
