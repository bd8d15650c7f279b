/-
**Rules.**

* `Subject` — a script as a rule sees it: with its path below the project's root, and what that path
  says about it.
* `Rule` — what a rule is called, how grave its findings are, the fix it offers, and its check. A
  check reads the watch as it goes on and answers with nothing once the flag is set.
* `scan` — the findings in a list of nodes, unless the flag is set before one of them.
-/

import ScriptLint.Path.Role
import ScriptLint.Remedy
import ScriptLint.Report
import ScriptLint.Script
import ScriptLint.Watch

namespace ScriptLint

/-- A script with its place in the project. -/
structure Subject where
  /-- The path below the root. -/
  file : String
  role : Path.Role
  script : Script
deriving Repr, DecidableEq, Inhabited

/-- The script at a path of a project. -/
def Subject.ofScript (root : String) (tokens : Path.Tokens) (path : String) (script : Script) :
    Subject :=
  let file := Path.fromRoot root path
  ⟨file, tokens.role file, script⟩

/-- The location of a span of the script. -/
def Subject.location (subject : Subject) (span : Span) : Location :=
  Location.ofSpan subject.file subject.script.outline.text span

/-- A rule. -/
structure Rule where
  code : String
  name : String
  description : String
  severity : Severity
  /-- The fix for its findings. -/
  remedy : Option Remedy
  /-- The findings in a script, with what the check leaves of the watch. -/
  check : Subject → Watch → List Violation × Watch
deriving Inhabited

/-- The findings that `report` makes of the nodes, the flag being read before each node. None when it
is set; `binds` tells which nodes are calls that have to be bound. -/
def scan {Node : Type} (report : Node → Option Violation) (binds : Node → Bool) :
    List Node → Watch → Option (List Violation) × Watch
  | [], watch => (some [], watch)
  | node :: more, watch =>
    if watch.isSet then
      (none, watch.afterRead)
    else
      let seen := if binds node then watch.afterRead.bind else watch.afterRead
      let (found, left) := scan report binds more seen
      (found.map ((report node).toList ++ ·), left)

end ScriptLint
