/-
**The files below a folder that no ignore file takes out.**

* `Level` — the ignore files of one folder, and whether a repository starts there.
* `Levels.isIgnored` — whether a file or folder is left out. A `.ignore` file counts before a
  `.gitignore` file, that before the exclude file of a repository; of one sort, the file of the
  nearest folder that says something. The last two count only inside a repository, and not beyond the
  folder where it starts.
* `Disk.reached?` — the files of a walk. Nothing in a folder that is left out is reached; where the
  walk starts is never left out.
-/

import ScriptLint.Disk
import ScriptLint.Ignore

namespace ScriptLint

/-- The ignore files of a folder. -/
structure Ignore.Level where
  own : IgnoreFile
  tracked : IgnoreFile
  excluded : IgnoreFile
  startsRepository : Bool
deriving Repr, DecidableEq, Inhabited

namespace Ignore

/-- The ignore file at a place. -/
def fileAt (disk : Disk) (place : Place) : IgnoreFile :=
  match disk.text? place with
  | some text => IgnoreFile.parse text
  | none => IgnoreFile.empty

/-- The ignore files of a folder in a walk from `root`. Without `respects` the files of version control
do not count, and only a repository at or below the root is seen. -/
def Level.ofFolder (disk : Disk) (respects : Bool) (root folder : Place) : Level where
  own := fileAt disk (folder ++ [".ignore"])
  tracked := if respects then fileAt disk (folder ++ [".gitignore"]) else IgnoreFile.empty
  excluded := fileAt disk (folder ++ [".git", "info", "exclude"])
  startsRepository := (respects || root.isPrefixOf folder) && disk.has (folder ++ [".git"])

/-- The level says nothing about any path. -/
def Level.isVoid (level : Level) : Bool :=
  level.own.entries.isEmpty && level.tracked.entries.isEmpty && level.excluded.entries.isEmpty &&
    !level.startsRepository

/-- Some line of the files is no pattern. -/
def Level.hasFault (level : Level) : Bool :=
  level.own.hasFault || level.tracked.hasFault || level.excluded.hasFault

/-- The levels of a walk that say anything, by folder. -/
abbrev Levels := List (Place × Level)

/-- The levels of a walk from `root`. -/
def Levels.ofDisk (disk : Disk) (respects : Bool) (root : Place) : Levels :=
  (([] :: disk.folders).map fun folder => (folder, Level.ofFolder disk respects root folder)).filter
    fun (_, level) => !level.isVoid

/-- The levels around a place, the innermost first, with the path of the place below each. -/
def Levels.around (levels : Levels) (place : Place) : List (Level × List UInt8) :=
  (Disk.foldersAround place).filterMap fun folder =>
    (levels.lookup folder).map fun level =>
      (level, (String.intercalate "/" (place.drop folder.length)).toUTF8.toList)

/-- The start of a list up to and with the first item that satisfies a condition. -/
def throughFirst {α : Type} (condition : α → Bool) : List α → List α
  | [] => []
  | a :: more => if condition a then [a] else a :: throughFirst condition more

/-- A file or folder is left out. -/
def Levels.isIgnored (levels : Levels) (place : Place) (isFolder : Bool) : Bool :=
  let around := levels.around place
  let first (files : List (Level × List UInt8)) (sort : Level → IgnoreFile) : Option Bool :=
    files.findSome? fun (level, path) => (sort level).verdict? path isFolder
  let inside :=
    if around.any (·.1.startsRepository) then throughFirst (·.1.startsRepository) around else []
  let verdict := (first around (·.own)).or ((first inside (·.tracked)).or (first inside (·.excluded)))
  verdict.getD false

/-- A file is reached from `root`: neither it nor a folder on the way is left out. -/
def Levels.reaches (levels : Levels) (root file : Place) : Bool :=
  let between := (Disk.foldersAround file).filter fun folder => root.length < folder.length
  !levels.isIgnored file false && between.all fun folder => !levels.isIgnored folder true

end Ignore

/-- The files that a walk reaches, as paths from the one it starts with. None when nothing is there, or
an ignore file of a folder around the start has a fault. -/
def Disk.reached? (disk : Disk) (respects : Bool) (start : String) : Option (List String) := do
  let root ← disk.find? [] start
  if disk.hasFile root then
    some [start]
  else
    let faulty := (foldersAround root).any fun folder =>
      (Ignore.Level.ofFolder disk respects root folder).hasFault
    if faulty then
      none
    else
      let levels := Ignore.Levels.ofDisk disk respects root
      let below := (disk.files.map (·.1)).filter fun file => root.isPrefixOf file
      some ((below.filter (levels.reaches root)).map fun file =>
        (file.drop root.length).foldl Path.join start)

end ScriptLint
