/-
**The command line.**

Reads the part of the file system that a run may look at into a `Disk`, runs the program on it, prints
its output, and writes the files that have changed.

* `readTree` — all that is below the target of a run; links to folders are not followed.
* `readAround` — of the folders around it, only what bears on a run: settings and ignore files, and the
  marks of a repository and of a Unity project.
-/

import ScriptLint.Command

namespace ScriptLint.Main

open Command

/-- The place that a path leads to from a folder, by its text alone. -/
def placeOf (folder : Place) (path : String) : Place :=
  let step (place : Place) (name : String) : Place :=
    if name == "." then place else if name == ".." then place.dropLast else place ++ [name]
  (Disk.steps path).foldl step (if Path.isAbsolute path then [] else folder)

/-- The absolute path of a place. -/
def pathOf (place : Place) : String :=
  "/" ++ String.intercalate "/" place

/-- The disk with the file at a place, if there is one that can be read. -/
def readFile (disk : Disk) (place : Place) : IO Disk := do
  try
    let bytes ← IO.FS.readBinFile (pathOf place)
    pure (disk.addFile place (String.fromUTF8? bytes))
  catch _ => pure disk

/-- The names in the folder at a place; none if there is no folder. -/
def namesIn? (place : Place) : IO (Option (List String)) := do
  try
    let path := (← IO.currentDir) / pathOf place
    let entries ← path.readDir
    pure (some (entries.toList.map (·.fileName)))
  catch _ => pure none

/-- What is at a place is a link. -/
def isLink (place : Place) : IO Bool := do
  try
    let path := (← IO.currentDir) / pathOf place
    let found ← path.symlinkMetadata
    pure (found.type == .symlink)
  catch _ => pure false

/-- The disk with everything at and below a place. -/
partial def readTree (disk : Disk) (place : Place) : IO Disk := do
  match ← namesIn? place with
  | none => readFile disk place
  | some names =>
    names.foldlM (fun disk name => readEntry disk (place ++ [name])) (disk.addFolder place)
where
  /-- A link counts if it leads to a file. -/
  readEntry (disk : Disk) (place : Place) : IO Disk := do
    if ← isLink place then readFile disk place else readTree disk place

/-- The disk with what a folder around the target has to say. -/
def readAround (disk : Disk) (folder : Place) : IO Disk := do
  let files := Settings.fileNames ++ [".ignore", ".gitignore"]
  let disk ← files.foldlM (fun disk name => readFile disk (folder ++ [name])) disk
  let disk ← [".git", Settings.rootMarker].foldlM (fun disk name => do
    match ← namesIn? (folder ++ [name]) with
    | some _ => pure (disk.addFolder (folder ++ [name]))
    | none => readFile disk (folder ++ [name])) disk
  readFile disk (folder ++ [".git", "info", "exclude"])

/-- The path that a run is about; the folder it starts in for the other commands. -/
def targetOf (invocation : Invocation) : String :=
  match invocation.action with
  | .check path _ _ => path
  | .fix path _ _ => path
  | .listRules | .init _ => "."

/-- The disk as far as a command may look at it. -/
def readDisk (session : Session) (invocation : Invocation) : IO Disk := do
  let target := placeOf session.folder (targetOf invocation)
  let around := Disk.foldersAround (target ++ ["."]) ++ Disk.foldersAround (session.folder ++ ["."])
  let disk ← around.foldlM readAround (Disk.empty.addFolder session.folder)
  let disk ←
    match invocation.action with
    | .check _ _ _ | .fix _ _ _ => readTree disk target
    | .listRules | .init _ => pure disk
  let settings := invocation.config.toList ++
    (Settings.globalFolder? session).toList.map (Path.join · "config.toml")
  settings.foldlM (fun disk path => readFile disk (placeOf session.folder path)) disk

/-- Writes the files that differ. -/
def writeChanges (before after : Disk) : IO Unit := do
  for (place, text) in after.files do
    if before.files.lookup place != some text then
      IO.FS.writeFile (pathOf place) (text.getD "")

/-- Runs the program in the folder and environment it was started in. -/
def start (arguments : List String) : IO UInt32 := do
  let folder := placeOf [] (← IO.currentDir).toString
  let session : Session :=
    ⟨Disk.empty, folder, ← IO.getEnv "UNITY_LINT_CONFIG_DIR", ← IO.getEnv "HOME"⟩
  let disk ←
    match Invocation.ofArguments arguments with
    | .ok invocation => readDisk session invocation
    | .error _ => pure Disk.empty
  let outcome := Command.run { session with disk } arguments
  writeChanges disk outcome.disk
  IO.print outcome.output
  pure outcome.exit.toUInt32

end ScriptLint.Main

/-- The program. -/
def main (arguments : List String) : IO UInt32 :=
  ScriptLint.Main.start arguments
