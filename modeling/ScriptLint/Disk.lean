/-
**A tree of files.**

* `Place` — where something is: the names on the way to it from the root.
* `Disk` — the files with their texts and the folders. A file whose bytes are no text has none.
* `Disk.find?` — the place that a path leads to from a folder. Every step of the path must be there,
  and what a separator follows must be a folder.
* `Disk.write?` — a file with a new text, in a folder that is there.
-/

import ScriptLint.Path

namespace ScriptLint

/-- The names on the way from the root. -/
abbrev Place := List String

/-- Files and folders. The root is always a folder. -/
structure Disk where
  /-- Each file with its text; none for one that holds no text. -/
  files : List (Place × Option String)
  folders : List Place
deriving Repr, DecidableEq, Inhabited

namespace Disk

/-- The disk with nothing on it. -/
def empty : Disk :=
  ⟨[], []⟩

/-- There is a file at the place. -/
def hasFile (disk : Disk) (place : Place) : Bool :=
  (disk.files.lookup place).isSome

/-- There is a folder at the place. -/
def hasFolder (disk : Disk) (place : Place) : Bool :=
  place.isEmpty || disk.folders.contains place

/-- There is something at the place. -/
def has (disk : Disk) (place : Place) : Bool :=
  disk.hasFile place || disk.hasFolder place

/-- The text of the file at a place. -/
def text? (disk : Disk) (place : Place) : Option String :=
  (disk.files.lookup place).join

/-- The folders around a place, the innermost first. -/
def foldersAround (place : Place) : List Place :=
  (List.range place.length).reverse.map place.take

/-! ### Changing -/

/-- The disk with a folder and those around it. -/
def addFolder (disk : Disk) (place : Place) : Disk :=
  let missing := (place :: foldersAround place).filter fun folder => !disk.hasFolder folder
  { disk with folders := disk.folders ++ missing.reverse }

/-- The disk with a file put at a place. -/
def put (disk : Disk) (place : Place) (text : Option String) : Disk :=
  if disk.hasFile place then
    { disk with
      files := disk.files.map fun (other, old) => (other, if other == place then text else old) }
  else
    { disk with files := disk.files ++ [(place, text)] }

/-- The disk with a file and the folders around it. -/
def addFile (disk : Disk) (place : Place) (text : Option String) : Disk :=
  (disk.addFolder place.dropLast).put place text

/-- The disk without what is at a place and below it. -/
def remove (disk : Disk) (place : Place) : Disk where
  files := disk.files.filter fun (other, _) => !place.isPrefixOf other
  folders := disk.folders.filter fun other => !place.isPrefixOf other

/-! ### Paths -/

/-- The steps of a path. A separator at the end is a step that stays where it is. -/
def steps (path : String) : List String :=
  let segments := List.splitOn '/' path.toList
  let last := if segments.getLast? == some [] then ["."] else []
  (segments.filter (!·.isEmpty)).map String.ofList ++ last

/-- The place after one step from a place. Only a folder can be left. -/
def step? (disk : Disk) (place : Place) (step : String) : Option Place :=
  if !disk.hasFolder place then none
  else if step == "." then some place
  else if step == ".." then some place.dropLast
  else
    let next := place ++ [step]
    if disk.has next then some next else none

/-- The place that a path leads to from a folder; none when nothing is there. -/
def find? (disk : Disk) (folder : Place) (path : String) : Option Place :=
  if path.isEmpty then none
  else (steps path).foldlM disk.step? (if Path.isAbsolute path then [] else folder)

/-- The path leads to a file. -/
def isFile (disk : Disk) (folder : Place) (path : String) : Bool :=
  (disk.find? folder path).any disk.hasFile

/-- The path leads to a folder. -/
def isFolder (disk : Disk) (folder : Place) (path : String) : Bool :=
  (disk.find? folder path).any disk.hasFolder

/-- The text of the file that a path leads to. -/
def read? (disk : Disk) (folder : Place) (path : String) : Option String :=
  (disk.find? folder path).bind disk.text?

/-- The place of a file that a path leads to or that could be made there. -/
def target? (disk : Disk) (folder : Place) (path : String) : Option Place :=
  match (steps path).reverse with
  | [] => none
  | last :: before => do
    let start := if Path.isAbsolute path then [] else folder
    let around ← before.reverse.foldlM disk.step? start
    if disk.hasFolder around && last != "." && last != ".." && !disk.hasFolder (around ++ [last])
    then some (around ++ [last])
    else none

/-- The disk with the text written to the file that a path leads to. -/
def write? (disk : Disk) (folder : Place) (path text : String) : Option Disk :=
  (disk.target? folder path).map fun place => disk.put place (some text)

end Disk

end ScriptLint
