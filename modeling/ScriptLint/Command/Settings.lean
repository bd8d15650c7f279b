/-
**Where the settings of a run come from.**

* `Session` — the disk, the folder that the program was started in, and the folders that the
  environment names.
* `Settings` — the file that holds the settings, if any.
* `Settings.nearest?` — the settings file of the project: in the folder of the target or in one above
  it, by the path as it is written. The search does not go beyond the root of a Unity project.
* `Settings.find` — the file given, else that of the project, else the global one, else none.
-/

import ScriptLint.Config
import ScriptLint.Disk

namespace ScriptLint.Command

/-- What the program finds when it is started. -/
structure Session where
  disk : Disk
  /-- The folder it is started in. -/
  folder : Place
  /-- The folder of global settings that the environment names. -/
  configFolder : Option String
  /-- The home folder. -/
  home : Option String
deriving Repr, DecidableEq, Inhabited

/-- The absolute path of the folder the program is started in. -/
def Session.directory (session : Session) : String :=
  "/" ++ String.intercalate "/" session.folder

/-- The path leads to a file. -/
def Session.isFile (session : Session) (path : String) : Bool :=
  session.disk.isFile session.folder path

/-- Where settings come from. -/
inductive Settings where
  /-- A file that was given; it need not be there. -/
  | given (path : String)
  /-- A file of the project. -/
  | project (path : String)
  /-- The global file. -/
  | global (path : String)
  /-- No file: the defaults. -/
  | defaults
deriving Repr, DecidableEq, Inhabited

namespace Settings

/-- The names of a project's settings file. -/
def fileNames : List String :=
  ["unity-lint.toml", ".unity-lint.toml"]

/-- The folder that marks the root of a Unity project. -/
def rootMarker : String := "ProjectSettings"

/-- The first settings file in a list of folders, up to the root of a project. -/
def firstIn? (session : Session) : List String → Option String
  | [] => none
  | folder :: above =>
    match (fileNames.map (Path.join folder)).find? session.isFile with
    | some path => some path
    | none =>
      if session.disk.isFolder session.folder (Path.join folder rootMarker) then none
      else firstIn? session above

/-- The settings file of the project that the target belongs to. -/
def nearest? (session : Session) (target : String) : Option String := do
  let start ← if session.isFile target then Path.parent? target else some target
  firstIn? session (Path.ancestors start)

/-- The folder of global settings. -/
def globalFolder? (session : Session) : Option String :=
  session.configFolder.or (session.home.map (Path.join · ".unity-lint"))

/-- The settings of a run over the target. -/
def find (session : Session) (target : String) (config : Option String) : Settings :=
  match config, nearest? session target with
  | some path, _ => given path
  | none, some path => project path
  | none, none =>
    match (globalFolder? session).map (Path.join · "config.toml") with
    | some path => if session.isFile path then global path else defaults
    | none => defaults

/-- The file of the settings. -/
def path? : Settings → Option String
  | given path | project path | global path => some path
  | defaults => none

/-- The settings themselves; none when the file cannot be read or holds no settings. -/
def load? (session : Session) (settings : Settings) : Option Config :=
  match settings.path? with
  | none => some {}
  | some path => (session.disk.read? session.folder path).bind Config.parse?

end Settings

end ScriptLint.Command
