/-
**Which scripts are of no concern.**

Any folder named `Editor` is built into editor-only code, and some folders hold code of others. Both
are recognised by the names of the path's segments, case and kind of separator aside.

* `segments` — the names of a path, lowered, without the empty ones and the dots.
* `Tokens` — the names that decide; `Tokens.folded` lowers them once.
* `Role` — the verdict; a script is skipped when either part of it holds.
* `ofPath` — the verdict on a path, for a set of tokens.
-/

import ScriptLint.Path
import ScriptLint.Text.Case

namespace ScriptLint.Path

/-- The lowered names of a path; both kinds of slash separate. -/
def segments (path : String) : List String :=
  ((List.splitOnP (fun c => c == '/' || c == '\\') path.toList).filter (!isVoid ·)).map
    fun segment => String.ofList (Text.lower segment)

/-- The names that tell what a folder holds. -/
structure Tokens where
  /-- The folder of editor-only code. -/
  editorFolder : String := "Editor"
  /-- Folders of code by others. -/
  vendorFolders : List String := ["Vendor", "ThirdParty"]
  /-- What the names of packages begin with. -/
  packagePrefixes : List String := ["com.unity."]
  /-- Two neighbouring folders that hold fetched packages. -/
  cachePair : String × String := ("Library", "PackageCache")
  /-- The folder of native plugins. -/
  pluginsFolder : String := "Plugins"
deriving Repr, DecidableEq, Inhabited

/-- The tokens in lower case. -/
def Tokens.folded (tokens : Tokens) : Tokens where
  editorFolder := Text.lowercase tokens.editorFolder
  vendorFolders := tokens.vendorFolders.map Text.lowercase
  packagePrefixes := tokens.packagePrefixes.map Text.lowercase
  cachePair := (Text.lowercase tokens.cachePair.1, Text.lowercase tokens.cachePair.2)
  pluginsFolder := Text.lowercase tokens.pluginsFolder

/-- What a path says about a script. -/
structure Role where
  /-- The script is editor-only. -/
  isEditor : Bool
  /-- The script is code of others. -/
  isExcluded : Bool
deriving Repr, DecidableEq, Inhabited

/-- No rule looks at such a script. -/
def Role.isSuppressed (role : Role) : Bool :=
  role.isEditor || role.isExcluded

/-- Two neighbours of a list are the given pair. -/
def hasNeighbours (pair : String × String) : List String → Bool
  | a :: b :: more => (a == pair.1 && b == pair.2) || hasNeighbours pair (b :: more)
  | _ => false

/-- Some segment is the editor folder. -/
def isEditor (folded : Tokens) (segments : List String) : Bool :=
  segments.any (· == folded.editorFolder)

/-- Some segment, or pair of neighbours, names a folder of code by others. -/
def isExcluded (folded : Tokens) (segments : List String) : Bool :=
  segments.any (folded.vendorFolders.contains ·) ||
    segments.any (fun segment =>
      folded.packagePrefixes.any fun start =>
        !start.isEmpty && start.toList.isPrefixOf segment.toList) ||
    hasNeighbours folded.cachePair segments ||
    segments.any (· == folded.pluginsFolder)

/-- The verdict on a path. -/
def Tokens.role (tokens : Tokens) (path : String) : Role :=
  let folded := tokens.folded
  ⟨isEditor folded (segments path), isExcluded folded (segments path)⟩

/-- The path of a script below a project's root; as written when it does not lie there. -/
def fromRoot (root path : String) : String :=
  (relativeTo? root path).getD path

end ScriptLint.Path
