/-
**The names in sight at an offset.**

* `Usings` — the using directives that hold for a script: its own and those of the whole project.
  They hold for all of the script, wherever they stand in it. Of two aliases of one name the last
  counts.
* `Scope` — the namespaces and types around an offset, innermost first, with the usings.
* `Scope.ofOffset` — the innermost namespace is the one that starts last of those that hold the
  offset; its parents follow it.
-/

import ScriptLint.Name
import ScriptLint.Outline

namespace ScriptLint

/-- Appends a name unless it is there. -/
def addNew (names : List String) (name : String) : List String :=
  if names.contains name then names else names ++ [name]

/-- The using directives that hold for a script. -/
structure Usings where
  namespaces : List String
  aliases : List (String × String)
  statics : List String
deriving Repr, DecidableEq, Inhabited

namespace Usings

/-- What one import adds. -/
def add (usings : Usings) (found : Import) : Usings :=
  match found.localName, found.isStatic with
  | some name, _ =>
    { usings with
      aliases := usings.aliases.filter (·.1 != name) ++ [(name, found.target)] }
  | none, true => { usings with statics := usings.statics ++ [found.target] }
  | none, false => { usings with namespaces := usings.namespaces ++ [found.target] }

/-- The usings of a script in a project with the given global ones. -/
def ofOutline (outline : Outline) (globalUsings : List String) : Usings :=
  let own := outline.imports.foldl add ⟨[], [], []⟩
  { own with namespaces := globalUsings.foldl addNew own.namespaces }

/-- What an alias stands for. -/
def meaning? (usings : Usings) (name : String) : Option String :=
  usings.aliases.lookup name

end Usings

/-- The names in sight. -/
structure Scope where
  namespaces : List String
  types : List String
  usings : Usings
deriving Repr, DecidableEq, Inhabited

namespace Scope

/-- Of two namespaces the one that starts later, the second if they start together. -/
def laterStart (best : Option NamespaceScope) (next : NamespaceScope) : Option NamespaceScope :=
  match best with
  | none => some next
  | some found => if found.span.start ≤ next.span.start then some next else some found

/-- The innermost namespace around an offset. -/
def innermost? (outline : Outline) (offset : Nat) : Option NamespaceScope :=
  (outline.namespaces.filter (·.span.contains offset)).foldl laterStart none

/-- The types around an offset, those that start later first. -/
def typesAround (outline : Outline) (offset : Nat) : List TypeDecl :=
  (outline.types.filter (·.span.contains offset)).mergeSort fun a b =>
    b.span.start ≤ a.span.start

/-- The scope at an offset of a script. -/
def ofOffset (outline : Outline) (usings : Usings) (offset : Nat) : Scope where
  namespaces :=
    match innermost? outline offset with
    | some found => Name.withParents found.name
    | none => []
  types := (typesAround outline offset).map (·.name)
  usings

/-- The namespaces whose extension methods are in sight. -/
def imported (scope : Scope) : List String :=
  scope.namespaces.foldl addNew scope.usings.namespaces

end Scope

end ScriptLint
