/-
**A script in its project.**

* `Script` — an outline with the index and the catalog it is read against.
* `Script.target?` — what a call binds to. A bare call means a method of a type around it or of a base
  class, or of a type whose members are imported; a call on a dotted path means a method of the type,
  or of some type in the namespace, that the path names; any other call may mean an extension method.
* `Script.routineAt?` — the shortest routine around an offset.
* `Script.symbols` — these as a source of symbols.
* `Script.load` — the scripts of a project.
-/

import ScriptLint.Catalog.Builtin
import ScriptLint.Index.Build
import ScriptLint.Outline.Extract

namespace ScriptLint

/-- A script with what it is read against. -/
structure Script where
  outline : Outline
  usings : Usings
  resolver : Resolver
deriving Repr, DecidableEq, Inhabited

namespace Script

/-- A script of a project with the given index. -/
def ofOutline (catalog : Catalog) (index : Index) (outline : Outline) : Script :=
  ⟨outline, Usings.ofOutline outline index.globalUsings, ⟨catalog, index⟩⟩

/-- The scripts of a project. -/
def load (catalog : Catalog) (outlines : List Outline) : List Script :=
  outlines.map (ofOutline catalog (Index.build catalog outlines))

/-- A text as the only script of a project that adds nothing to the catalog. -/
def single (text : String) : Script :=
  let outline := Outline.read text
  ofOutline Catalog.builtin (Index.build Catalog.builtin [outline]) outline

/-- The names in sight at an offset. -/
def scopeAt (script : Script) (offset : Nat) : Scope :=
  Scope.ofOffset script.outline script.usings offset

/-! ### What calls bind to -/

/-- The method of a known type. -/
def methodOf (script : Script) (type name : String) : Target :=
  { name, containingType := some type, home := script.resolver.homeOf type }

/-- A bare call. -/
def bareTarget? (script : Script) (scope : Scope) (name : String) : Option Target :=
  let declaring := (scope.types.flatMap script.resolver.baseChain).find? fun type =>
    script.resolver.declares type name == some true
  match declaring with
  | some type => some (script.methodOf type name)
  | none =>
    scope.usings.statics.findSome? fun written => do
      let type ← script.resolver.resolve? written scope
      guard (script.resolver.declares type name != some false)
      pure (script.methodOf type name)

/-- A call of an extension method, on the result of the calls of `chain`. -/
def extensionTarget? (script : Script) (scope : Scope) (chain : List String) (name : String) :
    Option Target := do
  let set ← script.resolver.catalog.memberExtension? name chain scope.imported
  pure { name, containingType := none, home := none
         reducedFrom := some ⟨name, some set.container, some set.home⟩ }

/-- A method of the type that a dotted path names, or of a type in the namespace that it goes
through. -/
def pathTarget? (script : Script) (scope : Scope) (path name : String) : Option Target :=
  match script.resolver.resolve? path scope with
  | some type => some (script.methodOf type name)
  | none =>
    (script.resolver.namespacePrefix? path).map fun home =>
      { name, containingType := some path, home := some home }

/-- A call on a receiver. -/
def memberTarget? (script : Script) (scope : Scope) (receiver : Receiver) (name : String) :
    Option Target :=
  match receiver with
  | .path path =>
    (script.pathTarget? scope path name).orElse fun _ => script.extensionTarget? scope [] name
  | .call chain => script.extensionTarget? scope chain name
  | .expression => script.extensionTarget? scope [] name

/-- The name of constructors. -/
def constructorName : String := ".ctor"

/-- A query operator. -/
def queryTarget? (script : Script) (scope : Scope) (operator : String) : Option Target := do
  let set ← script.resolver.catalog.extension? operator scope.imported
  pure { name := operator, containingType := some set.container, home := some set.home }

/-- What a call of a shape binds to. -/
def shapeTarget? (script : Script) (scope : Scope) : CallShape → Option Target
  | .bare name => script.bareTarget? scope name
  | .member receiver name => script.memberTarget? scope receiver name
  | .construct type => script.pathTarget? scope type constructorName
  | .query operator => script.queryTarget? scope operator
  | .unnamed => none

/-- The shape of a call of the script; of several with one span and kind the last. -/
def shape? (script : Script) (call : Call) : Option CallShape :=
  (script.outline.calls.reverse.find? fun found =>
    found.span == call.span && found.kind == call.kind).map (·.shape)

/-- What a call binds to. -/
def target? (script : Script) (call : Call) : Option Target := do
  let shape ← script.shape? call
  script.shapeTarget? (script.scopeAt call.span.start) shape

/-! ### Routines -/

/-- Of two routines the shorter one, the first if they are equally long. -/
def shorterRoutine (best : Option RoutineDecl) (next : RoutineDecl) : Option RoutineDecl :=
  match best with
  | none => some next
  | some found => if next.span.length < found.span.length then some next else some found

/-- The declaration of the routine around an offset. -/
def routineDeclAt? (script : Script) (offset : Nat) : Option RoutineDecl :=
  (script.outline.routines.filter (·.span.contains offset)).foldl shorterRoutine none

/-- An interface of the type around the routine declares its name. -/
def implementsImplicitly (script : Script) (routine : RoutineDecl) : Bool :=
  match routine.containingType with
  | none => false
  | some type =>
    (script.resolver.allInterfaces type).any fun interface =>
      script.resolver.declares interface routine.name == some true

/-- The routine around an offset. -/
def routineAt? (script : Script) (offset : Nat) : Option Routine :=
  (script.routineDeclAt? offset).map fun routine =>
    { name := routine.name
      attributes := routine.attributes
      isOverride := routine.isOverride
      isInterfaceImpl := routine.isExplicitImpl || script.implementsImplicitly routine
      containingType := routine.containingType }

/-- The symbols of a script. -/
def symbols (script : Script) : Symbols where
  target? := script.target?
  routineAt? := script.routineAt?
  type? := script.resolver.lookup

end Script

end ScriptLint
