/-
**Where a call stands and what it reaches.**

Two questions decide whether a call is reported: does it bind to a method of a forbidden library,
and does it stand in a routine that runs every frame. A call that binds to nothing is not forbidden,
and a call outside every routine is not restricted.

* `typeChain` — a type and its base classes, up to the first repetition and at most `depthLimit`.
* `implementedInterfaces` — the interfaces that the chain lists, and those that they list, found by
  a worklist that takes the newest entry first; at most `depthLimit`.
* `CallSite.ofCall` — what is known about the surroundings of a call.
* `isForbidden`, `isRestricted` — the two verdicts.
-/

import ScriptLint.Name
import ScriptLint.Symbol
import ScriptLint.Text.Case

namespace ScriptLint

/-- The bound on the length of a chain of types and on the number of interfaces. -/
def depthLimit : Nat := 64

/-- The chain goes on with `next`, unless that is in it already or the chain is full. -/
def typeChainFrom (symbols : Symbols) (chain : List String) (next : Option String) :
    List String :=
  match next with
  | none => chain
  | some name =>
    if chain.length < depthLimit ∧ name ∉ chain then
      typeChainFrom symbols (chain ++ [name]) ((symbols.type? name).bind (·.baseType))
    else
      chain
termination_by depthLimit - chain.length
decreasing_by simp only [List.length_append, List.length_singleton]; omega

/-- A type, its base class, the base class of that, and so on. -/
def typeChain (symbols : Symbols) (start : Option String) : List String :=
  typeChainFrom symbols [] start

/-- The interfaces that a type lists. -/
def listedInterfaces (symbols : Symbols) (name : String) : List String :=
  match symbols.type? name with
  | some type => type.interfaces
  | none => []

/-- The interfaces found so far, with those that the worklist leads to. -/
def collectInterfaces (symbols : Symbols) (found pending : List String) : List String :=
  match pending with
  | [] => found
  | name :: rest =>
    if found.length < depthLimit ∧ name ∉ found then
      collectInterfaces symbols (found ++ [name])
        ((listedInterfaces symbols name).reverse ++ rest)
    else
      collectInterfaces symbols found rest
termination_by (depthLimit - found.length, pending.length)
decreasing_by
  · apply Prod.Lex.left
    simp only [List.length_append, List.length_singleton]
    omega
  · apply Prod.Lex.right
    simp

/-- The interfaces that lie behind a chain of types. -/
def implementedInterfaces (symbols : Symbols) (chain : List String) : List String :=
  collectInterfaces symbols [] (chain.flatMap (listedInterfaces symbols)).reverse

/-- Puts a name in its place among names in increasing order, unless it is there. -/
def insertSorted (name : String) : List String → List String
  | [] => [name]
  | first :: rest =>
    if name = first then
      first :: rest
    else if name < first then
      name :: first :: rest
    else
      first :: insertSorted name rest

/-- The names of a list in increasing order, each once. -/
def sortedSet (names : List String) : List String :=
  names.foldr insertSorted []

/-- The surroundings of a call. -/
structure CallSite where
  method : Option String
  isOverrideOrInterfaceImpl : Bool
  /-- The names of the routine's attributes in increasing order, each once. -/
  attributes : List String
  typeChain : List String
  interfaces : List String
deriving Repr, DecidableEq, Inhabited

/-- The surroundings of a call, as far as the symbols tell. -/
def CallSite.ofCall (symbols : Symbols) (call : Call) : CallSite :=
  match symbols.routineAt? call.span.start with
  | none => ⟨none, false, [], [], []⟩
  | some routine =>
    let chain := ScriptLint.typeChain symbols routine.containingType
    { method := some routine.name
      isOverrideOrInterfaceImpl := routine.isOverride || routine.isInterfaceImpl
      attributes := sortedSet routine.attributes
      typeChain := chain
      interfaces := implementedInterfaces symbols chain }

/-- The method's namespace lies under one of the forbidden ones. -/
def Method.isUnder (forbidden : List String) (method : Method) : Bool :=
  match method.home with
  | some home => forbidden.any fun outer => Name.isUnder outer home
  | none => false

/-- A call that binds to `target` reaches a forbidden namespace, by itself or as the extension
method that it really is. -/
def Target.isForbidden (forbidden : List String) (target : Target) : Bool :=
  target.toMethod.isUnder forbidden ||
    match target.reducedFrom with
    | some method => method.isUnder forbidden
    | none => false

/-- The call binds to a method of a forbidden namespace. -/
def isForbidden (symbols : Symbols) (forbidden : List String) (call : Call) : Bool :=
  match symbols.target? call with
  | some target => target.isForbidden forbidden
  | none => false

/-- Which routines run every frame. -/
structure Restriction where
  /-- Names of such routines, ASCII case aside. -/
  names : List String
  /-- Texts in the name of an attribute that marks one, case aside. -/
  attributeMarks : List String
  /-- Texts in the name of an interface whose update methods are such, case aside. -/
  interfaceMarks : List String
  /-- The base class of components that have such routines. -/
  componentType : String
deriving Repr, DecidableEq, Inhabited

/-- The messages that the engine sends every frame or every physics step. -/
def Restriction.perFrame : Restriction where
  names :=
    ["Update", "LateUpdate", "FixedUpdate", "OnGUI", "OnRenderObject", "OnWillRenderObject",
      "OnPreRender", "OnPostRender", "OnRenderImage", "OnAnimatorMove", "OnAnimatorIK",
      "OnTriggerStay", "OnTriggerStay2D", "OnCollisionStay", "OnCollisionStay2D"]
  attributeMarks := ["PerFrame", "HotPath"]
  interfaceMarks := ["IUpdatable", "ITickable", "ILateTickable", "IFixedTickable"]
  componentType := "UnityEngine.MonoBehaviour"

namespace Restriction

/-- The name is one of the restricted ones. -/
def hasName (restriction : Restriction) (name : String) : Bool :=
  restriction.names.any (Text.equalIgnoringAsciiCase · name)

/-- Some name holds one of the marks. -/
def holdsMark (marks names : List String) : Bool :=
  names.any fun name => marks.any (Text.hasInfixIgnoringCase · name)

/-- The routine runs every frame: by its name, by an attribute, as an override or an implementation,
as a message of a component, or as the update method of an interface. -/
def covers (restriction : Restriction) (symbols : Symbols) (routine : Routine) : Bool :=
  let named := restriction.hasName routine.name
  let chain := typeChain symbols routine.containingType
  named ||
    holdsMark restriction.attributeMarks routine.attributes ||
    ((routine.isOverride || routine.isInterfaceImpl) && named) ||
    (named && chain.contains restriction.componentType) ||
    ((named || Text.hasInfixIgnoringCase "Update" routine.name) &&
      holdsMark restriction.interfaceMarks (implementedInterfaces symbols chain))

end Restriction

/-- The call stands in a routine that runs every frame. -/
def isRestricted (symbols : Symbols) (restriction : Restriction) (call : Call) : Bool :=
  match symbols.routineAt? call.span.start with
  | some routine => restriction.covers symbols routine
  | none => false

end ScriptLint
