/-
**What a ban still reports when imports are removed.**

The fix of the ban on the editor's library deletes imports, and by imports names are read. A call that
the fix leaves in place may then bind to nothing, and what binds to nothing is not reported.

* `Script.StillBound` — a call is bound by a route along which every name means the same without the
  imports: through a path; to a method of a type around or of a base class; to a method whose type is
  imported for its members, by an import that stays.
  Whether a name does is seen in the script as it is (`Script.Readable.readsAlike`).
* `Script.Loses.isForbidden` — such a call is forbidden without the imports if it is with them.
* `Ban.offends_without` — so the ban on the editor's library still reports it.
-/

import Mathlib.Data.List.Find
import Mathlib.Data.List.TakeWhile
import ScriptLint.Proofs.Ban.Offends
import ScriptLint.Proofs.Catalog.Contents
import ScriptLint.Proofs.Script.Imports

namespace ScriptLint

/-! ### Routes -/

namespace Script

/-- The types around an offset, each with its base classes. -/
def searched (script : Script) (offset : Nat) : List String :=
  (script.scopeAt offset).types.flatMap script.resolver.baseChain

/-- The first of these types that declares a method. -/
def declaring? (script : Script) (offset : Nat) (name : String) : Option String :=
  (script.searched offset).find? fun type => script.resolver.declares type name == some true

/-- The method of a type whose members are imported. -/
def importedTarget? (script : Script) (scope : Scope) (name written : String) : Option Target := do
  let type ← script.resolver.resolve? written scope
  guard (script.resolver.declares type name != some false)
  pure (script.methodOf type name)

theorem bareTarget?_eq (script : Script) (offset : Nat) (name : String) :
    script.bareTarget? (script.scopeAt offset) name =
      match script.declaring? offset name with
      | some type => some (script.methodOf type name)
      | none => (script.scopeAt offset).usings.statics.findSome?
        (script.importedTarget? (script.scopeAt offset) name) :=
  rfl

theorem declaring?_of_searched {script : Script} {offset : Nat} {name type : String}
    {passed rest : List String} (searched : script.searched offset = passed ++ type :: rest)
    (vain : ∀ other ∈ passed, script.resolver.declares other name ≠ some true)
    (declares : script.resolver.declares type name = some true) :
    script.declaring? offset name = some type := by
  have missed : passed.find? (fun type => script.resolver.declares type name == some true) = none :=
    List.find?_eq_none.mpr fun other member => by simpa using vain other member
  rw [declaring?, searched, List.find?_append, missed, Option.none_or,
    List.find?_cons_of_pos (by simp [declares])]

/-- The first name in each base list of the types means the same in both scripts. -/
def BasesAlike (before after : Script) (types : List String) : Prop :=
  ∀ decl ∈ before.outline.types, decl.name ∈ types →
    ∀ first, decl.bases.head? = some first → before.ReadsAlike after decl.span.start first

/-- The call is bound in `before` by a route that is the same in `after`, where some imports are gone. -/
inductive StillBound (before after : Script) (gone : Import → Bool) (call : Call) : Prop
  /-- The path that it goes through means the same. -/
  | through {method : Option String} {path : String}
      (shaped : before.shape? call = some (.through method path))
      (alike : before.ReadsAlike after call.span.start path)
  /-- A type declares the method, and the bases of the types passed before it mean the same. -/
  | inherited {name type : String} {passed rest : List String}
      (shaped : before.shape? call = some (.bare name))
      (searched : before.searched call.span.start = passed ++ type :: rest)
      (vain : ∀ other ∈ passed, before.resolver.declares other name ≠ some true)
      (declares : before.resolver.declares type name = some true)
      (bases : before.BasesAlike after passed)
  /-- No type declares the method, and an import of members that stays gives it. -/
  | imported {name : String} {found : Import} {tried rest : List Import}
      (shaped : before.shape? call = some (.bare name))
      (vain : ∀ other ∈ before.searched call.span.start,
        before.resolver.declares other name ≠ some true)
      (bases : before.BasesAlike after (before.searched call.span.start))
      (imports : before.outline.imports.filter (·.ofMembers) = tried ++ found :: rest)
      (missed : ∀ other ∈ tried,
        before.importedTarget? (before.scopeAt call.span.start) name other.target = none)
      (binds : (before.importedTarget? (before.scopeAt call.span.start) name
        found.target).isSome = true)
      (stays : gone found = false)
      (alike : ∀ other ∈ tried ++ [found], gone other = false →
        before.ReadsAlike after call.span.start other.target)

/-! ### Two scripts of which one has lost imports -/

/-- The scripts make the same calls, and the same types are known and stand around. The second lacks the
imports that are gone, and a type has another base class in it only if a name in a base list means
something else. -/
structure Loses (before after : Script) (gone : Import → Bool) : Prop where
  directives : after.outline.directives = before.outline.directives
  shapes : after.shape? = before.shape?
  homes : after.resolver.homeOf = before.resolver.homeOf
  declares : after.resolver.declares = before.resolver.declares
  namespaces : after.resolver.isKnownNamespace = before.resolver.isKnownNamespace
  types : ∀ offset, (after.scopeAt offset).types = (before.scopeAt offset).types
  bases : ∀ type, before.BasesAlike after [type] →
    after.resolver.base? type = before.resolver.base? type
  statics : ∀ offset, (before.scopeAt offset).usings.statics =
    (before.outline.imports.filter (·.ofMembers)).map (·.target)
  kept : ∀ offset, (after.scopeAt offset).usings.statics =
    ((before.outline.imports.filter (·.ofMembers)).filter (!gone ·)).map (·.target)

theorem catalog_alone (catalog : Catalog) (outline : Outline) :
    (alone catalog outline).resolver.catalog = catalog :=
  rfl

theorem loses_without (catalog : Catalog) (outline : Outline) (gone : Import → Bool)
    (globals : List String) :
    (alone catalog outline).Loses (alone catalog (outline.without gone globals)) gone := by
  have same : (Index.build catalog [outline]).SameButBases
      (Index.build catalog [outline.without gone globals]) := Index.build_sameButBases rfl rfl
  have around (outline : Outline) (offset : Nat) : ((alone catalog outline).scopeAt offset).types =
      (Scope.typesAround outline offset).map (·.name) := rfl
  have directives (outline : Outline) : (alone catalog outline).outline.directives =
      outline.directives := rfl
  have shape (outline : Outline) (call : Call) : (alone catalog outline).shape? call =
      (outline.calls.reverse.find? fun found =>
        found.span == call.span && found.kind == call.kind).map (·.shape) := rfl
  exact {
    directives := by rw [directives, directives, Outline.without]
    shapes := funext fun call => by
      rw [shape, shape]
      unfold Outline.without
      rfl
    homes := Resolver.homeOf_congr same
    declares := Resolver.declares_congr same
    namespaces := Resolver.isKnownNamespace_congr same
    types := fun offset => by
      rw [around, around]
      unfold Scope.typesAround Outline.without
      rfl
    bases := fun _ alike => base?_congr rfl rfl fun decl isDeclared named =>
      alike decl isDeclared (List.mem_singleton.mpr named)
    statics := statics_alone catalog outline
    kept := fun offset => by
      rw [statics_alone, Outline.without, List.filter_filter, List.filter_filter]
      simp only [Bool.and_comm]
      rfl }

/-- The first import that gives a target. -/
theorem findSome?_target {target? : String → Option Target} {found : Import} {tried : List Import}
    (missed : ∀ other ∈ tried, target? other.target = none)
    (binds : (target? found.target).isSome = true) {rest : List Import} :
    ((tried ++ found :: rest).map (·.target)).findSome? target? = target? found.target := by
  have none : (tried.map (·.target)).findSome? target? = none := by simpa using missed
  obtain ⟨target, bound⟩ := Option.isSome_iff_exists.mp binds
  rw [List.map_append, List.findSome?_append, none, Option.none_or, List.map_cons,
    List.findSome?_cons, bound]

namespace Loses

variable {before after : Script} {gone : Import → Bool} (loses : before.Loses after gone)
  {offset : Nat} {name : String}
include loses

theorem methodOf_eq (type : String) : after.methodOf type name = before.methodOf type name := by
  rw [methodOf, methodOf, loses.homes]

theorem namespacePrefix?_eq (path : String) :
    after.resolver.namespacePrefix? path = before.resolver.namespacePrefix? path := by
  rw [Resolver.namespacePrefix?, Resolver.namespacePrefix?, loses.namespaces]

theorem importedTarget?_eq {written : String} (alike : before.ReadsAlike after offset written) :
    after.importedTarget? (after.scopeAt offset) name written =
      before.importedTarget? (before.scopeAt offset) name written := by
  have means : after.resolver.resolve? written (after.scopeAt offset) =
      before.resolver.resolve? written (before.scopeAt offset) := alike
  unfold importedTarget?
  simp only [means, loses.declares, loses.methodOf_eq]

/-- The search for a method goes the same way as far as the base classes are the same. -/
theorem declaring?_eq {passed : List String}
    (isPassed : (before.searched offset).takeWhile
      (fun type => !(before.resolver.declares type name == some true)) = passed)
    (bases : before.BasesAlike after passed) :
    after.declaring? offset name = before.declaring? offset name := by
  unfold declaring? searched
  rw [loses.declares, loses.types]
  refine Resolver.find?_flatMap_baseChain fun type member => loses.bases type ?_
  intro decl isDeclared named
  refine bases decl isDeclared (isPassed ▸ ?_)
  exact List.mem_singleton.mp named ▸ member

theorem bareTarget?_inherited {type : String} {passed rest : List String}
    (searched : before.searched offset = passed ++ type :: rest)
    (vain : ∀ other ∈ passed, before.resolver.declares other name ≠ some true)
    (declares : before.resolver.declares type name = some true)
    (bases : before.BasesAlike after passed) :
    after.bareTarget? (after.scopeAt offset) name = before.bareTarget? (before.scopeAt offset) name := by
  have isPassed : (before.searched offset).takeWhile
      (fun type => !(before.resolver.declares type name == some true)) = passed := by
    rw [searched, List.takeWhile_append_of_pos fun other member => by simpa using vain other member,
      List.takeWhile_cons_of_neg (by simp [declares]), List.append_nil]
  rw [bareTarget?_eq, bareTarget?_eq, loses.declaring?_eq isPassed bases,
    declaring?_of_searched searched vain declares]
  exact congrArg some (loses.methodOf_eq type)

theorem bareTarget?_imported {found : Import} {tried rest : List Import}
    (vain : ∀ other ∈ before.searched offset, before.resolver.declares other name ≠ some true)
    (bases : before.BasesAlike after (before.searched offset))
    (imports : before.outline.imports.filter (·.ofMembers) = tried ++ found :: rest)
    (missed : ∀ other ∈ tried,
      before.importedTarget? (before.scopeAt offset) name other.target = none)
    (binds : (before.importedTarget? (before.scopeAt offset) name found.target).isSome = true)
    (stays : gone found = false)
    (alike : ∀ other ∈ tried ++ [found], gone other = false →
      before.ReadsAlike after offset other.target) :
    after.bareTarget? (after.scopeAt offset) name = before.bareTarget? (before.scopeAt offset) name := by
  have isPassed : (before.searched offset).takeWhile
      (fun type => !(before.resolver.declares type name == some true)) = before.searched offset :=
    List.takeWhile_eq_self_iff.mpr fun other member => by simpa using vain other member
  have undeclared : before.declaring? offset name = none :=
    List.find?_eq_none.mpr fun other member => by simpa using vain other member
  have here : after.importedTarget? (after.scopeAt offset) name found.target =
      before.importedTarget? (before.scopeAt offset) name found.target :=
    loses.importedTarget?_eq (alike found (by simp) stays)
  have missedStill : ∀ other ∈ tried.filter (!gone ·),
      after.importedTarget? (after.scopeAt offset) name other.target = none := by
    intro other member
    obtain ⟨isTried, isKept⟩ := List.mem_filter.mp member
    rw [loses.importedTarget?_eq (alike other (by simp [isTried]) (by simpa using isKept)),
      missed other isTried]
  have bindsStill : (after.importedTarget? (after.scopeAt offset) name found.target).isSome = true := by
    rw [here]
    exact binds
  rw [bareTarget?_eq, bareTarget?_eq, loses.declaring?_eq isPassed bases, undeclared]
  dsimp only
  rw [loses.statics, loses.kept, imports, List.filter_append,
    List.filter_cons_of_pos (by simp [stays]), findSome?_target missedStill bindsStill, here,
    findSome?_target missed binds]

end Loses

end Script

/-! ### Verdicts -/

/-- No extension set of the catalog is in a forbidden namespace. -/
def Catalog.Spares (catalog : Catalog) (forbidden : List String) : Prop :=
  ∀ set ∈ catalog.extensions, ∀ outer ∈ forbidden, Name.isUnder outer set.home = false

theorem Script.extension_spared {script : Script} {forbidden : List String}
    (spares : script.resolver.catalog.Spares forbidden) (scope : Scope) (chain : List String)
    (name : String) :
    (((script.extensionTarget? scope chain name).bind (·.judgedBy)).any fun home =>
      forbidden.any fun outer => Name.isUnder outer home) = false := by
  rw [extensionTarget?]
  cases found : script.resolver.catalog.memberExtension? name chain scope.imported with
  | none => rfl
  | some set =>
    have spared := spares set (List.mem_of_find?_eq_some found)
    exact List.any_eq_false.mpr fun outer member => Bool.eq_false_iff.mp (spared outer member)

theorem Script.spares_alone (outline : Outline) :
    (alone Catalog.builtin outline).resolver.catalog.Spares ["UnityEditor"] := by
  unfold Catalog.Spares
  rw [catalog_alone, Catalog.extensions_builtin]
  decide +kernel

/-- **A call that is still bound is still forbidden.** -/
theorem Script.Loses.isForbidden {before after : Script} {gone : Import → Bool}
    (loses : before.Loses after gone) {forbidden : List String}
    (spares : before.resolver.catalog.Spares forbidden) {call : Call}
    (bound : before.StillBound after gone call)
    (reported : ScriptLint.isForbidden before.symbols forbidden call = true) :
    ScriptLint.isForbidden after.symbols forbidden call = true := by
  have still {shape : CallShape} (shaped : before.shape? call = some shape) :
      after.shape? call = some shape := by
    rw [loses.shapes, shaped]
  -- A bare call binds to the same method, so it is judged by the same namespace.
  have ofBare {name : String} (shaped : before.shape? call = some (.bare name))
      (same : after.bareTarget? (after.scopeAt call.span.start) name =
        before.bareTarget? (before.scopeAt call.span.start) name) :
      ScriptLint.isForbidden after.symbols forbidden call = true := by
    rw [isForbidden_of_shape shaped, judgedBy?, shapeTarget?] at reported
    rw [isForbidden_of_shape (still shaped), judgedBy?, shapeTarget?, same]
    exact reported
  cases bound with
  | @through method path shaped alike =>
    have means : after.resolver.resolve? path (after.scopeAt call.span.start) =
        before.resolver.resolve? path (before.scopeAt call.span.start) := alike
    rw [isForbidden_of_shape shaped, judgedBy?_through] at reported
    rw [isForbidden_of_shape (still shaped), judgedBy?_through, means]
    unfold judgedThrough at reported ⊢
    rw [loses.homes, loses.namespacePrefix?_eq]
    cases type : before.resolver.resolve? path (before.scopeAt call.span.start) with
    | some type =>
      rw [type] at reported
      exact reported
    | none =>
      rw [type] at reported
      cases home : before.resolver.namespacePrefix? path with
      | some home =>
        rw [home] at reported
        exact reported
      | none =>
        -- Only an extension method is left, and none is forbidden.
        rw [home] at reported
        cases method with
        | none => cases reported
        | some name =>
          have spared := extension_spared spares (before.scopeAt call.span.start) [] name
          exact absurd (spared.symm.trans reported) Bool.false_ne_true
  | inherited shaped searched vain declares bases =>
    exact ofBare shaped (loses.bareTarget?_inherited searched vain declares bases)
  | imported shaped vain bases imports missed binds stays alike =>
    exact ofBare shaped (loses.bareTarget?_imported vain bases imports missed binds stays alike)

/-! ### A script that imports the editor's library -/

section Importing

variable {catalog : Catalog} {outline : Outline} {name : String}

theorem Index.type?_undeclared (undeclared : ∀ decl ∈ outline.types, decl.name ≠ name) :
    (build catalog [outline]).type? name = none := by
  have none : ([outline].flatMap (·.types)).filter (·.name == name) = [] := by
    simpa using undeclared
  rw [type?_build, none]
  rfl

theorem Script.isKnown_undeclared (undeclared : ∀ decl ∈ outline.types, decl.name ≠ name) :
    (alone catalog outline).resolver.isKnown name = (catalog.type? name).isSome := by
  rw [alone, ofOutline, Resolver.isKnown, Index.type?_undeclared undeclared]
  rfl

/-- A name that the script's own types have no part in means the first reading that the catalog knows. -/
theorem Script.resolve?_undeclared {scope : Scope} (segment : Name.IsSegment name)
    (undeclared : ∀ reading ∈ Resolver.candidates scope name, ∀ decl ∈ outline.types,
      decl.name ≠ reading) :
    (alone catalog outline).resolver.resolve? name scope =
      (Resolver.candidates scope name).find? fun reading => (catalog.type? reading).isSome := by
  rw [Resolver.resolve?_eq segment.normalize_eq segment.nonempty]
  exact List.find?_congr fun reading member => isKnown_undeclared (undeclared reading member)

theorem Script.homeOf_undeclared (undeclared : ∀ decl ∈ outline.types, decl.name ≠ name) :
    (alone catalog outline).resolver.homeOf name = (catalog.type? name).bind (·.home) := by
  rw [alone, ofOutline, Resolver.homeOf, Index.type?_undeclared undeclared]

theorem Script.isInterface_undeclared (undeclared : ∀ decl ∈ outline.types, decl.name ≠ name) :
    (alone catalog outline).resolver.isInterface name =
      ((catalog.type? name).map (·.isInterface)).getD false := by
  rw [alone, ofOutline, Resolver.isInterface, Index.type?_undeclared undeclared]
  cases catalog.type? name <;> rfl

theorem Script.declares_undeclared (undeclared : ∀ decl ∈ outline.types, decl.name ≠ name)
    (method : String) : (alone catalog outline).resolver.declares name method =
      (catalog.type? name).bind fun type =>
        if type.methods.isEmpty then none else some (type.methods.contains method) := by
  rw [alone, ofOutline, Resolver.declares, Index.type?_undeclared undeclared]
  cases catalog.type? name <;> rfl

/-- The base class of a class with one declaration. -/
theorem Script.base?_declared {decl : TypeDecl} {first base : String} {rest : List String}
    (only : outline.types.filter (·.name == name) = [decl]) (bases : decl.bases = first :: rest)
    (means : (alone catalog outline).resolver.resolve? first
      ((alone catalog outline).scopeAt decl.span.start) = some base)
    (isClass : decl.isInterface = false)
    (isBase : (alone catalog outline).resolver.isInterface base = false) :
    (alone catalog outline).resolver.base? name = some base := by
  have declared : (alone catalog outline).declaredBase? decl = some base := by
    unfold declaredBase? Index.basesOf
    simp [bases, means, isClass, isBase]
  rw [base?_alone, only, ← declared]
  exact List.findSome?_singleton

theorem Resolver.baseChain_of_base {resolver : Resolver} {base : String}
    (isBase : resolver.base? name = some base) (other : base ≠ name) :
    ∃ rest, resolver.baseChain name = name :: base :: rest := by
  have twice : resolver.ancestors depthLimit name = name :: base ::
      match resolver.base? base with
      | some next => resolver.ancestors 62 next
      | none => [] := by
    rw [show depthLimit = 62 + 1 + 1 from rfl, ancestors_succ, isBase]
    exact congrArg (name :: ·) (ancestors_succ resolver 62 base)
  rw [baseChain, twice, untilRepeated, if_neg (by simp), untilRepeated,
    if_neg (by simpa using other)]
  exact ⟨_, rfl⟩

/-- A call in a class of a script that imports the editor's library. -/
def importing (bases : List String) (shape : CallShape) : Outline where
  text := ""
  directives := []
  imports := [⟨⟨0, 18⟩, "UnityEditor", none, false⟩]
  globalUsings := []
  calls := [⟨⟨⟨40, 60⟩, .invocation, "", none⟩, shape⟩]
  routines := []
  types := [⟨"Saver", none, false, bases, ["Load"], ⟨20, 90⟩⟩]
  namespaces := []
  hasErrors := false

/-- Where the script stands. -/
def saverPath : String :=
  "/virtual/Assets/Scripts/Saver.cs"

/-- The call of the script. -/
def saverCall : Call :=
  ⟨⟨40, 60⟩, .invocation, "", none⟩

theorem Ban.offends_saver_iff {script : Script} (plain : script.outline.directives = []) :
    (ofKind .editorApi).Offends {} (Path.fromRoot "/virtual" saverPath) script (.ofCall saverCall) ↔
      isForbidden script.symbols ["UnityEditor"] saverCall = true := by
  constructor
  · intro offends
    exact isForbidden_iff.mpr offends.covered
  · intro forbidden
    refine ⟨Path.Tokens.isSuppressed_role_iff.mp (by decide +kernel), ?_, ?_,
      isForbidden_iff.mp forbidden⟩
    · rw [plain, ← Directive.defines_iff]
      decide +kernel
    · rw [plain, ← Regions.mentions_iff]
      decide +kernel

end Importing

namespace Ban

/-- The imports of a script that the fix of a ban deletes: those that the ban reports. -/
def deletes (ban : Ban) (root : String) (tokens : Path.Tokens) (path : String) (script : Script)
    (found : Import) : Bool :=
  ban.reports (.ofScript root tokens path script) (.ofImport found)

theorem offends_of_loses {before after : Script} {gone : Import → Bool}
    (loses : before.Loses after gone) (spares : before.resolver.catalog.Spares ["UnityEditor"])
    {tokens : Path.Tokens} {file : String} {call : Call} (bound : before.StillBound after gone call)
    (reported : (ofKind .editorApi).Offends tokens file before (.ofCall call)) :
    (ofKind .editorApi).Offends tokens file after (.ofCall call) where
  admitted := reported.admitted
  undefined := by
    rw [loses.directives]
    exact reported.undefined
  unguarded := by
    rw [loses.directives]
    exact reported.unguarded
  covered := isForbidden_iff.mp (loses.isForbidden spares bound (isForbidden_iff.mpr reported.covered))

/-- **No call is hidden whose route is left.** The only script of a project is read once as it is and once
without the imports that the fix of the ban on the editor's library deletes, whatever is then imported
for the whole project. A call that the ban reports in the first is reported in the second, whether the
fix has an edit for it or not, if it is still bound: every name on the way to what it binds to means
the same, and it is not bound by a deleted import of members. -/
theorem offends_without (outline : Outline) (globals : List String) (root : String)
    (tokens : Path.Tokens) (path : String) (call : Call)
    (reported : (ofKind .editorApi).Offends tokens (Path.fromRoot root path)
      (Script.alone Catalog.builtin outline) (.ofCall call))
    (bound : (Script.alone Catalog.builtin outline).StillBound
      (Script.alone Catalog.builtin (outline.without
        ((ofKind .editorApi).deletes root tokens path (Script.alone Catalog.builtin outline)) globals))
      ((ofKind .editorApi).deletes root tokens path (Script.alone Catalog.builtin outline)) call) :
    (ofKind .editorApi).Offends tokens (Path.fromRoot root path)
      (Script.alone Catalog.builtin (outline.without
        ((ofKind .editorApi).deletes root tokens path (Script.alone Catalog.builtin outline)) globals))
      (.ofCall call) := by
  have loses := Script.loses_without Catalog.builtin outline
    ((ofKind .editorApi).deletes root tokens path (Script.alone Catalog.builtin outline)) globals
  exact offends_of_loses loses (Script.spares_alone outline) bound reported

end Ban

/-- A class with a base class of the editor's library, which it names in full, calls a method of it. -/
def windowed : Outline :=
  importing ["UnityEditor.EditorWindow"] (.bare "GetWindow")

theorem isKnown_window : (Script.alone Catalog.builtin windowed).resolver.isKnown
    "UnityEditor.EditorWindow" = true := by
  rw [Script.isKnown_undeclared (by decide +kernel), Catalog.type?_builtin]
  decide +kernel

theorem base?_windowed : (Script.alone Catalog.builtin windowed).resolver.base? "Saver" =
    some "UnityEditor.EditorWindow" := by
  have isClass : (Script.alone Catalog.builtin windowed).resolver.isInterface
      "UnityEditor.EditorWindow" = false := by
    rw [Script.isInterface_undeclared (by decide +kernel), Catalog.type?_builtin]
    decide +kernel
  have parts : windowed.types.filter (·.name == "Saver") =
      [⟨"Saver", none, false, ["UnityEditor.EditorWindow"], ["Load"], ⟨20, 90⟩⟩] := by decide +kernel
  exact Script.base?_declared parts rfl
    (Resolver.resolve?_of_known (by decide +kernel) (by decide) isKnown_window) rfl isClass

theorem searched_windowed : ∃ rest, (Script.alone Catalog.builtin windowed).searched
    saverCall.span.start = ["Saver"] ++ "UnityEditor.EditorWindow" :: rest := by
  have types : ((Script.alone Catalog.builtin windowed).scopeAt saverCall.span.start).types =
      ["Saver"] := by decide +kernel
  obtain ⟨rest, chain⟩ := Resolver.baseChain_of_base base?_windowed (by decide)
  refine ⟨rest, ?_⟩
  rw [Script.searched, types, List.flatMap_singleton, chain, List.singleton_append]

theorem declares_windowed :
    (Script.alone Catalog.builtin windowed).resolver.declares "Saver" "GetWindow" = some false ∧
      (Script.alone Catalog.builtin windowed).resolver.declares "UnityEditor.EditorWindow" "GetWindow" =
        some true := by
  have same : (Script.alone Catalog.builtin windowed).resolver.declares =
      (⟨Catalog.builtin, Index.names [windowed]⟩ : Resolver).declares :=
    Resolver.declares_congr (Index.names_sameButBases Catalog.builtin windowed)
  constructor
  · rw [same]
    decide +kernel
  · rw [Script.declares_undeclared (by decide +kernel), Catalog.type?_builtin]
    decide +kernel

/-- The import is deleted, and the call is still reported. -/
theorem Ban.offends_without_inherited :
    let before := Script.alone Catalog.builtin windowed
    let gone := (ofKind .editorApi).deletes "/virtual" {} saverPath before
    (ofKind .editorApi).Offends {} (Path.fromRoot "/virtual" saverPath) before (.ofCall saverCall) ∧
      (windowed.without gone []).imports = [] ∧
      (ofKind .editorApi).Offends {} (Path.fromRoot "/virtual" saverPath)
        (Script.alone Catalog.builtin (windowed.without gone [])) (.ofCall saverCall) := by
  intro before gone
  have shaped : before.shape? saverCall = some (.bare "GetWindow") := by decide +kernel
  have alike : before.BasesAlike (Script.alone Catalog.builtin (windowed.without gone [])) ["Saver"] := by
    intro decl isDeclared _ first isFirst
    obtain rfl := List.mem_singleton.mp isDeclared
    obtain rfl := Option.some.inj isFirst
    have normal : Name.normalize "UnityEditor.EditorWindow" = "UnityEditor.EditorWindow" := by
      decide +kernel
    refine Script.Readable.readsAlike (.inl ⟨"UnityEditor.EditorWindow", ?_, isKnown_window⟩)
    rw [normal]
    exact List.mem_cons_self
  obtain ⟨rest, searched⟩ := searched_windowed
  have vain : ∀ other ∈ ["Saver"], before.resolver.declares other "GetWindow" ≠ some true := by
    rw [List.forall_mem_singleton, declares_windowed.1]
    decide
  have home : before.resolver.homeOf "UnityEditor.EditorWindow" = some "UnityEditor" := by
    rw [Script.homeOf_undeclared (by decide +kernel), Catalog.type?_builtin]
    decide +kernel
  have forbidden : isForbidden before.symbols ["UnityEditor"] saverCall = true := by
    rw [Script.isForbidden_of_shape shaped, Script.judgedBy?, Script.shapeTarget?,
      Script.bareTarget?_eq, Script.declaring?_of_searched searched vain declares_windowed.2]
    dsimp only
    rw [Script.methodOf, home]
    decide +kernel
  have offends := (Ban.offends_saver_iff rfl).mpr forbidden
  exact ⟨offends, by decide +kernel, Ban.offends_without windowed [] "/virtual" {} saverPath saverCall
    offends (.inherited shaped searched vain declares_windowed.2 alike)⟩

/-- **A call that is hidden.** The script calls a method of a type that it knows by the import, and not as
a statement. The fix deletes the import and has no edit for the call, which then binds to nothing. -/
theorem Ban.offends_without_unresolved :
    let ban := Ban.ofKind .editorApi
    let outline := importing [] (.through (some "LoadMainAssetAtPath") "AssetDatabase")
    let before := Script.alone Catalog.builtin outline
    let gone := ban.deletes "/virtual" {} saverPath before
    ban.Offends {} (Path.fromRoot "/virtual" saverPath) before (.ofCall saverCall) ∧
      ban.kind.remedy.edit? outline.text outline.nodes saverCall.span = none ∧
      (outline.without gone []).imports = [] ∧
      ¬ ban.Offends {} (Path.fromRoot "/virtual" saverPath)
        (Script.alone Catalog.builtin (outline.without gone [])) (.ofCall saverCall) := by
  intro ban outline before gone
  have removed : (outline.without gone []).imports = [] := by decide +kernel
  have edit : ban.kind.remedy.edit? outline.text outline.nodes saverCall.span = none := by
    decide +kernel
  have segment : Name.IsSegment "AssetDatabase" := by decide +kernel
  have forbidden : isForbidden before.symbols ["UnityEditor"] saverCall = true := by
    have shaped : before.shape? saverCall =
        some (.through (some "LoadMainAssetAtPath") "AssetDatabase") := by decide +kernel
    have scope : before.scopeAt saverCall.span.start =
        ⟨[], ["Saver"], ⟨["UnityEditor"], [], []⟩⟩ := by decide +kernel
    have means : before.resolver.resolve? "AssetDatabase" (before.scopeAt saverCall.span.start) =
        some "UnityEditor.AssetDatabase" := by
      rw [scope, Script.resolve?_undeclared segment (by decide +kernel)]
      simp only [Catalog.type?_builtin]
      decide +kernel
    rw [Script.isForbidden_of_shape shaped, Script.judgedBy?_through, means, Script.judgedThrough,
      Script.homeOf_undeclared (by decide +kernel), Catalog.type?_builtin]
    decide +kernel
  have harmless : isForbidden (Script.alone Catalog.builtin (outline.without gone [])).symbols
      ["UnityEditor"] saverCall = false := by
    have shaped : (Script.alone Catalog.builtin (outline.without gone [])).shape? saverCall =
        some (.through (some "LoadMainAssetAtPath") "AssetDatabase") := by decide +kernel
    have scope : (Script.alone Catalog.builtin (outline.without gone [])).scopeAt
        saverCall.span.start = ⟨[], ["Saver"], ⟨[], [], []⟩⟩ := by decide +kernel
    have means : (Script.alone Catalog.builtin (outline.without gone [])).resolver.resolve?
        "AssetDatabase" ((Script.alone Catalog.builtin (outline.without gone [])).scopeAt
          saverCall.span.start) = none := by
      rw [scope, Script.resolve?_undeclared segment (by decide +kernel)]
      simp only [Catalog.type?_builtin]
      decide +kernel
    rw [Script.isForbidden_of_shape shaped, Script.judgedBy?_through, means, Script.judgedThrough,
      Resolver.namespacePrefix?_segment segment, Option.none_or, Option.bind_some]
    exact Script.extension_spared (Script.spares_alone _) _ _ _
  refine ⟨(Ban.offends_saver_iff rfl).mpr forbidden, edit, removed, fun offends => ?_⟩
  rw [Ban.offends_saver_iff rfl, harmless] at offends
  cases offends

end ScriptLint
