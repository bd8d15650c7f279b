/-
**What a written name may be read as.**

* `inside_mem_candidates` — a namespace that is imported or around offers a reading of every name.
* `expandAlias?_head` — the reading by an alias puts what the alias stands for in place of the first
  segment.
* `resolve?_eq` — a name means its first reading that is known; `resolve?_of_known` — a known normal name
  means itself in every scope.
* `namespacePrefix?_segment` — a name of one segment goes through no namespace.
* `Script.judgedBy?` — the namespace of what a call of a shape binds to; `Script.isForbidden_of_shape` —
  by this namespace alone it is judged; `Script.judgedBy?_through` — which it is for a call through a
  dotted path.
-/

import Mathlib.Data.Option.Basic
import ScriptLint.Proofs.Index.Order
import ScriptLint.Proofs.Name.Segments
import ScriptLint.Proofs.Name.Under
import ScriptLint.Script

namespace ScriptLint

/-- A search that only one member can end. -/
theorem find?_of_unique {α : Type} {p : α → Bool} {members : List α} {a : α} (member : a ∈ members)
    (unique : ∀ b ∈ members, p b = true → b = a) :
    members.find? p = if p a then some a else none := by
  split
  next holds =>
    cases found : members.find? p with
    | none => exact absurd holds (List.find?_eq_none.mp found a member)
    | some b => rw [unique b (List.mem_of_find?_eq_some found) (List.find?_some found)]
  next fails =>
    refine List.find?_eq_none.mpr fun b isIn holds => fails ?_
    rw [← unique b isIn holds, holds]

namespace Resolver

variable {resolver : Resolver} {scope : Scope}

/-! ### Readings -/

theorem inside_mem_candidates {outer : String} (visible : outer ∈ scope.imported) (name : String) :
    outer ++ "." ++ name ∈ candidates scope name := by
  unfold candidates
  simp only [List.mem_append, List.mem_map]
  rcases mem_foldl_addNew.mp visible with imported | around
  · exact .inr ⟨outer, imported, rfl⟩
  · exact .inl (.inl (.inr ⟨outer, around, rfl⟩))

/-- **The reading by an alias.** The first segment may be any text without a dot. -/
theorem expandAlias?_head (usings : Usings) {name tail : String} (noDot : '.' ∉ name.toList)
    (isTail : Name.IsTail tail) :
    expandAlias? usings (name ++ tail) = (usings.meaning? name).map (· ++ tail) := by
  rcases Name.isTail_cases isTail with rfl | ⟨rest, split⟩
  · have alone : List.splitOn '.' (name ++ "").toList = [name.toList] := by
      rw [String.append_empty, List.splitOn_eq_singleton noDot]
    unfold expandAlias?
    rw [alone]
    simp
  · have parts : List.splitOn '.' (name ++ tail).toList =
        name.toList :: List.splitOn '.' rest := by
      rw [String.toList_append, split, List.splitOn_append_cons_self_of_not_mem noDot]
    have tail_eq : "." ++ String.ofList rest = tail := by
      apply String.toList_inj.mp
      rw [split]
      simp
    obtain ⟨piece, more, cut⟩ :=
      List.exists_cons_of_ne_nil (List.splitOn_ne_nil '.' rest)
    unfold expandAlias?
    rw [parts, cut]
    dsimp only
    rw [← cut, List.intercalate_splitOn, String.ofList_toList]
    simp only [String.append_assoc, tail_eq]

theorem expandAlias?_append (usings : Usings) {name tail : String} (segment : Name.IsSegment name)
    (isTail : Name.IsTail tail) :
    expandAlias? usings (name ++ tail) = (usings.meaning? name).map (· ++ tail) :=
  expandAlias?_head usings segment.dot_not_mem isTail

/-! ### Meanings -/

theorem resolve?_eq {written name : String} (normal : Name.normalize written = name)
    (nonempty : name ≠ "") :
    resolver.resolve? written scope = (candidates scope name).find? resolver.isKnown := by
  unfold resolve?
  rw [normal, if_neg (by simpa using nonempty)]

/-- What is known and normal means itself, whatever else is in sight. -/
theorem resolve?_of_known {name : String} (normal : Name.normalize name = name)
    (nonempty : name ≠ "") (known : resolver.isKnown name = true) :
    resolver.resolve? name scope = some name := by
  rw [resolve?_eq normal nonempty]
  exact List.find?_cons_of_pos known

/-- A name of one segment goes through no namespace. -/
theorem namespacePrefix?_segment {name : String} (segment : Name.IsSegment name) :
    resolver.namespacePrefix? name = none := by
  unfold namespacePrefix?
  rw [List.splitOn_eq_singleton segment.dot_not_mem]
  rfl

end Resolver

/-! ### Verdicts -/

/-- A call through a dotted path: of a method, or of the constructor if none is given. -/
def CallShape.through (method : Option String) (path : String) : CallShape :=
  match method with
  | some name => .member (.path path) name
  | none => .construct path

namespace Target

/-- A target is the method itself, or it is reduced from a method and has no namespace of its own. -/
def IsPlain (target : Target) : Prop :=
  target.reducedFrom = none ∨ target.home = none

/-- The namespace by which a call is judged that binds to the target. -/
def judgedBy (target : Target) : Option String :=
  target.home.or (target.reducedFrom.bind (·.home))

theorem isForbidden_eq {target : Target} (plain : target.IsPlain) (forbidden : List String) :
    target.isForbidden forbidden =
      target.judgedBy.any fun home => forbidden.any fun outer => Name.isUnder outer home := by
  have judge (method : Method) : method.isUnder forbidden =
      method.home.any fun home => forbidden.any fun outer => Name.isUnder outer home := by
    unfold Method.isUnder
    cases method.home <;> rfl
  unfold isForbidden judgedBy
  rw [judge]
  rcases plain with whole | reduced
  · rw [whole, Option.bind_none, Option.or_none, Bool.or_false]
  · rw [reduced, Option.none_or, Option.any_none, Bool.false_or]
    cases target.reducedFrom with
    | none => rfl
    | some method => exact judge method

end Target

namespace Script

variable {script : Script} {scope : Scope}

theorem bareTarget?_isPlain {name : String} {target : Target}
    (bound : script.bareTarget? scope name = some target) : target.IsPlain := by
  unfold bareTarget? at bound
  dsimp only at bound
  split at bound
  · cases bound
    exact .inl rfl
  · obtain ⟨written, -, found⟩ := List.exists_of_findSome?_eq_some bound
    simp only [Option.bind_eq_bind, Option.bind_eq_some_iff, Option.pure_def,
      Option.some.injEq] at found
    obtain ⟨type, -, -, -, rfl⟩ := found
    exact .inl rfl

theorem pathTarget?_isPlain {path name : String} {target : Target}
    (bound : script.pathTarget? scope path name = some target) : target.IsPlain := by
  unfold pathTarget? at bound
  split at bound
  · cases bound
    exact .inl rfl
  · obtain ⟨home, -, rfl⟩ := Option.map_eq_some_iff.mp bound
    exact .inl rfl

theorem extensionTarget?_isPlain {chain : List String} {name : String} {target : Target}
    (bound : script.extensionTarget? scope chain name = some target) : target.IsPlain := by
  unfold extensionTarget? at bound
  simp only [Option.bind_eq_bind, Option.bind_eq_some_iff, Option.pure_def,
    Option.some.injEq] at bound
  obtain ⟨set, -, rfl⟩ := bound
  exact .inr rfl

theorem memberTarget?_path (script : Script) (scope : Scope) (path name : String) :
    script.memberTarget? scope (.path path) name =
      (script.pathTarget? scope path name).or (script.extensionTarget? scope [] name) := by
  rw [memberTarget?]
  generalize script.pathTarget? scope path name = direct, script.extensionTarget? scope [] name = other
  cases direct <;> rfl

theorem shapeTarget?_isPlain {shape : CallShape} {target : Target}
    (bound : script.shapeTarget? scope shape = some target) : target.IsPlain := by
  cases shape <;> rw [shapeTarget?] at bound
  case bare name => exact bareTarget?_isPlain bound
  case member receiver name =>
    cases receiver with
    | path path =>
      rw [memberTarget?_path, Option.or_eq_some_iff] at bound
      rcases bound with direct | ⟨-, extension⟩
      · exact pathTarget?_isPlain direct
      · exact extensionTarget?_isPlain extension
    | call chain =>
      rw [memberTarget?] at bound
      exact extensionTarget?_isPlain bound
    | expression =>
      rw [memberTarget?] at bound
      exact extensionTarget?_isPlain bound
  case construct type => exact pathTarget?_isPlain bound
  case query operator =>
    simp only [queryTarget?, Option.bind_eq_bind, Option.bind_eq_some_iff,
      Option.pure_def, Option.some.injEq] at bound
    obtain ⟨set, -, rfl⟩ := bound
    exact .inl rfl
  case unnamed => cases bound

/-- The namespace by which a call of a shape is judged. -/
def judgedBy? (script : Script) (scope : Scope) (shape : CallShape) : Option String :=
  (script.shapeTarget? scope shape).bind (·.judgedBy)

/-- **A call is judged by the namespace that its shape leads to.** -/
theorem isForbidden_of_shape {call : Call} {shape : CallShape}
    (shaped : script.shape? call = some shape) (forbidden : List String) :
    isForbidden script.symbols forbidden call =
      (script.judgedBy? (script.scopeAt call.span.start) shape).any fun home =>
        forbidden.any fun outer => Name.isUnder outer home := by
  have target_eq : script.symbols.target? call =
      script.shapeTarget? (script.scopeAt call.span.start) shape := by
    show (script.shape? call).bind _ = _
    rw [shaped, Option.bind_some]
  unfold isForbidden judgedBy?
  rw [target_eq]
  cases bound : script.shapeTarget? (script.scopeAt call.span.start) shape with
  | none => rfl
  | some target => exact target.isForbidden_eq (shapeTarget?_isPlain bound) forbidden

/-- The namespace by which a call through a path is judged if the path means `type?`. -/
def judgedThrough (script : Script) (scope : Scope) (method : Option String) (path : String)
    (type? : Option String) : Option String :=
  match type? with
  | some type => script.resolver.homeOf type
  | none =>
    (script.resolver.namespacePrefix? path).or
      (method.bind fun name => (script.extensionTarget? scope [] name).bind (·.judgedBy))

theorem judgedBy?_through (script : Script) (scope : Scope) (method : Option String)
    (path : String) : script.judgedBy? scope (.through method path) =
      script.judgedThrough scope method path (script.resolver.resolve? path scope) := by
  unfold judgedThrough
  cases means : script.resolver.resolve? path scope with
  | some type =>
    have bound (name : String) : script.pathTarget? scope path name =
        some (script.methodOf type name) := by
      rw [pathTarget?, means]
    cases method with
    | none =>
      rw [judgedBy?, CallShape.through, shapeTarget?, bound]
      simp [methodOf, Target.judgedBy]
    | some name =>
      rw [judgedBy?, CallShape.through, shapeTarget?, memberTarget?_path, bound, Option.some_or]
      simp [methodOf, Target.judgedBy]
  | none =>
    cases method with
    | none =>
      rw [judgedBy?, CallShape.through, shapeTarget?, pathTarget?, means]
      cases script.resolver.namespacePrefix? path <;> rfl
    | some name =>
      rw [judgedBy?, CallShape.through, shapeTarget?, memberTarget?_path, pathTarget?, means]
      cases script.resolver.namespacePrefix? path <;> rfl

end Script

/-! ### One call -/

/-- A call of nothing in particular. -/
def someCall : Call :=
  ⟨⟨0, 9⟩, .invocation, "", none⟩

/-- A script of one call, without declarations of its own. -/
def calling (catalog : Catalog) (usings : Usings) (shape : CallShape) : Script where
  outline := {
    text := "", directives := [], imports := [], globalUsings := []
    calls := [⟨someCall, shape⟩]
    routines := [], types := [], namespaces := [], hasErrors := false }
  usings
  resolver := ⟨catalog, ⟨[], [], []⟩⟩

section Calling

variable {catalog : Catalog} {usings : Usings} {shape : CallShape}

theorem scopeAt_calling (offset : Nat) :
    (calling catalog usings shape).scopeAt offset = ⟨[], [], usings⟩ := by
  simp [calling, Script.scopeAt, Scope.ofOffset, Scope.innermost?, Scope.typesAround]

theorem catalog_calling : (calling catalog usings shape).resolver.catalog = catalog :=
  rfl

theorem isKnown_calling (name : String) :
    (calling catalog usings shape).resolver.isKnown name = (catalog.type? name).isSome := by
  simp [calling, Resolver.isKnown, Index.type?]

theorem homeOf_calling (name : String) :
    (calling catalog usings shape).resolver.homeOf name = (catalog.type? name).bind (·.home) := by
  simp [calling, Resolver.homeOf, Index.type?]

theorem shape?_calling : (calling catalog usings shape).shape? someCall = some shape :=
  rfl

end Calling

end ScriptLint
