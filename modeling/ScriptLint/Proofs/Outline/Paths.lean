/-
**Paths of names.**

The receiver of a call may be a chain of member accesses. Its path is put together from the names in it,
each normalized by itself, while a chain that is written as a type is normalized as a whole. Both ways
come to the same name.

* `namesOf` — the names that an expression accesses one after another, the outermost first.
* `path?_eq_intercalate` — a path is made of these names, with dots between them.
* `IsChain` — an expression that is written as its names with dots between them, where marks and
  `global::` stand only at its ends.
* `path?_piecewise` — what normalizing leaves of a name, of two names, and of a chain of names.
-/

import ScriptLint.Outline.Extract
import ScriptLint.Proofs.Name.Normal

namespace ScriptLint.Outline

open Source

variable {text : List Char} {tree : Tree}

/-- The kinds of expressions that are names by themselves. -/
def isNameKind : Kind → Bool
  | .identifier | .genericName | .aliasQualifiedName | .predefinedType => true
  | _ => false

theorem isNameKind_iff {kind : Kind} : isNameKind kind = true ↔
    kind = .identifier ∨ kind = .genericName ∨ kind = .aliasQualifiedName ∨ kind = .predefinedType := by
  cases kind <;> simp [isNameKind]

/-- The names that an expression accesses one after another. -/
def namesOf : Tree → List Tree
  | .node .memberAccess _ [receiver, name] => namesOf receiver ++ [name]
  | tree => [tree]

theorem namesOf_ne_nil (tree : Tree) : namesOf tree ≠ [] := by
  fun_cases namesOf tree with
  | case1 => simp
  | case2 => exact List.cons_ne_nil _ _

/-- **The path of an expression** that begins with a name. -/
theorem path?_eq_intercalate
    (first : ∀ name, (namesOf tree).head? = some name → isNameKind name.kind = true) :
    path? text tree = some (".".intercalate ((namesOf tree).map (plainName text))) := by
  fun_induction namesOf tree with
  | case1 span receiver name ih =>
    have front := ih fun name found => first name (by rw [List.head?_append, found]; rfl)
    rw [path?, front, List.map_append,
      String.intercalate_append_of_ne_nil (by simp [namesOf_ne_nil]) (by simp)]
    simp
  | case2 tree other =>
    have single : path? text tree = some (plainName text tree) := by
      rw [path?]
      · rcases isNameKind_iff.mp (first tree rfl) with kind | kind | kind | kind <;> rw [kind]
      · exact other
    rw [single, List.map_singleton, String.intercalate_singleton]

/-- The names of an expression as they are written. -/
def written (text : List Char) (tree : Tree) : List String :=
  (namesOf tree).map (compact text)

/-- The expression is a chain of names, written with nothing but dots and blanks between them. Only its
last name may end with marks or leave a bracket open, and only its first one begins with `global::`. -/
structure IsChain (text : List Char) (tree : Tree) : Prop where
  named : ∀ name, (namesOf tree).head? = some name → isNameKind name.kind = true
  dotted : compact text tree = ".".intercalate (written text tree)
  outer : ∀ piece ∈ (written text tree).dropLast, Name.Balanced piece ∧ Name.IsUnmarked piece
  inner : ∀ piece ∈ (written text tree).tail, ¬ Name.globalMark <+: piece.toList

/-- **A chain of names** has the path that its whole text is normalized to. -/
theorem IsChain.path?_eq (chain : IsChain text tree) : path? text tree = some (plainName text tree) := by
  have pieces : (namesOf tree).map (plainName text) = (written text tree).map Name.normalize := by
    rw [written, List.map_map]
    rfl
  rw [path?_eq_intercalate chain.named, pieces, ← Name.normalize_intercalate chain.outer chain.inner,
    ← chain.dotted, plainName]

/-- **Names are normalized piece by piece.** Normalizing leaves nothing to normalize, and the names that
stay as they are have nothing to normalize either. Two names with a dot between them, where the first
one closes all its brackets, are normalized apart exactly if there are no marks to take off the end of
the first one and the second one does not begin with `global::`; whether colons stand at the dot, or one
of them comes to nothing, makes no difference. So the path of a chain of names, each normalized by itself,
is what the whole chain is normalized to. -/
theorem path?_piecewise :
    (∀ name : String, Name.normalize (Name.normalize name) = Name.normalize name ∧
      Name.IsNormal (Name.normalize name).toList ∧
      (Name.normalize name = name ↔ Name.IsNormal name.toList)) ∧
    (∀ a b : String, Name.Balanced a →
      (Name.normalize (a ++ "." ++ b) = Name.normalize a ++ "." ++ Name.normalize b ↔
        Name.IsUnmarked a ∧ ¬ Name.globalMark <+: b.toList)) ∧
    ∀ (text : List Char) (tree : Tree), IsChain text tree →
      path? text tree = some (Name.normalize (compact text tree)) := by
  refine ⟨fun name => ⟨Name.normalize_normalize name, ?_, ?_⟩,
    fun a b => Name.normalize_append_dot_iff, fun text tree => IsChain.path?_eq⟩
  · rw [Name.toList_normalize]
    exact Name.isNormal_normalizeText name.toList
  · rw [← String.toList_inj, Name.toList_normalize, Name.normalizeText_eq_self_iff]

/-- A member of a type whose arguments have arguments, taken from the outermost namespace. -/
def rowsOfTable : Tree :=
  .node .memberAccess ⟨0, 44⟩
    [.node .memberAccess ⟨0, 39⟩ [.node .aliasQualifiedName ⟨0, 12⟩ [], .node .genericName ⟨15, 39⟩ []],
      .node .identifier ⟨40, 44⟩ []]

/-- Brackets within brackets, `global::` in front and marks at the end. -/
theorem path?_piecewise_rows :
    Name.Balanced "global::Acme.Table<string, List<int>>" ∧
      Name.normalize ("global::Acme.Table<string, List<int>>" ++ "." ++ "Row<int?>[]?") =
        "Acme.Table" ++ "." ++ "Row" ∧
      IsChain "global::Acme . Table<string, List<int>>.Rows".toList rowsOfTable ∧
      path? "global::Acme . Table<string, List<int>>.Rows".toList rowsOfTable =
        some "Acme.Table.Rows" := by
  have balanced : Name.Balanced "global::Acme.Table<string, List<int>>" := by decide +kernel
  have chain : IsChain "global::Acme . Table<string, List<int>>.Rows".toList rowsOfTable := {
    named := fun name first => by
      obtain rfl := Option.some.inj first
      rfl
    dotted := by decide +kernel
    outer := by decide +kernel
    inner := by decide +kernel }
  refine ⟨balanced, ?_, chain, ?_⟩
  · rw [(path?_piecewise.2.1 _ _ balanced).mpr (by decide +kernel)]
    decide +kernel
  · rw [path?_piecewise.2.2 _ _ chain]
    decide +kernel

end ScriptLint.Outline
