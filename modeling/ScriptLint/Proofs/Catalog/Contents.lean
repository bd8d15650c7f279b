/-
**What a catalog holds after additions.**

* `type?_foldl_addType` — of several types of one name the last added is the one known.
* `type?_extend`, `extensions_extend` — what a project adds comes before what was known, and its
  extension sets come after those known.
* `type?_builtin`, `extensions_builtin` — so the built-in catalog is its two lists, and a name is looked
  up in it by one pass over a list.
-/

import ScriptLint.Catalog.Builtin

namespace ScriptLint.Catalog

variable (catalog : Catalog)

/-! ### Types -/

theorem type?_addType (type : CatalogType) (name : String) :
    (catalog.addType type).type? name =
      if type.name = name then some type else catalog.type? name := by
  have types : (catalog.addType type).types = catalog.types.filter (·.name != type.name) ++ [type] := by
    unfold addType
    cases type.home <;> rfl
  rw [type?, types, List.find?_append]
  by_cases same : type.name = name
  · have gone : (catalog.types.filter (·.name != type.name)).find? (·.name == name) = none := by
      simp [List.find?_eq_none, same]
    rw [gone, Option.none_or, if_pos same, List.find?_cons_of_pos (by simpa using same)]
  · have kept (other : CatalogType) :
        decide ((other.name != type.name) = true ∧ (other.name == name) = true) =
          (other.name == name) := by
      by_cases named : other.name = name <;> simp [named, Ne.symm same]
    rw [List.find?_filter, List.find?_cons_of_neg (by simpa using same), List.find?_nil,
      Option.or_none, if_neg same, type?]
    simp only [kept]

theorem type?_foldl_addType (types : List CatalogType) (name : String) :
    (types.foldl addType catalog).type? name =
      (types.reverse.find? (·.name == name)).or (catalog.type? name) := by
  induction types generalizing catalog with
  | nil => rfl
  | cons type more ih =>
    rw [List.foldl_cons, ih, List.reverse_cons, List.find?_append, Option.or_assoc, type?_addType]
    by_cases same : type.name = name <;> simp [same]

theorem type?_addNamespace (added name : String) :
    (catalog.addNamespace added).type? name = catalog.type? name :=
  rfl

theorem type?_addExtensions (set : ExtensionSet) (name : String) :
    (catalog.addExtensions set).type? name = catalog.type? name :=
  rfl

/-! ### Extension sets -/

theorem extensions_addType (type : CatalogType) :
    (catalog.addType type).extensions = catalog.extensions := by
  unfold addType
  cases type.home <;> rfl

theorem extensions_foldl_addExtensions (sets : List ExtensionSet) :
    (sets.foldl addExtensions catalog).extensions = catalog.extensions ++ sets := by
  induction sets generalizing catalog with
  | nil => rw [List.foldl_nil, List.append_nil]
  | cons set more ih =>
    rw [List.foldl_cons, ih, addExtensions, List.append_assoc, List.singleton_append]
    rfl

/-! ### Many additions -/

/-- What one addition keeps, many keep. -/
theorem foldl_keeps {α β : Type} {add : Catalog → α → Catalog} (view : Catalog → β)
    (step : ∀ catalog item, view (add catalog item) = view catalog) (items : List α) :
    view (items.foldl add catalog) = view catalog := by
  induction items generalizing catalog with
  | nil => rfl
  | cons item more ih => rw [List.foldl_cons, ih, step]

theorem type?_extend (more : Supplement) (name : String) :
    (catalog.extend more).type? name =
      (more.types.reverse.find? (·.name == name)).or (catalog.type? name) := by
  rw [extend, foldl_keeps _ (·.type? name) fun catalog set => type?_addExtensions catalog set name,
    type?_foldl_addType,
    foldl_keeps _ (·.type? name) fun catalog added => type?_addNamespace catalog added name]

theorem extensions_extend (more : Supplement) :
    (catalog.extend more).extensions = catalog.extensions ++ more.extensions := by
  have named (catalog : Catalog) (name : String) :
      (catalog.addNamespace name).extensions = catalog.extensions := rfl
  rw [extend, extensions_foldl_addExtensions, foldl_keeps _ extensions extensions_addType,
    foldl_keeps _ extensions named]

theorem type?_builtin (name : String) :
    builtin.type? name = builtinTypes.reverse.find? (·.name == name) := by
  rw [builtin, foldl_keeps _ (·.type? name) fun catalog set => type?_addExtensions catalog set name,
    type?_foldl_addType]
  exact Option.or_none

theorem extensions_builtin : builtin.extensions = builtinExtensions := by
  rw [builtin, extensions_foldl_addExtensions, foldl_keeps _ extensions extensions_addType]
  rfl

end ScriptLint.Catalog
