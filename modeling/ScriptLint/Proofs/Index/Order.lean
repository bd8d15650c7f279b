/-
**The order of the scripts does not matter.**

* `find?_foldl_declare`, `find?_foldl_addBases` — what the two passes of `build` leave under a name, as
  one expression over the declarations of that name.
* `type?_build` — the entry of a name: the first of its declarations says the namespace and whether it
  is an interface, the first base list with a base class says the base class, and methods and
  interfaces are collected from all.
* `Agree` — at most one script imports for all, and the parts of a type do not contradict each other.
* `build_perm` — then every order of the scripts gives the same index.
-/

import Mathlib.Data.List.Induction
import Mathlib.Data.List.Nodup
import Mathlib.Data.List.Perm.Basic
import ScriptLint.Proofs.Catalog.Namespaces

namespace ScriptLint

/-- Two entries of one type that differ at most in the order of methods and interfaces. -/
structure ProjectType.Alike (a b : ProjectType) : Prop where
  name : a.symbol.qualifiedName = b.symbol.qualifiedName
  home : a.home = b.home
  isInterface : a.isInterface = b.isInterface
  methods : a.methods.Perm b.methods
  baseType : a.symbol.baseType = b.symbol.baseType
  interfaces : a.symbol.interfaces.Perm b.symbol.interfaces

/-! ### Lists without repetition -/

section AddNew

theorem mem_addNew {names : List String} {name x : String} :
    x ∈ addNew names name ↔ x ∈ names ∨ x = name := by
  unfold addNew
  by_cases known : names.contains name = true
  · rw [if_pos known]
    have member := List.contains_iff_mem.mp known
    exact ⟨Or.inl, fun either => either.elim id fun same => same ▸ member⟩
  · rw [if_neg known, List.mem_append, List.mem_singleton]

theorem nodup_addNew {names : List String} (nodup : names.Nodup) (name : String) :
    (addNew names name).Nodup := by
  unfold addNew
  by_cases known : names.contains name = true
  · rwa [if_pos known]
  · rw [if_neg known]
    have fresh : name ∉ names := fun member => known (List.contains_iff_mem.mpr member)
    exact nodup.append (List.nodup_singleton name) (List.disjoint_singleton.mpr fresh)

theorem mem_foldl_addNew {names more : List String} {x : String} :
    x ∈ more.foldl addNew names ↔ x ∈ names ∨ x ∈ more := by
  induction more generalizing names with
  | nil => simp
  | cons name rest ih => rw [List.foldl_cons, ih, mem_addNew, List.mem_cons, or_assoc]

theorem nodup_foldl_addNew {names : List String} (nodup : names.Nodup) (more : List String) :
    (more.foldl addNew names).Nodup := by
  induction more generalizing names with
  | nil => exact nodup
  | cons name rest ih => exact ih (nodup_addNew nodup name)

/-- Names collected in another order are the same names. -/
theorem foldl_addNew_perm {more more' : List String} (perm : more.Perm more') :
    (more.foldl addNew []).Perm (more'.foldl addNew []) := by
  refine (List.perm_ext_iff_of_nodup (nodup_foldl_addNew List.nodup_nil more)
    (nodup_foldl_addNew List.nodup_nil more')).mpr fun x => ?_
  rw [mem_foldl_addNew, mem_foldl_addNew, perm.mem_iff]

end AddNew

/-! ### First of all, in any order -/

section First

variable {α β : Type}

/-- Reordering does not change the first element if all are equal. -/
theorem head?_eq_of_perm {xs ys : List α} (perm : xs.Perm ys)
    (same : ∀ a ∈ xs, ∀ b ∈ xs, a = b) : xs.head? = ys.head? := by
  cases xs with
  | nil => rw [perm.nil_eq]
  | cons x rest =>
    cases ys with
    | nil => exact absurd perm.symm.nil_eq (List.cons_ne_nil x rest).symm
    | cons y others =>
      have here : y ∈ x :: rest := perm.mem_iff.mpr List.mem_cons_self
      rw [List.head?_cons, List.head?_cons, same x List.mem_cons_self y here]

/-- Reordering does not change what is collected if at most one member has something. -/
theorem flatMap_eq_of_perm {xs ys : List α} (perm : xs.Perm ys) (f : α → List β)
    (one : (xs.filter fun x => !(f x).isEmpty).length ≤ 1) : xs.flatMap f = ys.flatMap f := by
  have skip : ∀ zs : List α, zs.flatMap f = (zs.filter fun x => !(f x).isEmpty).flatMap f := by
    intro zs
    induction zs with
    | nil => rfl
    | cons z rest ih => cases found : f z <;> simp [found, ih]
  have filtered := perm.filter fun x => !(f x).isEmpty
  rw [skip xs, skip ys]
  generalize xs.filter (fun x => !(f x).isEmpty) = left at one filtered
  match left, one with
  | [], _ => rw [filtered.nil_eq]
  | [x], _ => rw [List.singleton_perm.mp filtered]

end First

namespace Index

/-! ### The first pass: names -/

section Names

/-- The entry of a name that only one declaration is known of. -/
def fresh (decl : TypeDecl) : ProjectType :=
  ⟨⟨decl.name, none, []⟩, decl.home, decl.isInterface, decl.methods.foldl addNew []⟩

/-- What some declarations say of the type they are parts of, their bases apart. -/
def joined (parts : List TypeDecl) : Option ProjectType :=
  parts.head?.map fun first =>
    { fresh first with methods := (parts.flatMap (·.methods)).foldl addNew [] }

variable {types : List ProjectType} {n : String}

theorem any_named (types : List ProjectType) (n : String) :
    types.any (·.symbol.qualifiedName == n) =
      (types.find? (·.symbol.qualifiedName == n)).isSome := by
  rw [Bool.eq_iff_iff, List.find?_isSome, List.any_eq_true]

/-- A change of entries that keeps their names is seen by a look-up. -/
theorem find?_map_named (types : List ProjectType) (n : String) {f : ProjectType → ProjectType}
    (keeps : ∀ t, (f t).symbol.qualifiedName = t.symbol.qualifiedName) :
    (types.map f).find? (·.symbol.qualifiedName == n) =
      (types.find? (·.symbol.qualifiedName == n)).map f := by
  rw [List.find?_map]
  simp only [Function.comp_def, keeps]

/-- One declaration changes the entry of its own name only. -/
theorem find?_declare (types : List ProjectType) (decl : TypeDecl) (n : String) :
    (declare types decl).find? (·.symbol.qualifiedName == n) =
      if decl.name = n then
        match types.find? (·.symbol.qualifiedName == n) with
        | some type => some { type with methods := decl.methods.foldl addNew type.methods }
        | none => some (fresh decl)
      else
        types.find? (·.symbol.qualifiedName == n) := by
  unfold declare
  rw [any_named]
  by_cases here : decl.name = n
  · subst here
    rw [if_pos rfl]
    cases found : types.find? (·.symbol.qualifiedName == decl.name) with
    | none => simp [List.find?_append, found, fresh]
    | some type =>
      have name : type.symbol.qualifiedName = decl.name := by simpa using List.find?_some found
      rw [Option.isSome_some, if_pos rfl, find?_map_named _ _ (by intro t; split <;> rfl), found]
      simp [name]
  · rw [if_neg here]
    split
    · rw [find?_map_named _ _ (by intro t; split <;> rfl)]
      cases found : types.find? (·.symbol.qualifiedName == n) with
      | none => rfl
      | some type =>
        have name : type.symbol.qualifiedName = n := by simpa using List.find?_some found
        simp [name, Ne.symm here]
    · simp [List.find?_append, here]

/-- **The first pass** leaves under a name what the declarations of that name say. -/
theorem find?_foldl_declare (decls : List TypeDecl) (n : String) :
    (decls.foldl declare []).find? (·.symbol.qualifiedName == n) =
      joined (decls.filter (·.name == n)) := by
  -- On the last declaration: it comes after all that the entry holds already.
  induction decls using List.reverseRecOn with
  | nil => rfl
  | append_singleton earlier decl ih =>
    rw [List.foldl_concat, find?_declare, ih, List.filter_append]
    by_cases here : decl.name = n
    · rw [if_pos here]
      cases found : earlier.filter (·.name == n) with
      | nil => simp [joined, here, fresh]
      | cons first rest => simp [joined, here, fresh, List.foldl_append]
    · simp [here]

end Names

/-! ### The second pass: bases -/

section Bases

/-- One base list changes the entry of its own type only. -/
theorem find?_addBases (types : List ProjectType) (bases : Bases) (n : String) :
    (addBases types bases).find? (·.symbol.qualifiedName == n) =
      (types.find? (·.symbol.qualifiedName == n)).map fun type =>
        if bases.type = n then
          { type with
            symbol :=
              { type.symbol with
                baseType := type.symbol.baseType.or bases.baseType
                interfaces := bases.interfaces.foldl addNew type.symbol.interfaces } }
        else
          type := by
  unfold addBases
  rw [find?_map_named _ _ (by intro t; split <;> rfl)]
  cases found : types.find? (·.symbol.qualifiedName == n) with
  | none => rfl
  | some type =>
    have name : type.symbol.qualifiedName = n := by simpa using List.find?_some found
    by_cases here : bases.type = n
    · simp [name, here]
    · simp [name, here, Ne.symm here]

/-- **The second pass** adds to an entry the first base class that its base lists give, and all their
interfaces. -/
theorem find?_foldl_addBases (all : List Bases) (types : List ProjectType) (n : String) :
    (all.foldl addBases types).find? (·.symbol.qualifiedName == n) =
      (types.find? (·.symbol.qualifiedName == n)).map fun type =>
        { type with
          symbol :=
            { type.symbol with
              baseType := type.symbol.baseType.or
                ((all.filter (·.type == n)).findSome? (·.baseType))
              interfaces := ((all.filter (·.type == n)).flatMap (·.interfaces)).foldl addNew
                type.symbol.interfaces } } := by
  induction all generalizing types with
  | nil => simp
  | cons bases rest ih =>
    rw [List.foldl_cons, ih, find?_addBases, Option.map_map]
    congr 1
    funext type
    by_cases here : bases.type = n
    · cases found : bases.baseType <;>
        simp [here, found, List.foldl_append]
    · simp [here]

/-- **The entry of a name** in the index of some scripts. -/
theorem type?_build (catalog : Catalog) (outlines : List Outline) (n : String) :
    (build catalog outlines).type? n =
      (joined ((outlines.flatMap (·.types)).filter (·.name == n))).map fun type =>
        let bases := (outlines.flatMap (outlineBases ⟨catalog, names outlines⟩)).filter (·.type == n)
        { type with
          symbol :=
            { type.symbol with
              baseType := bases.findSome? (·.baseType)
              interfaces := (bases.flatMap (·.interfaces)).foldl addNew [] } } := by
  show (List.foldl addBases _ _).find? _ = _
  rw [find?_foldl_addBases]
  show Option.map _ ((List.foldl declare [] _).find? _) = _
  rw [find?_foldl_declare]
  cases (outlines.flatMap (·.types)).filter (·.name == n) with
  | nil => rfl
  | cons first rest => simp [joined, fresh]

end Bases

/-! ### What a base list is resolved against -/

section Resolution

variable {a b : Resolver}

theorem resolve?_congr (known : a.isKnown = b.isKnown) : a.resolve? = b.resolve? := by
  funext written scope
  unfold Resolver.resolve?
  rw [known]

theorem basesOf_congr (known : a.isKnown = b.isKnown) (interfaces : a.isInterface = b.isInterface) :
    basesOf a = basesOf b := by
  funext scope decl
  unfold basesOf
  rw [resolve?_congr known, interfaces]

theorem outlineBases_congr (known : a.isKnown = b.isKnown)
    (interfaces : a.isInterface = b.isInterface)
    (globals : a.index.globalUsings = b.index.globalUsings) : outlineBases a = outlineBases b := by
  funext outline
  unfold outlineBases
  rw [basesOf_congr known interfaces, globals]

end Resolution

/-! ### Two orders -/

/-- What the scripts of a project must agree on for their order not to matter. -/
structure Agree (catalog : Catalog) (outlines : List Outline) : Prop where
  /-- At most one script imports namespaces for all. -/
  globals : (outlines.filter fun outline => !outline.globalUsings.isEmpty).length ≤ 1
  /-- The declarations of one name stand in one namespace and are all interfaces or none is. -/
  parts : ∀ a ∈ outlines.flatMap (·.types), ∀ b ∈ outlines.flatMap (·.types),
    a.name = b.name → a.home = b.home ∧ a.isInterface = b.isInterface
  /-- Those with a base class have the same one. -/
  bases : ∀ a ∈ outlines.flatMap (outlineBases ⟨catalog, names outlines⟩),
    ∀ b ∈ outlines.flatMap (outlineBases ⟨catalog, names outlines⟩),
    a.type = b.type → a.baseType.isSome → b.baseType.isSome → a.baseType = b.baseType

/-- Two indexes that differ at most in the order of what they list. -/
structure Alike (a b : Index) : Prop where
  names : (a.types.map (·.symbol.qualifiedName)).Perm (b.types.map (·.symbol.qualifiedName))
  types : ∀ n, Option.Rel ProjectType.Alike (a.type? n) (b.type? n)
  namespaces : ∀ n, a.hasNamespace n = b.hasNamespace n
  globalUsings : a.globalUsings = b.globalUsings

section Order

variable {catalog : Catalog} {outlines outlines' : List Outline}

theorem joined_alike {parts parts' : List TypeDecl} (perm : parts.Perm parts')
    (agree : ∀ a ∈ parts, ∀ b ∈ parts,
      a.name = b.name ∧ a.home = b.home ∧ a.isInterface = b.isInterface) :
    Option.Rel ProjectType.Alike (joined parts) (joined parts') := by
  have methods := foldl_addNew_perm (perm.flatMap_right (·.methods))
  cases parts with
  | nil => rw [← perm.nil_eq]; exact Option.Rel.none
  | cons first rest =>
    cases parts' with
    | nil => exact absurd perm.symm.nil_eq (List.cons_ne_nil first rest).symm
    | cons other others =>
      obtain ⟨name, home, isInterface⟩ :=
        agree first List.mem_cons_self other (perm.mem_iff.mpr List.mem_cons_self)
      exact Option.Rel.some ⟨name, home, isInterface, methods, rfl, List.Perm.refl _⟩

theorem type?_names_alike (perm : outlines.Perm outlines') (agree : Agree catalog outlines)
    (n : String) :
    Option.Rel ProjectType.Alike ((names outlines).type? n) ((names outlines').type? n) := by
  show Option.Rel _ ((List.foldl declare [] _).find? _) ((List.foldl declare [] _).find? _)
  rw [find?_foldl_declare, find?_foldl_declare]
  refine joined_alike ((perm.flatMap_right (·.types)).filter _) fun a left b right => ?_
  simp only [List.mem_filter, beq_iff_eq] at left right
  have name : a.name = b.name := left.2.trans right.2.symm
  exact ⟨name, agree.parts a left.1 b right.1 name⟩

/-- A base list means the same in both orders. -/
theorem outlineBases_perm (perm : outlines.Perm outlines') (agree : Agree catalog outlines) :
    outlineBases ⟨catalog, names outlines⟩ = outlineBases ⟨catalog, names outlines'⟩ := by
  refine outlineBases_congr ?_ ?_ ?_
  · funext n
    have entry := type?_names_alike perm agree n
    show (((names outlines).type? n).isSome || _) = (((names outlines').type? n).isSome || _)
    generalize (names outlines).type? n = left, (names outlines').type? n = right at entry ⊢
    cases entry <;> rfl
  · funext n
    have entry := type?_names_alike perm agree n
    simp only [Resolver.isInterface]
    generalize (names outlines).type? n = left, (names outlines').type? n = right at entry ⊢
    cases entry with
    | none => rfl
    | some alike => exact alike.isInterface
  · show List.foldl addNew [] _ = List.foldl addNew [] _
    rw [flatMap_eq_of_perm perm (·.globalUsings) agree.globals]

theorem findSome?_baseType_perm {all all' : List Bases} (perm : all.Perm all')
    (same : ∀ a ∈ all, ∀ b ∈ all, a.baseType.isSome → b.baseType.isSome →
      a.baseType = b.baseType) :
    all.findSome? (·.baseType) = all'.findSome? (·.baseType) := by
  rw [← List.head?_filterMap, ← List.head?_filterMap]
  refine head?_eq_of_perm (perm.filterMap _) fun x left y right => ?_
  obtain ⟨a, memberA, baseA⟩ := List.mem_filterMap.mp left
  obtain ⟨b, memberB, baseB⟩ := List.mem_filterMap.mp right
  have equal := same a memberA b memberB (by simp [baseA]) (by simp [baseB])
  simpa [baseA, baseB] using equal

theorem map_name_declare (types : List ProjectType) (decl : TypeDecl) :
    (declare types decl).map (·.symbol.qualifiedName) =
      addNew (types.map (·.symbol.qualifiedName)) decl.name := by
  unfold declare addNew
  have known : (types.map (·.symbol.qualifiedName)).contains decl.name =
      types.any (·.symbol.qualifiedName == decl.name) := by
    rw [List.contains_eq_any_beq, List.any_map]
    simp only [Function.comp_def, Bool.beq_comm]
  rw [known]
  split
  · rw [List.map_map]
    refine List.map_congr_left fun type _ => ?_
    show (if _ then _ else type : ProjectType).symbol.qualifiedName = _
    split <;> rfl
  · simp

theorem map_name_build (catalog : Catalog) (outlines : List Outline) :
    (build catalog outlines).types.map (·.symbol.qualifiedName) =
      ((outlines.flatMap (·.types)).map (·.name)).foldl addNew [] := by
  have declared : ∀ (decls : List TypeDecl) (types : List ProjectType),
      (decls.foldl declare types).map (·.symbol.qualifiedName) =
        (decls.map (·.name)).foldl addNew (types.map (·.symbol.qualifiedName)) := by
    intro decls
    induction decls with
    | nil => intro types; rfl
    | cons decl rest ih =>
      intro types
      rw [List.foldl_cons, ih, map_name_declare]
      rfl
  have based : ∀ (all : List Bases) (types : List ProjectType),
      (all.foldl addBases types).map (·.symbol.qualifiedName) =
        types.map (·.symbol.qualifiedName) := by
    intro all
    induction all with
    | nil => intro types; rfl
    | cons bases rest ih =>
      intro types
      rw [List.foldl_cons, ih, addBases, List.map_map]
      refine List.map_congr_left fun type _ => ?_
      show (if _ then _ else type : ProjectType).symbol.qualifiedName = _
      split <;> rfl
  show (List.foldl addBases _ _).map _ = _
  rw [based]
  exact declared _ []

/-- **The order of the scripts does not matter.** Two orders of the same scripts give the same index,
up to the order of what it lists, if at most one script imports namespaces for all and the parts of a
type agree on its namespace, on whether it is an interface, and on its base class. -/
theorem build_perm (perm : outlines.Perm outlines') (agree : Agree catalog outlines) :
    Alike (build catalog outlines) (build catalog outlines') where
  names := by
    rw [map_name_build, map_name_build]
    exact foldl_addNew_perm ((perm.flatMap_right (·.types)).map _)
  types n := by
    have bases := ((perm.flatMap_right (outlineBases ⟨catalog, names outlines⟩)).filter
      (·.type == n))
    have entry := type?_names_alike perm agree n
    have known : ∀ all : List Outline, (names all).type? n =
        joined ((all.flatMap (·.types)).filter (·.name == n)) := fun all =>
      find?_foldl_declare _ n
    rw [type?_build, type?_build, ← outlineBases_perm perm agree, ← known, ← known]
    generalize (names outlines).type? n = left, (names outlines').type? n = right at entry
    cases entry with
    | none => exact Option.Rel.none
    | some alike =>
      refine Option.Rel.some ⟨alike.name, alike.home, alike.isInterface, alike.methods, ?_,
        foldl_addNew_perm (bases.flatMap_right (·.interfaces))⟩
      refine findSome?_baseType_perm bases fun a left b right => ?_
      simp only [List.mem_filter, beq_iff_eq] at left right
      exact agree.bases a left.1 b right.1 (left.2.trans right.2.symm)
  namespaces n := by
    have scopes := ((perm.flatMap_right (·.namespaces)).map (·.name))
    unfold hasNamespace
    rw [Bool.eq_iff_iff, List.contains_iff_mem, List.contains_iff_mem,
      build_isClosure catalog outlines n, build_isClosure catalog outlines' n]
    simp only [scopes.mem_iff]
  globalUsings := by
    show List.foldl addNew [] _ = List.foldl addNew [] _
    rw [flatMap_eq_of_perm perm (·.globalUsings) agree.globals]

end Order

/-- A script with one part of a class. -/
def partOf (globalUsings bases methods : List String) : Outline :=
  ⟨"", [], [], globalUsings, [], [], [⟨"Game.Player", some "Game", false, bases, methods, ⟨0, 9⟩⟩],
    [⟨"Game", ⟨0, 9⟩⟩], false⟩

/-- Two parts, of which one brings the base class and the import that it is found by, and both
interfaces and methods. -/
theorem build_perm_partial :
    let scripts := [partOf ["UnityEngine"] ["MonoBehaviour", "IDamage"] ["Update", "Start"],
      partOf [] ["IHeal", "IDamage"] ["Start", "Heal"]]
    let catalog := Catalog.empty.addType ⟨"UnityEngine.MonoBehaviour", false, none, [], []⟩
    Agree catalog scripts ∧ Alike (build catalog scripts) (build catalog scripts.reverse) := by
  intro scripts catalog
  have agree : Agree catalog scripts :=
    ⟨by decide +kernel, by decide +kernel, by decide +kernel⟩
  exact ⟨agree, build_perm (List.reverse_perm scripts).symm agree⟩

end Index

end ScriptLint
