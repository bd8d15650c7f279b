/-
**Names that mean the same without some imports.**

A script is read once as it is and once without some of its imports, and with other namespaces imported
for the whole project. Whether a name means the same in both can be seen in the first.

* `Outline.without` — the outline that is left; `Usings.statics_foldl_add`, `Usings.namespaces_foldl_add`,
  `Usings.meaning?_foldl_kept` — what its imports still give.
* `Script.Settles` — a reading of the name is known that needs no import.
* `Script.Unneeded` — no import that is gone, or is there for the project only before or after, gives a
  known reading of the name.
* `Script.Readable.readsAlike` — in either case the name means the same.
-/

import ScriptLint.Proofs.Index.Imports
import ScriptLint.Proofs.Name.Parents
import ScriptLint.Proofs.Resolver.Stages

namespace ScriptLint

/-- The outline without some of its imports, and with other namespaces imported for the whole
project. -/
def Outline.without (outline : Outline) (gone : Import → Bool) (globalUsings : List String) : Outline :=
  { outline with imports := outline.imports.filter (!gone ·), globalUsings }

/-- The import is one of the members of a type. -/
def Import.ofMembers (found : Import) : Bool :=
  found.localName.isNone && found.isStatic

/-- The import is one of a namespace. -/
def Import.ofNamespace (found : Import) : Bool :=
  found.localName.isNone && !found.isStatic

/-! ### What imports give -/

namespace Usings

/-- A list to which each import of a sort adds its target gets those of all, in their order. -/
theorem foldl_add {part : Usings → List String} {sort : Import → Bool}
    (step : ∀ usings found,
      part (add usings found) = part usings ++ if sort found then [found.target] else [])
    (imports : List Import) (usings : Usings) :
    part (imports.foldl add usings) = part usings ++ (imports.filter sort).map (·.target) := by
  induction imports generalizing usings with
  | nil => simp
  | cons found rest ih =>
    rw [List.foldl_cons, ih, step, List.append_assoc, List.filter_cons]
    cases sort found <;> rfl

theorem statics_foldl_add (imports : List Import) (usings : Usings) :
    (imports.foldl add usings).statics =
      usings.statics ++ (imports.filter (·.ofMembers)).map (·.target) := by
  refine foldl_add (fun usings found => ?_) imports usings
  unfold add Import.ofMembers
  cases found.localName <;> cases found.isStatic <;> simp

theorem namespaces_foldl_add (imports : List Import) (usings : Usings) :
    (imports.foldl add usings).namespaces =
      usings.namespaces ++ (imports.filter (·.ofNamespace)).map (·.target) := by
  refine foldl_add (fun usings found => ?_) imports usings
  unfold add Import.ofNamespace
  cases found.localName <;> cases found.isStatic <;> simp

theorem lookup_filter_ne {name : String} (short : String) (aliases : List (String × String)) :
    (aliases.filter (·.1 != short)).lookup name = if short = name then none else aliases.lookup name := by
  induction aliases with
  | nil => simp
  | cons entry rest ih =>
    obtain ⟨first, target⟩ := entry
    rw [List.filter_cons]
    by_cases isFirst : first = short
    · subst isFirst
      by_cases same : first = name
      · simp only [bne_self_eq_false, Bool.false_eq_true, if_false, ih, if_pos same]
      · simp [ih, same, List.lookup_cons, beq_eq_false_iff_ne.mpr (Ne.symm same)]
    · by_cases same : first = name
      · subst same
        simp [isFirst, Ne.symm isFirst]
      · simp [ih, isFirst, List.lookup_cons, beq_eq_false_iff_ne.mpr (Ne.symm same)]

/-- An alias counts from where it is given on. -/
theorem meaning?_add (usings : Usings) (found : Import) (name : String) :
    (usings.add found).meaning? name =
      if found.localName = some name then some found.target else usings.meaning? name := by
  unfold add
  cases found.localName with
  | none => cases found.isStatic <;> simp [meaning?]
  | some short =>
    simp only [meaning?, List.lookup_append, lookup_filter_ne, Option.some.injEq]
    by_cases same : short = name
    · simp [same]
    · simp [same, List.lookup_cons, beq_eq_false_iff_ne.mpr (Ne.symm same)]

/-- What a name is an alias of does not depend on imports that give it no meaning. -/
theorem meaning?_foldl_kept {imports : List Import} {gone : Import → Bool} {name : String}
    (other : ∀ found ∈ imports, gone found = true → found.localName ≠ some name)
    {before after : Usings} (same : after.meaning? name = before.meaning? name) :
    ((imports.filter (!gone ·)).foldl add after).meaning? name =
      (imports.foldl add before).meaning? name := by
  induction imports generalizing before after with
  | nil => exact same
  | cons found rest ih =>
    have onward := fun next isNext => other next (List.mem_cons_of_mem found isNext)
    cases isGone : gone found with
    | true =>
      rw [List.filter_cons_of_neg (by simp [isGone]), List.foldl_cons]
      refine ih onward ?_
      rw [meaning?_add, if_neg (other found List.mem_cons_self isGone), same]
    | false =>
      rw [List.filter_cons_of_pos (by simp [isGone]), List.foldl_cons, List.foldl_cons]
      refine ih onward ?_
      rw [meaning?_add, meaning?_add, same]

end Usings

/-- The members of some sort come in the same order if only members of that sort are added. -/
theorem filter_foldl_addNew (p : String → Bool) (names more : List String) :
    (more.foldl addNew names).filter p = (more.filter p).foldl addNew (names.filter p) := by
  induction more generalizing names with
  | nil => rfl
  | cons name rest ih =>
    rw [List.foldl_cons, ih, List.filter_cons]
    cases isSort : p name with
    | true =>
      have step : (addNew names name).filter p = addNew (names.filter p) name := by
        unfold addNew
        by_cases member : name ∈ names <;> simp [member, isSort]
      rw [if_pos rfl, List.foldl_cons, step]
    | false =>
      have step : (addNew names name).filter p = names.filter p := by
        unfold addNew
        split <;> simp [isSort]
      rw [if_neg Bool.false_ne_true, step]

/-! ### Readings -/

theorem Name.covers_head {head tail : String} (isTail : IsTail tail) : Covers head (head ++ tail) := by
  rcases isTail_cases isTail with rfl | ⟨rest, split⟩
  · exact .inl String.append_empty
  · refine .inr ⟨rest, ?_⟩
    simp [split]

section Around

-- What is around an offset does not depend on the imports.
variable {outline other : Outline} {usings others : Usings} {offset : Nat}

theorem Scope.types_ofOffset (types : outline.types = other.types) :
    (ofOffset outline usings offset).types = (ofOffset other others offset).types := by
  simp only [ofOffset, typesAround, types]

theorem Scope.namespaces_ofOffset (namespaces : outline.namespaces = other.namespaces) :
    (ofOffset outline usings offset).namespaces = (ofOffset other others offset).namespaces := by
  simp only [ofOffset, innermost?, namespaces]

end Around

namespace Resolver

/-- The readings of a normal name that need no import. -/
def nearReadings (scope : Scope) (name : String) : List String :=
  [name] ++ scope.types.map (· ++ "." ++ name) ++ scope.namespaces.map (· ++ "." ++ name)

theorem candidates_near (scope : Scope) (name : String) :
    candidates scope name = nearReadings scope name ++ ((expandAlias? scope.usings name).toList ++
      scope.usings.namespaces.map (· ++ "." ++ name)) := by
  simp [candidates, nearReadings]

end Resolver

namespace Script

/-- A reading of the name is known that needs no import. -/
def Settles (script : Script) (offset : Nat) (name : String) : Prop :=
  ∃ reading ∈ Resolver.nearReadings (script.scopeAt offset) name,
    script.resolver.isKnown reading = true

/-- The name is known in a namespace. -/
def knownIn (script : Script) (name outer : String) : Bool :=
  script.resolver.isKnown (outer ++ "." ++ name)

/-- The imports that are gone are not needed to read the name. -/
structure Unneeded (script : Script) (gone : Import → Bool) (globals : List String) (name : String) :
    Prop where
  /-- The name does not begin with an alias that is gone. -/
  aliases : ∀ found ∈ script.outline.imports, gone found = true →
    ∀ short ∈ found.localName, ¬ Name.Covers short name
  /-- It is not known in a namespace whose import is gone. -/
  namespaces : ∀ found ∈ script.outline.imports, gone found = true → found.ofNamespace = true →
    script.knownIn name found.target = false
  /-- Of the namespaces imported for the project, those in which it is known are the same. -/
  globals : globals.filter (script.knownIn name) = script.outline.globalUsings.filter (script.knownIn name)

/-- The name is read without the imports that are gone. -/
def Readable (script : Script) (gone : Import → Bool) (globals : List String) (offset : Nat)
    (written : String) : Prop :=
  script.Settles offset (Name.normalize written) ∨ script.Unneeded gone globals (Name.normalize written)

instance (script : Script) (offset : Nat) (name : String) : Decidable (script.Settles offset name) :=
  inferInstanceAs (Decidable (∃ reading ∈ _, _))

instance (script : Script) (gone : Import → Bool) (globals : List String) (name : String) :
    Decidable (script.Unneeded gone globals name) :=
  decidable_of_iff ((∀ found ∈ script.outline.imports, gone found = true →
        ∀ short ∈ found.localName, ¬ Name.Covers short name) ∧
      (∀ found ∈ script.outline.imports, gone found = true → found.ofNamespace = true →
        script.knownIn name found.target = false) ∧
      globals.filter (script.knownIn name) = script.outline.globalUsings.filter (script.knownIn name))
    ⟨fun ⟨aliases, namespaces, globals⟩ => ⟨aliases, namespaces, globals⟩,
      fun ⟨aliases, namespaces, globals⟩ => ⟨aliases, namespaces, globals⟩⟩

instance (script : Script) (gone : Import → Bool) (globals : List String) (offset : Nat)
    (written : String) : Decidable (script.Readable gone globals offset written) :=
  inferInstanceAs (Decidable (_ ∨ _))

section Alone

variable {catalog : Catalog} {outline : Outline} {gone : Import → Bool} {globals : List String}
  {offset : Nat} {name : String}

theorem statics_alone (catalog : Catalog) (outline : Outline) (offset : Nat) :
    ((alone catalog outline).scopeAt offset).usings.statics =
      (outline.imports.filter (·.ofMembers)).map (·.target) :=
  Usings.statics_foldl_add outline.imports ⟨[], [], []⟩

theorem isKnown_without : (alone catalog (outline.without gone globals)).resolver.isKnown =
    (alone catalog outline).resolver.isKnown :=
  Resolver.isKnown_congr (Index.build_sameButBases rfl rfl)

theorem nearReadings_without :
    Resolver.nearReadings ((alone catalog (outline.without gone globals)).scopeAt offset) name =
      Resolver.nearReadings ((alone catalog outline).scopeAt offset) name := by
  have types : ((alone catalog (outline.without gone globals)).scopeAt offset).types =
      ((alone catalog outline).scopeAt offset).types := Scope.types_ofOffset rfl
  have namespaces : ((alone catalog (outline.without gone globals)).scopeAt offset).namespaces =
      ((alone catalog outline).scopeAt offset).namespaces := Scope.namespaces_ofOffset rfl
  rw [Resolver.nearReadings, Resolver.nearReadings, types, namespaces]

/-- The name is an alias of the same. -/
theorem Unneeded.expandAlias?_eq (unneeded : (alone catalog outline).Unneeded gone globals name) :
    Resolver.expandAlias?
        ((alone catalog (outline.without gone globals)).scopeAt offset).usings name =
      Resolver.expandAlias? ((alone catalog outline).scopeAt offset).usings name := by
  obtain ⟨head, tail, rfl, noDot, isTail⟩ := Name.exists_head name
  rw [Resolver.expandAlias?_head _ noDot isTail, Resolver.expandAlias?_head _ noDot isTail]
  refine congrArg (Option.map (· ++ tail)) (Usings.meaning?_foldl_kept ?_ rfl)
  intro found member isGone isHead
  exact unneeded.aliases found member isGone head isHead (Name.covers_head isTail)

/-- The imported namespaces in which a name of a sort is known. -/
theorem filter_namespaces_alone (catalog : Catalog) (outline : Outline) (offset : Nat)
    (p : String → Bool) :
    ((alone catalog outline).scopeAt offset).usings.namespaces.filter p =
      ((outline.globalUsings.filter p).foldl addNew []).foldl addNew
        (((outline.imports.filter (·.ofNamespace)).map (·.target)).filter p) := by
  have own := Usings.namespaces_foldl_add outline.imports ⟨[], [], []⟩
  have globals : (Index.build catalog [outline]).globalUsings = outline.globalUsings.foldl addNew [] := by
    show ([outline].flatMap (·.globalUsings)).foldl addNew [] = _
    simp
  show (List.foldl addNew (outline.imports.foldl Usings.add ⟨[], [], []⟩).namespaces
    (Index.build catalog [outline]).globalUsings).filter p = _
  rw [filter_foldl_addNew, globals, filter_foldl_addNew, own]
  rfl

/-- The first imported namespace in which the name is known is the same. -/
theorem Unneeded.find?_eq (unneeded : (alone catalog outline).Unneeded gone globals name) :
    ((alone catalog (outline.without gone globals)).scopeAt offset).usings.namespaces.find?
        ((alone catalog outline).knownIn name) =
      ((alone catalog outline).scopeAt offset).usings.namespaces.find?
        ((alone catalog outline).knownIn name) := by
  have kept : ((outline.imports.filter (!gone ·)).filter (·.ofNamespace)).filter
        (fun found => (alone catalog outline).knownIn name found.target) =
      (outline.imports.filter (·.ofNamespace)).filter
        fun found => (alone catalog outline).knownIn name found.target := by
    rw [List.filter_filter, List.filter_filter, List.filter_filter]
    refine List.filter_congr fun found member => ?_
    cases isGone : gone found with
    | false => simp
    | true =>
      cases isSpace : found.ofNamespace with
      | false => simp
      | true => simp [unneeded.namespaces found member isGone isSpace]
  rw [← List.head?_filter, ← List.head?_filter, filter_namespaces_alone, filter_namespaces_alone,
    List.filter_map, List.filter_map]
  have left := unneeded.globals
  show (List.foldl addNew _ (List.foldl addNew [] (globals.filter _))).head? = _
  rw [left]
  exact congrArg (fun own : List Import => (List.foldl addNew (own.map (·.target)) _).head?) kept

/-- **A readable name means the same.** -/
theorem Readable.readsAlike {written : String}
    (readable : (alone catalog outline).Readable gone globals offset written) :
    (alone catalog outline).ReadsAlike (alone catalog (outline.without gone globals)) offset
      written := by
  unfold ReadsAlike Resolver.resolve?
  rw [isKnown_without]
  dsimp only
  split
  · rfl
  · rw [Resolver.candidates_near, Resolver.candidates_near, nearReadings_without]
    rcases readable with ⟨reading, member, known⟩ | unneeded
    · -- The search ends before the imports are asked.
      have found : ((Resolver.nearReadings ((alone catalog outline).scopeAt offset)
          (Name.normalize written)).find? (alone catalog outline).resolver.isKnown).isSome = true :=
        List.find?_isSome.mpr ⟨reading, member, known⟩
      rw [List.find?_append, Option.or_of_isSome found, List.find?_append, Option.or_of_isSome found]
    · have imported := congrArg (Option.map (· ++ "." ++ Name.normalize written))
        (@Unneeded.find?_eq catalog outline gone globals offset _ unneeded)
      unfold knownIn at imported
      rw [unneeded.expandAlias?_eq]
      simp only [List.find?_append, List.find?_map, Function.comp_def, imported]

end Alone

-- One name is known by an import that stays, the other begins with an alias that is gone.
example :
    let outline : Outline := {
      (default : Outline) with
      imports := [⟨⟨0, 10⟩, "Old", none, false⟩, ⟨⟨10, 21⟩, "Kept", none, false⟩,
        ⟨⟨21, 41⟩, "Old.Seq", some "Seq", false⟩]
      types := [⟨"Kept.Pool", some "Kept", false, [], [], ⟨50, 60⟩⟩] }
    let script := alone Catalog.empty outline
    script.Readable (·.target != "Kept") [] 45 "Pool" ∧
      ¬ script.Readable (·.target != "Kept") [] 45 "Seq.Item" := by
  decide +kernel

end Script

end ScriptLint
