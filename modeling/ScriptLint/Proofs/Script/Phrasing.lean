/-
**Two ways to call an extension method.**

A method of an extension set can be called on its class, `Class.Method(value)`, and as if the value had
it, `value.Method()`. The first way is bound through the types known, the second through the sets.

* `ExtensionSet.Offers` — a set is the only one in sight that lists a method.
* `ExtensionSet.Offers.memberExtension?_eq` — then a call that is looked for among the sets finds this
  one or none.
* `isForbidden_phrasings` — a call on a value is judged by the namespace of the set if the method is not
  shadowed. A call on the class is judged by it if the class is among the types known or the method is
  not shadowed: a shadowed method of a class that only the sets know is taken for one of a value.
-/

import ScriptLint.Proofs.Catalog.Contents
import ScriptLint.Proofs.Name.Parents
import ScriptLint.Proofs.Resolver.Readings

namespace ScriptLint

/-! ### The only set that lists a method -/

/-- The set lists the method and is in sight, and it is the only one that does. -/
structure ExtensionSet.Offers (set : ExtensionSet) (catalog : Catalog) (imported : List String)
    (method : String) : Prop where
  member : set ∈ catalog.extensions
  lists : method ∈ set.methods
  visible : set.home ∈ imported
  alone : ∀ other ∈ catalog.extensions, other.home ∈ imported → method ∈ other.methods → other = set

namespace ExtensionSet

variable {set : ExtensionSet} {catalog : Catalog} {imported : List String} {home owner method : String}

theorem home_of_container (container : set.container = home ++ "." ++ owner)
    (segment : Name.IsSegment owner) : set.home = home := by
  rw [ExtensionSet.home, container, Name.parent?_append segment.dot_not_mem, Option.getD_some]

namespace Offers

variable (offers : set.Offers catalog imported method)
include offers

theorem memberExtension?_eq (chain : List String) :
    catalog.memberExtension? method chain imported =
      if set.binds method chain then some set else none := by
  have visible : imported.contains set.home = true := List.contains_iff_mem.mpr offers.visible
  rw [Catalog.memberExtension?, find?_of_unique offers.member, visible, Bool.and_true]
  intro other member found
  simp only [binds, Bool.and_eq_true, List.contains_iff_mem] at found
  exact offers.alone other member found.2 found.1.1

theorem binds_nil : set.binds method [] = true ↔ method ∉ set.shadowed := by
  simp [binds, offers.lists]

theorem binds_of_certain (certain : method ∉ set.shadowed) (chain : List String) :
    set.binds method chain = true := by
  simp [binds, offers.lists, certain]

end Offers

end ExtensionSet

/-! ### Verdicts -/

section Phrasings

variable {script : Script} {scope : Scope} {set : ExtensionSet} {home owner method : String}

theorem Script.judgedBy_extensionTarget?
    (offers : set.Offers script.resolver.catalog scope.imported method) (chain : List String) :
    (script.extensionTarget? scope chain method).bind (·.judgedBy) =
      if set.binds method chain then some set.home else none := by
  rw [Script.extensionTarget?, offers.memberExtension?_eq]
  split <;> rfl

/-- What the name of the class means, where only its own namespace offers a type of the name. -/
theorem Resolver.resolve?_owner {resolver : Resolver} {container : String}
    (named : container = home ++ "." ++ owner) (segment : Name.IsSegment owner)
    (visible : home ∈ scope.imported)
    (around : ∀ reading ∈ owner :: (scope.types ++ scope.namespaces).map (· ++ "." ++ owner) ++
      (scope.usings.meaning? owner).toList, resolver.isKnown reading = true → reading = container)
    (imports : ∀ outer ∈ scope.usings.namespaces,
      resolver.isKnown (outer ++ "." ++ owner) = true → outer = home) :
    resolver.resolve? owner scope = if resolver.isKnown container then some container else none := by
  have own : Resolver.expandAlias? scope.usings owner = scope.usings.meaning? owner := by
    have empty : Name.IsTail "" := .inl rfl
    simpa using Resolver.expandAlias?_append scope.usings segment empty
  rw [Resolver.resolve?_eq segment.normalize_eq segment.nonempty]
  refine find?_of_unique (named ▸ Resolver.inside_mem_candidates visible owner) ?_
  intro reading member known
  simp only [Resolver.candidates, own, List.mem_append, List.mem_singleton, List.mem_map] at member
  rcases member with (((rfl | ⟨outer, isIn, rfl⟩) | ⟨outer, isIn, rfl⟩) | expanded) | ⟨outer, isIn, rfl⟩
  · exact around _ (by simp) known
  · exact around _ (List.mem_append_left _ (List.mem_cons_of_mem _
      (List.mem_map_of_mem (List.mem_append_left _ isIn)))) known
  · exact around _ (List.mem_append_left _ (List.mem_cons_of_mem _
      (List.mem_map_of_mem (List.mem_append_right _ isIn)))) known
  · exact around _ (List.mem_append_right _ expanded) known
  · rw [imports outer isIn known, named]

theorem Script.judgedBy?_type {type : String} (means : script.resolver.resolve? owner scope = some type) :
    script.judgedBy? scope (.member (.path owner) method) = script.resolver.homeOf type := by
  have judged := script.judgedBy?_through scope (some method) owner
  rwa [means] at judged

/-- A receiver that names neither a type nor a namespace. -/
def Script.Nameless (script : Script) (scope : Scope) (receiver : Receiver) : Prop :=
  ∀ path, receiver = .path path →
    script.resolver.resolve? path scope = none ∧ script.resolver.namespacePrefix? path = none

/-- The calls that a receiver comes from. -/
def Receiver.chain : Receiver → List String
  | .call chain => chain
  | .path _ | .expression => []

theorem Script.judgedBy?_nameless {receiver : Receiver} (nameless : script.Nameless scope receiver) :
    script.judgedBy? scope (.member receiver method) =
      (script.extensionTarget? scope receiver.chain method).bind (·.judgedBy) := by
  rw [Script.judgedBy?, Script.shapeTarget?]
  cases receiver with
  | path path =>
    obtain ⟨noType, noNamespace⟩ := nameless path rfl
    have noTarget : script.pathTarget? scope path method = none := by
      rw [Script.pathTarget?, noType, noNamespace, Option.map_none]
    rw [Script.memberTarget?_path, noTarget, Option.none_or, Receiver.chain]
  | call chain => rw [Script.memberTarget?, Receiver.chain]
  | expression => rw [Script.memberTarget?, Receiver.chain]

theorem Script.judgedBy?_owner (container : set.container = home ++ "." ++ owner)
    (segment : Name.IsSegment owner)
    (offers : set.Offers script.resolver.catalog scope.imported method)
    (means : script.resolver.resolve? owner scope =
      if script.resolver.isKnown set.container then some set.container else none)
    (placed : script.resolver.isKnown set.container = true →
      script.resolver.homeOf set.container = some home) :
    script.judgedBy? scope (.member (.path owner) method) =
      if script.resolver.isKnown set.container = true ∨ method ∉ set.shadowed then some home
      else none := by
  by_cases known : script.resolver.isKnown set.container = true
  · rw [if_pos known] at means
    rw [Script.judgedBy?_type means, placed known, if_pos (.inl known)]
  · rw [if_neg known] at means
    have nameless : script.Nameless scope (.path owner) := by
      rintro _ ⟨⟩
      exact ⟨means, Resolver.namespacePrefix?_segment segment⟩
    rw [Script.judgedBy?_nameless nameless, Script.judgedBy_extensionTarget? offers,
      ExtensionSet.home_of_container container segment, Receiver.chain]
    simp only [offers.binds_nil, known, Bool.false_eq_true, false_or]

/-- A namespace forbids itself unless it is all dots. -/
theorem any_isUnder_self (home : String) (holds : Prop) [Decidable holds] :
    ((if holds then some home else none).any fun judged =>
        [home].any fun outer => Name.isUnder outer judged) = true ↔
      (∃ c ∈ home.toList, c ≠ '.') ∧ holds := by
  by_cases holds : holds
  · rw [if_pos holds, Option.any_some, List.any_cons, List.any_nil, Bool.or_false,
      Name.isUnder_self_iff, and_iff_left holds]
  · rw [if_neg holds, Option.any_none]
    exact ⟨nofun, fun both => absurd both.2 holds⟩

/-- **Both phrasings, and where one is missed.** Only one set in sight lists the method, and the name of
its class means no other type by the types and namespaces around or by an alias.

* If no other imported namespace has a type of that name either, a call on the class is judged by the
  namespace of the set if the class is among the types known or the method is not shadowed, and is
  found harmless otherwise.
* If the name of the class means a type, a call on it is judged by the namespace of that type.
* A call on what names neither a type nor a namespace is judged by the namespace of the set if the
  method is not shadowed.

A namespace of dots alone forbids nothing, not even itself. -/
theorem isForbidden_phrasings (script : Script) (call : Call) (set : ExtensionSet)
    (home owner method : String) (container : set.container = home ++ "." ++ owner)
    (segment : Name.IsSegment owner)
    (offers : set.Offers script.resolver.catalog (script.scopeAt call.span.start).imported method)
    (around : ∀ reading ∈ owner :: ((script.scopeAt call.span.start).types ++
        (script.scopeAt call.span.start).namespaces).map (· ++ "." ++ owner) ++
        ((script.scopeAt call.span.start).usings.meaning? owner).toList,
      script.resolver.isKnown reading = true → reading = set.container) :
    (script.shape? call = some (.member (.path owner) method) →
      (∀ outer ∈ (script.scopeAt call.span.start).usings.namespaces,
        script.resolver.isKnown (outer ++ "." ++ owner) = true → outer = home) →
      (script.resolver.isKnown set.container = true →
        script.resolver.homeOf set.container = some home) →
      (isForbidden script.symbols [home] call = true ↔
        (∃ c ∈ home.toList, c ≠ '.') ∧
          (script.resolver.isKnown set.container = true ∨ method ∉ set.shadowed))) ∧
    (script.shape? call = some (.member (.path owner) method) →
      ∀ type, script.resolver.resolve? owner (script.scopeAt call.span.start) = some type →
      (isForbidden script.symbols [home] call = true ↔
        ∃ outer, script.resolver.homeOf type = some outer ∧ Name.isUnder home outer = true)) ∧
    (∀ receiver, script.shape? call = some (.member receiver method) →
      script.Nameless (script.scopeAt call.span.start) receiver → method ∉ set.shadowed →
      (isForbidden script.symbols [home] call = true ↔ ∃ c ∈ home.toList, c ≠ '.')) := by
  have homed : set.home = home := ExtensionSet.home_of_container container segment
  refine ⟨fun shaped imports placed => ?_, fun shaped type means => ?_,
    fun receiver shaped nameless certain => ?_⟩
  · have means := Resolver.resolve?_owner container segment (homed ▸ offers.visible) around imports
    rw [Script.isForbidden_of_shape shaped,
      Script.judgedBy?_owner container segment offers means placed, any_isUnder_self]
  · rw [Script.isForbidden_of_shape shaped, Script.judgedBy?_type means]
    simp only [Option.any_eq_true, List.any_cons, List.any_nil, Bool.or_false]
  · rw [Script.isForbidden_of_shape shaped, Script.judgedBy?_nameless nameless,
      Script.judgedBy_extensionTarget? offers, homed, any_isUnder_self,
      and_iff_left (offers.binds_of_certain certain _)]

end Phrasings

/-- The set of the query operators. -/
def operatorSet : ExtensionSet :=
  ⟨"System.Linq.Enumerable", queryOperators, shadowedOperators⟩

/-- A shadowed operator on the class that the catalog knows as a type too. -/
theorem isForbidden_phrasings_operator :
    let script := calling Catalog.builtin ⟨["System", "System.Linq"], [], []⟩
      (.member (.path "Enumerable") "Reverse")
    operatorSet.Offers script.resolver.catalog (script.scopeAt someCall.span.start).imported
        "Reverse" ∧
      "Reverse" ∈ operatorSet.shadowed ∧
      script.shape? someCall = some (.member (.path "Enumerable") "Reverse") ∧
      isForbidden script.symbols ["System.Linq"] someCall = true := by
  intro script
  have offers : operatorSet.Offers script.resolver.catalog
      (script.scopeAt someCall.span.start).imported "Reverse" := by
    rw [catalog_calling, scopeAt_calling]
    exact ⟨by rw [Catalog.extensions_builtin]; decide +kernel, by decide +kernel,
      by decide +kernel, by rw [Catalog.extensions_builtin]; decide +kernel⟩
  have direct := (isForbidden_phrasings script someCall operatorSet "System.Linq" "Enumerable" "Reverse"
    (by decide +kernel) (by decide +kernel) offers
    (by
      simp only [script, scopeAt_calling, isKnown_calling, Catalog.type?_builtin]
      decide +kernel)).1 shape?_calling
  simp only [script, scopeAt_calling, isKnown_calling, homeOf_calling, Catalog.type?_builtin] at direct
  have named : ∃ c ∈ "System.Linq".toList, c ≠ '.' := ⟨'S', by decide +kernel, by decide⟩
  exact ⟨offers, by decide +kernel, shape?_calling,
    (direct (by decide +kernel) (by decide +kernel)).mpr ⟨named, by decide +kernel⟩⟩

/-- **A call that is missed.** A project adds a set whose only method is shadowed, and calls the method
on the class. -/
theorem isForbidden_added_set :
    let set : ExtensionSet := ⟨"Acme.Seq.SeqOps", ["Reverse"], ["Reverse"]⟩
    let script := calling (Catalog.builtin.extend { extensions := [set] }) ⟨["Acme.Seq"], [], []⟩
      (.member (.path "SeqOps") "Reverse")
    set.Offers script.resolver.catalog (script.scopeAt someCall.span.start).imported "Reverse" ∧
      (∀ reading ∈ Resolver.candidates (script.scopeAt someCall.span.start) "SeqOps",
        script.resolver.isKnown reading = false) ∧
      script.shape? someCall = some (.member (.path "SeqOps") "Reverse") ∧
      isForbidden script.symbols ["Acme.Seq"] someCall = false := by
  intro set script
  have offers : set.Offers script.resolver.catalog (script.scopeAt someCall.span.start).imported
      "Reverse" := by
    rw [catalog_calling, scopeAt_calling]
    exact ⟨by rw [Catalog.extensions_extend, Catalog.extensions_builtin]; decide +kernel,
      by decide +kernel, by decide +kernel,
      by rw [Catalog.extensions_extend, Catalog.extensions_builtin]; decide +kernel⟩
  have unknown : ∀ reading ∈ Resolver.candidates (script.scopeAt someCall.span.start) "SeqOps",
      script.resolver.isKnown reading = false := by
    simp only [script, scopeAt_calling, isKnown_calling, Catalog.type?_extend, Catalog.type?_builtin]
    decide +kernel
  have segment : Name.IsSegment "SeqOps" := by decide +kernel
  have container : set.container = "Acme.Seq" ++ "." ++ "SeqOps" := by decide +kernel
  have visible : "Acme.Seq" ∈ (script.scopeAt someCall.span.start).imported := by
    rw [scopeAt_calling]
    decide +kernel
  have notType : script.resolver.isKnown set.container = false :=
    unknown _ (container ▸ Resolver.inside_mem_candidates visible "SeqOps")
  have means : script.resolver.resolve? "SeqOps" (script.scopeAt someCall.span.start) =
      if script.resolver.isKnown set.container then some set.container else none := by
    rw [notType, Resolver.resolve?_eq segment.normalize_eq segment.nonempty]
    exact List.find?_eq_none.mpr fun reading member => by simp [unknown reading member]
  have judged := Script.judgedBy?_owner container segment offers means (by simp [notType])
  rw [notType, if_neg (by decide +kernel)] at judged
  refine ⟨offers, unknown, shape?_calling, ?_⟩
  rw [Script.isForbidden_of_shape shape?_calling, judged, Option.any_none]

end ScriptLint
