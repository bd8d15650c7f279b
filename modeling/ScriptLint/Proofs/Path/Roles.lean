/-
**What the spelling of a path does not change.**

What a path says about a script is read off its lowered names, and these come from the parts of the path
one after the other. So the kinds of separators, how many of them stand in a row, dots between them and
case make no difference, and what is said of a path is said of every path that goes through it.

* `isSlash`, `segments_append` — a path of two parts has the names of both.
* `segments_eq` — the names may be lowered first and cut out then.
* `Respelled`, `Respelled.segments_eq` — one change of the spelling, which leaves the names.
* `Names`, `Begins`, `Adjoin` — how a token is met on a path; `isEditor_role_iff`, `isExcluded_role_iff`
  say that nothing else decides.
* `IsIdle` — a token that is empty or holds a separator; no path meets it.
* `role_spelling` — all this of the verdict.
-/

import Mathlib.Logic.Relation
import ScriptLint.Path.Role
import ScriptLint.Proofs.Text.Lower

namespace ScriptLint.Path

/-! ### Separators -/

/-- Either kind of slash separates the names of a path. -/
def isSlash (c : Char) : Bool :=
  c == '/' || c == '\\'

/-- No letter looks past a slash. -/
theorem isBarrier_of_isSlash {c : Char} (slash : isSlash c = true) : Text.IsBarrier c := by
  rw [isSlash, Bool.or_eq_true, beq_iff_eq, beq_iff_eq] at slash
  rcases slash with rfl | rfl
  · exact ⟨⟨by decide, by decide, by decide⟩, by decide +kernel, by decide +kernel⟩
  · exact ⟨⟨by decide, by decide, by decide⟩, by decide +kernel, by decide +kernel⟩

theorem isMark_dot : Text.IsMark '.' :=
  ⟨by decide, by decide, by decide⟩

theorem isVoid_lower (segment : List Char) : isVoid (Text.lower segment) = isVoid segment := by
  rw [Bool.eq_iff_iff]
  simp only [isVoid, Bool.or_eq_true, List.isEmpty_iff, beq_iff_eq, Text.lower_eq_nil_iff,
    Text.lower_eq_singleton_iff isMark_dot]

/-- **The names of a path** may be lowered before they are cut out. -/
theorem segments_eq (path : String) :
    segments path =
      ((List.splitOnP isSlash (Text.lower path.toList)).filter (!isVoid ·)).map String.ofList := by
  have kept : (!isVoid ·) ∘ Text.lower = (!isVoid ·) := by
    funext segment
    show (!isVoid (Text.lower segment)) = !isVoid segment
    rw [isVoid_lower]
  rw [Text.splitOnP_lower (fun c => isBarrier_of_isSlash), List.filter_map, kept, List.map_map]
  rfl

/-- **A path of two parts** has the names of both. -/
theorem segments_append {slash : Char} (isSlash : isSlash slash = true) (before after : String) :
    segments (before ++ String.singleton slash ++ after) = segments before ++ segments after := by
  have parts : (before ++ String.singleton slash ++ after).toList =
      before.toList ++ slash :: after.toList := by simp
  have cut := List.splitOnP_append_cons before.toList after.toList isSlash
  show ((List.splitOnP Path.isSlash _).filter _).map _ = _
  rw [parts, cut, List.filter_append, List.map_append]
  rfl

theorem segments_dot : segments "." = [] := by
  decide

/-- A name of a path is not empty, and has no slash in it. -/
theorem of_mem_segments {path name : String} (member : name ∈ segments path) :
    name ≠ "" ∧ ∀ c ∈ name.toList, isSlash c = false := by
  rw [segments_eq, List.mem_map] at member
  obtain ⟨piece, member, rfl⟩ := member
  obtain ⟨cut, counts⟩ := List.mem_filter.mp member
  constructor
  · rintro empty
    have none : piece = [] := by
      rw [← String.toList_ofList (l := piece), empty]
      rfl
    rw [none] at counts
    cases counts
  · rw [String.toList_ofList]
    exact Text.plain_of_mem_splitOnP cut

/-! ### Spellings -/

/-- One change of the spelling of a path. -/
inductive Respelled : String → String → Prop
  /-- One kind of separator stands for the other. -/
  | slash (before after : String) {first second : Char} :
      isSlash first = true → isSlash second = true →
      Respelled (before ++ String.singleton first ++ after)
        (before ++ String.singleton second ++ after)
  /-- A separator is doubled. -/
  | double (before after : String) {first second : Char} :
      isSlash first = true → isSlash second = true →
      Respelled (before ++ String.singleton first ++ after)
        (before ++ String.singleton first ++ (String.singleton second ++ after))
  /-- A dot is put before the path. -/
  | dotFirst (path : String) {slash : Char} :
      isSlash slash = true → Respelled path ("." ++ String.singleton slash ++ path)
  /-- A dot is put between two parts. -/
  | dotBetween (before after : String) {first second : Char} :
      isSlash first = true → isSlash second = true →
      Respelled (before ++ String.singleton first ++ after)
        (before ++ String.singleton first ++ ("." ++ String.singleton second ++ after))
  /-- A dot is put behind the path. -/
  | dotLast (path : String) {slash : Char} :
      isSlash slash = true → Respelled path (path ++ String.singleton slash ++ ".")
  /-- The case of some letters changes. -/
  | recased {path other : String} : Text.lowercase path = Text.lowercase other → Respelled path other

/-- **A change of the spelling** leaves the names. -/
theorem Respelled.segments_eq {path other : String} (respelled : Respelled path other) :
    segments path = segments other := by
  have leading (slash : Char) (isSlash : isSlash slash = true) (path : String) :
      segments (String.singleton slash ++ path) = segments path := by
    have whole := segments_append isSlash "" path
    rwa [String.empty_append] at whole
  cases respelled with
  | slash before after first second => rw [segments_append first, segments_append second]
  | double before after first second =>
    rw [segments_append first, segments_append first, leading _ second]
  | dotFirst path isSlash => rw [segments_append isSlash, segments_dot, List.nil_append]
  | dotBetween before after first second =>
    rw [segments_append first, segments_append first, segments_append second, segments_dot,
      List.nil_append]
  | dotLast path isSlash => rw [segments_append isSlash, segments_dot, List.append_nil]
  | recased same => rw [Path.segments_eq, Path.segments_eq, String.ofList_inj.mp same]

/-- Any number of changes, made or undone, leave the names. -/
theorem segments_of_eqvGen {path other : String} (spelled : Relation.EqvGen Respelled path other) :
    segments path = segments other := by
  induction spelled with
  | rel path other respelled => exact respelled.segments_eq
  | refl path => rfl
  | symm path other _ ih => exact ih.symm
  | trans path between other _ _ first second => exact first.trans second

/-! ### Tokens -/

/-- The token is the name of a folder on the path, case aside. -/
def Names (token path : String) : Prop :=
  Text.lowercase token ∈ segments path

/-- A name on the path begins with the token, case aside; the empty token does not count. -/
def Begins (token path : String) : Prop :=
  token ≠ "" ∧ ∃ name ∈ segments path, (Text.lowercase token).toList <+: name.toList

/-- The two tokens are neighbours on the path, case aside. -/
def Adjoin (pair : String × String) (path : String) : Prop :=
  [Text.lowercase pair.1, Text.lowercase pair.2] <:+: segments path

/-- Some token tells that the path leads to code of others. -/
def Tokens.Excludes (tokens : Tokens) (path : String) : Prop :=
  (∃ folder ∈ tokens.vendorFolders, Names folder path) ∨
    (∃ start ∈ tokens.packagePrefixes, Begins start path) ∨
    Adjoin tokens.cachePair path ∨ Names tokens.pluginsFolder path

theorem lowercase_eq_empty_iff {token : String} : Text.lowercase token = "" ↔ token = "" := by
  rw [Text.lowercase, ← String.toList_inj, String.toList_ofList, String.toList_empty,
    Text.lower_eq_nil_iff, String.toList_eq_nil_iff]

theorem hasNeighbours_iff {pair : String × String} {names : List String} :
    hasNeighbours pair names = true ↔ [pair.1, pair.2] <:+: names := by
  fun_induction hasNeighbours pair names with
  | case1 a b more ih =>
    have here : [pair.1, pair.2] <+: a :: b :: more ↔ a = pair.1 ∧ b = pair.2 := by
      simp [List.cons_prefix_cons, eq_comm]
    have either : [pair.1, pair.2] <:+: a :: b :: more ↔
        [pair.1, pair.2] <+: a :: b :: more ∨ [pair.1, pair.2] <:+: b :: more :=
      List.infix_cons_iff
    rw [either, here, Bool.or_eq_true, ih, Bool.and_eq_true, beq_iff_eq, beq_iff_eq]
  | case2 names short =>
    cases names with
    | nil => simp
    | cons a rest =>
      cases rest with
      | nil => simp [List.infix_cons_iff]
      | cons b more => exact (short a b more rfl).elim

variable {tokens : Tokens} {path : String}

theorem any_names_iff {token : String} :
    (segments path).any (· == Text.lowercase token) = true ↔ Names token path := by
  rw [List.any_beq', List.contains_iff_mem]
  rfl

/-- **A path is an editor path** exactly if it meets the token for editor code. -/
theorem isEditor_role_iff : (tokens.role path).isEditor = true ↔ Names tokens.editorFolder path :=
  any_names_iff

theorem any_begins_iff :
    (segments path).any (fun name => (tokens.packagePrefixes.map Text.lowercase).any fun start =>
      !start.isEmpty && start.toList.isPrefixOf name.toList) = true ↔
    ∃ start ∈ tokens.packagePrefixes, Begins start path := by
  simp only [List.any_eq_true, List.mem_map, exists_exists_and_eq_and, Bool.and_eq_true,
    Bool.not_eq_true', String.isEmpty_eq_false_iff, ne_eq, lowercase_eq_empty_iff,
    List.isPrefixOf_iff_prefix, Begins]
  constructor
  · rintro ⟨name, member, start, isStart, some, begins⟩
    exact ⟨start, isStart, some, name, member, begins⟩
  · rintro ⟨start, isStart, some, name, member, begins⟩
    exact ⟨name, member, start, isStart, some, begins⟩

/-- **A path is excluded** exactly if it meets a token that excludes it. -/
theorem isExcluded_role_iff : (tokens.role path).isExcluded = true ↔ tokens.Excludes path := by
  have vendor : (segments path).any ((tokens.vendorFolders.map Text.lowercase).contains ·) = true ↔
      ∃ folder ∈ tokens.vendorFolders, Names folder path := by
    simp only [List.any_eq_true, List.contains_iff_mem, List.mem_map]
    constructor
    · rintro ⟨name, member, folder, isFolder, rfl⟩
      exact ⟨folder, isFolder, member⟩
    · rintro ⟨folder, isFolder, member⟩
      exact ⟨_, member, folder, isFolder, rfl⟩
  show isExcluded tokens.folded (segments path) = true ↔ _
  unfold isExcluded Tokens.Excludes
  rw [Bool.or_eq_true, Bool.or_eq_true, Bool.or_eq_true, or_assoc, or_assoc, hasNeighbours_iff]
  exact or_congr vendor (or_congr any_begins_iff (or_congr Iff.rfl any_names_iff))

/-! ### Tokens that are never met -/

/-- The token is empty, or has a separator in it. -/
def IsIdle (token : String) : Prop :=
  token = "" ∨ ∃ c ∈ token.toList, isSlash c = true

instance (token : String) : Decidable (IsIdle token) :=
  decidable_of_iff (token = "" ∨ token.toList.any isSlash = true)
    (or_congr Iff.rfl List.any_eq_true)

namespace IsIdle

variable {token : String} (idle : IsIdle token)
include idle

/-- Nothing on a path even begins with such a token, unless it is empty. -/
theorem not_begins : ¬ Begins token path := by
  rintro ⟨some, name, member, begins⟩
  obtain ⟨c, inside, slash⟩ := idle.resolve_left some
  have lowered : c ∈ (Text.lowercase token).toList := by
    rw [Text.lowercase, String.toList_ofList]
    exact (Text.mem_lower_iff (isBarrier_of_isSlash slash).toIsMark).mpr inside
  have absent := (of_mem_segments member).2 c (begins.subset lowered)
  rw [slash] at absent
  cases absent

theorem not_names : ¬ Names token path := by
  intro member
  by_cases empty : token = ""
  · exact (of_mem_segments member).1 (lowercase_eq_empty_iff.mpr empty)
  · exact idle.not_begins ⟨empty, _, member, List.prefix_rfl⟩

theorem not_adjoin (other : String) : ¬ Adjoin (token, other) path ∧ ¬ Adjoin (other, token) path := by
  refine ⟨fun adjoin => ?_, fun adjoin => ?_⟩
  · exact idle.not_names (adjoin.subset List.mem_cons_self)
  · exact idle.not_names (adjoin.subset (List.mem_cons_of_mem _ List.mem_cons_self))

end IsIdle

/-! ### Paths through a path -/

section Through

variable {deeper : String} (through : segments path <:+: segments deeper)
include through

theorem Names.mono {token : String} (names : Names token path) : Names token deeper :=
  through.subset names

theorem Begins.mono {token : String} (begins : Begins token path) : Begins token deeper := by
  obtain ⟨some, name, member, begins⟩ := begins
  exact ⟨some, name, through.subset member, begins⟩

/-- **What is said of a path** is said of every path that goes through it. -/
theorem Tokens.Excludes.mono (excludes : tokens.Excludes path) : tokens.Excludes deeper := by
  rcases excludes with ⟨folder, isFolder, names⟩ | ⟨start, isStart, begins⟩ | adjoin | names
  · exact .inl ⟨folder, isFolder, names.mono through⟩
  · exact .inr (.inl ⟨start, isStart, begins.mono through⟩)
  · exact .inr (.inr (.inl (List.IsInfix.trans adjoin through)))
  · exact .inr (.inr (.inr (names.mono through)))

end Through

/-- **The spelling of a path does not matter.** A path of two parts has the names of both. Whatever the
tokens, the verdict on a path is the same after any changes of its separators, dots and case; a path
that goes through an editor path, or through an excluded one, is such a path too; and while the verdict
depends on nothing but the tokens that are met on the path, one that is empty or holds a separator is never
met, alone, as the beginning of a name, or in a pair. -/
theorem role_spelling (tokens : Tokens) :
    (∀ (before after : String) (slash : Char), isSlash slash = true →
      segments (before ++ String.singleton slash ++ after) = segments before ++ segments after) ∧
    (∀ path other : String, Relation.EqvGen Respelled path other →
      tokens.role path = tokens.role other) ∧
    (∀ (before path after : String) (first second : Char),
      isSlash first = true → isSlash second = true →
      ((tokens.role path).isEditor = true →
        (tokens.role (before ++ String.singleton first ++
          (path ++ String.singleton second ++ after))).isEditor = true) ∧
      ((tokens.role path).isExcluded = true →
        (tokens.role (before ++ String.singleton first ++
          (path ++ String.singleton second ++ after))).isExcluded = true)) ∧
    (∀ path : String, ((tokens.role path).isEditor = true ↔ Names tokens.editorFolder path) ∧
      ((tokens.role path).isExcluded = true ↔ tokens.Excludes path)) ∧
    ∀ token : String, IsIdle token → ∀ path : String,
      ¬ Names token path ∧ ¬ Begins token path ∧
        ∀ other : String, ¬ Adjoin (token, other) path ∧ ¬ Adjoin (other, token) path := by
  refine ⟨fun before after slash isSlash => segments_append isSlash before after, ?_, ?_,
    fun path => ⟨isEditor_role_iff, isExcluded_role_iff⟩,
    fun token idle path => ⟨idle.not_names, idle.not_begins, idle.not_adjoin⟩⟩
  · intro path other spelled
    unfold Tokens.role
    rw [segments_of_eqvGen spelled]
  · intro before path after first second isFirst isSecond
    have through : segments path <:+: segments (before ++ String.singleton first ++
        (path ++ String.singleton second ++ after)) := by
      rw [segments_append isFirst, segments_append isSecond]
      exact ⟨segments before, segments after, List.append_assoc _ _ _⟩
    rw [isEditor_role_iff, isEditor_role_iff, isExcluded_role_iff, isExcluded_role_iff]
    exact ⟨fun names => names.mono through, fun excludes => excludes.mono through⟩

/-- A folder of fetched packages, spelled in two ways and inside another folder, and a token that is
never met. -/
theorem role_spelling_cache :
    Relation.EqvGen Respelled ("library" ++ String.singleton '/' ++ "packagecache")
        ("Library" ++ String.singleton '\\' ++ "PackageCache") ∧
      (Tokens.role {} ("library" ++ String.singleton '/' ++ "packagecache")).isExcluded = true ∧
      (Tokens.role {} ("Game" ++ String.singleton '/' ++
        ("Library" ++ String.singleton '\\' ++ "PackageCache" ++ String.singleton '/' ++
          "Tool.cs"))).isExcluded = true ∧
      IsIdle "Vendor/" ∧ ¬ Names "Vendor/" "Vendor/Tool.cs" := by
  obtain ⟨-, alike, inside, -, never⟩ := role_spelling {}
  have spelled : Relation.EqvGen Respelled ("library" ++ String.singleton '/' ++ "packagecache")
      ("Library" ++ String.singleton '\\' ++ "PackageCache") :=
    .trans _ ("library" ++ String.singleton '\\' ++ "packagecache") _
      (.rel _ _ (.slash "library" "packagecache" (by decide) (by decide)))
      (.rel _ _ (.recased (by decide +kernel)))
  have excluded : (Tokens.role {} ("Library" ++ String.singleton '\\' ++ "PackageCache")).isExcluded =
      true := by
    decide +kernel
  have idle : IsIdle "Vendor/" := by decide
  refine ⟨spelled, ?_, (inside "Game" _ "Tool.cs" '/' '/' rfl rfl).2 excluded, idle,
    (never "Vendor/" idle "Vendor/Tool.cs").1⟩
  rw [alike _ _ spelled]
  exact excluded

end ScriptLint.Path
