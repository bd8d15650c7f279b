/-
**Where a path leads in a tree of files.**

On a disk that is a tree, a path without steps up leads to the place of its names, if there is
something: nothing else about its spelling matters, but that what a dot or a separator follows must be
a folder.

* `steps_join`, `filter_steps` — the steps of a path taken from a directory; the names among them.
* `IsTree` — everything on the disk stands in a folder, and no file is a folder.
* `IsTree.foldlM_step?`, `eq_of_foldlM_step?` — steps lead to a folder that is there, and nowhere
  else.
* `placeOf` — the place that the names of a path mean.
* `IsTree.find?_join`, `IsTree.any_find?_join` — a file or a folder with a given name, in the
  directory that a path means.
-/

import ScriptLint.Disk
import ScriptLint.Proofs.Path.Names

namespace ScriptLint.Disk

/-! ### Steps -/

/-- The steps of a text, but for the one that a separator at its end is. -/
def between (text : List Char) : List String :=
  ((List.splitOn '/' text).filter (!·.isEmpty)).map String.ofList

theorem steps_eq (path : String) : steps path = between path.toList ++
    if (List.splitOn '/' path.toList).getLast? == some [] then ["."] else [] :=
  rfl

theorem between_append (s t : List Char) : between (s ++ '/' :: t) = between s ++ between t := by
  rw [between, List.splitOn_append_cons_self, List.filter_append, List.map_append]
  rfl

theorem steps_of_toList {path rest : String} {front : List Char}
    (text_eq : path.toList = front ++ '/' :: rest.toList) :
    steps path = between front ++ steps rest := by
  have last : (List.splitOn '/' (front ++ '/' :: rest.toList)).getLast? =
      (List.splitOn '/' rest.toList).getLast? := by
    rw [List.splitOn_append_cons_self]
    exact List.getLast?_append_of_ne_nil _ (List.splitOn_ne_nil _ _)
  rw [steps_eq, steps_eq, text_eq, last, between_append, List.append_assoc]

theorem filter_between (text : List Char) :
    (between text).filter (· != ".") = (Path.pieces text).map String.ofList := by
  have counts : ∀ segment : List Char,
      ((String.ofList segment != ".") && !segment.isEmpty) = !Path.isVoid segment := by
    intro segment
    have dot : String.ofList segment = "." ↔ segment = ['.'] := by
      rw [← String.toList_inj, String.toList_ofList]
      rfl
    rw [Path.isVoid, Bool.eq_iff_iff]
    simp [dot, and_comm]
  rw [between, List.filter_map, List.filter_filter, Path.pieces]
  congr 1
  exact List.filter_congr fun segment _ => counts segment

/-- The names of a path are its steps, without those that stay where they are. -/
theorem filter_steps (path : String) : (steps path).filter (· != ".") = Path.names path := by
  have last : ∀ ended : Bool, (if ended then ["."] else []).filter (· != ".") = [] := by decide
  rw [steps_eq, List.filter_append, last, List.append_nil, filter_between, Path.names]

/-- **The steps of a path taken from a directory.** -/
theorem steps_join (directory : String) {path : String} (relative : Path.isAbsolute path = false) :
    steps (Path.join directory path) = between directory.toList ++ steps path := by
  unfold Path.join
  rw [relative, Bool.false_or]
  split
  next empty =>
    rw [String.isEmpty_iff.mp empty]
    rfl
  next nonempty =>
    split
    next ends =>
      obtain ⟨before, reversed⟩ := List.isPrefixOf_iff_prefix.mp ends
      have text_eq : directory.toList = before.reverse ++ '/' :: [] := by
        rw [← List.reverse_reverse directory.toList, ← reversed, List.reverse_append]
        rfl
      have nothing : between [] = [] := rfl
      rw [text_eq, between_append, nothing, List.append_nil]
      refine steps_of_toList ?_
      rw [String.toList_append, text_eq, List.append_assoc]
      rfl
    next =>
      refine steps_of_toList ?_
      rw [String.toList_append, String.toList_append, List.append_assoc]
      rfl

theorem isAbsolute_join (directory : String) {path : String}
    (relative : Path.isAbsolute path = false) :
    Path.isAbsolute (Path.join directory path) = Path.isAbsolute directory := by
  unfold Path.join
  rw [relative, Bool.false_or]
  split
  next empty =>
    rw [relative, String.isEmpty_iff.mp empty]
    rfl
  next nonempty =>
    have head_eq : ∀ rest : List Char,
        (directory.toList ++ rest).head? = directory.toList.head? := by
      intro rest
      refine List.head?_append_of_ne_nil _ fun empty => nonempty ?_
      rw [String.isEmpty_iff, ← String.toList_eq_nil_iff, empty]
    rw [Bool.eq_iff_iff, Path.isAbsolute_iff, Path.isAbsolute_iff]
    split
    · rw [String.toList_append, head_eq]
    · rw [String.toList_append, String.toList_append, List.append_assoc, head_eq]

/-! ### Names -/

/-- A text that can be the name of a file or folder. -/
def IsName (name : String) : Prop :=
  name ≠ "" ∧ name ≠ "." ∧ name ≠ ".." ∧ '/' ∉ name.toList

instance (name : String) : Decidable (IsName name) :=
  inferInstanceAs (Decidable (_ ∧ _ ∧ _ ∧ _))

theorem IsName.splitOn {name : String} (isName : IsName name) :
    List.splitOn '/' name.toList = [name.toList] :=
  List.splitOn_eq_singleton isName.2.2.2

theorem IsName.between {name : String} (isName : IsName name) : between name.toList = [name] := by
  rw [Disk.between, isName.splitOn, List.filter_cons_of_pos (by simpa using isName.1)]
  simp

theorem IsName.steps {name : String} (isName : IsName name) : steps name = [name] := by
  rw [steps_eq, isName.between, isName.splitOn, if_neg (by simpa using isName.1)]
  rfl

theorem IsName.relative {name : String} (isName : IsName name) : Path.isAbsolute name = false := by
  rw [← Bool.not_eq_true, Path.isAbsolute_iff]
  exact fun head => isName.2.2.2 (List.mem_of_head? head)

/-- The absolute path of a place has the names of the place as its steps. -/
theorem between_place {place : Place} (isNamed : ∀ name ∈ place, IsName name) :
    between ("/" ++ String.intercalate "/" place).toList = place := by
  have behind : between (['/'].intercalate (place.map String.toList)) = place := by
    induction place with
    | nil => rfl
    | cons name rest ih =>
      have first := (isNamed name List.mem_cons_self).between
      have others := ih fun name member => isNamed name (List.mem_cons_of_mem _ member)
      cases rest with
      | nil =>
        rw [List.map_singleton, List.intercalate_singleton]
        exact first
      | cons second rest =>
        rw [List.map_cons, List.map_cons, List.intercalate_cons_cons, List.append_assoc,
          List.singleton_append, between_append, first]
        exact congrArg (name :: ·) others
  rw [String.toList_append, String.toList_intercalate]
  exact (between_append [] _).trans behind

theorem names_place {place : Place} (isNamed : ∀ name ∈ place, IsName name) :
    Path.names ("/" ++ String.intercalate "/" place) = place := by
  rw [Path.names, ← filter_between, between_place isNamed, List.filter_eq_self]
  exact fun name member => bne_iff_ne.mpr (isNamed name member).2.1

/-! ### Trees -/

/-- Everything on the disk stands in a folder, and no file is a folder. -/
structure IsTree (disk : Disk) : Prop where
  around : ∀ place, disk.has place = true → disk.hasFolder place.dropLast = true
  apart : ∀ place, disk.hasFile place = true → disk.hasFolder place = false

variable {disk : Disk}

theorem has_of_hasFile {place : Place} (file : disk.hasFile place = true) :
    disk.has place = true := by
  rw [has, file, Bool.true_or]

theorem has_of_hasFolder {place : Place} (folder : disk.hasFolder place = true) :
    disk.has place = true := by
  rw [has, folder, Bool.or_true]

theorem hasFile_iff {place : Place} :
    disk.hasFile place = true ↔ place ∈ disk.files.map Prod.fst := by
  rw [hasFile, List.lookup_isSome_iff, List.mem_map]
  simp only [beq_iff_eq, @eq_comm _ place]

theorem hasFolder_iff {place : Place} :
    disk.hasFolder place = true ↔ place = [] ∨ place ∈ disk.folders := by
  rw [hasFolder, Bool.or_eq_true, List.isEmpty_iff, List.contains_iff_mem]

theorem isTree_iff : disk.IsTree ↔
    (∀ place ∈ disk.files.map Prod.fst,
      disk.hasFolder place.dropLast = true ∧ disk.hasFolder place = false) ∧
    ∀ place ∈ disk.folders, disk.hasFolder place.dropLast = true := by
  simp only [← hasFile_iff]
  constructor
  · intro tree
    exact ⟨fun place file => ⟨tree.around place (has_of_hasFile file), tree.apart place file⟩,
      fun place folder => tree.around place (has_of_hasFolder (hasFolder_iff.mpr (.inr folder)))⟩
  · rintro ⟨files, folders⟩
    refine ⟨fun place there => ?_, fun place file => (files place file).2⟩
    rw [has, Bool.or_eq_true] at there
    rcases there with file | folder
    · exact (files place file).1
    · rcases hasFolder_iff.mp folder with rfl | folder
      · rfl
      · exact folders place folder

instance : Decidable disk.IsTree :=
  decidable_of_iff _ isTree_iff.symm

namespace IsTree

variable (tree : disk.IsTree)
include tree

/-- What lies on the way to something is a folder. -/
theorem hasFolder_of_has {place rest : Place} (there : disk.has (place ++ rest) = true)
    (onward : rest ≠ []) : disk.hasFolder place = true := by
  induction rest generalizing place with
  | nil => exact (onward rfl).elim
  | cons name rest ih =>
    have next : disk.has (place ++ [name]) = true := by
      by_cases last : rest = []
      · rw [last] at there
        exact there
      · rw [← List.singleton_append, ← List.append_assoc] at there
        exact has_of_hasFolder (ih there last)
    have folder := tree.around _ next
    rwa [List.dropLast_concat] at folder

theorem hasFolder_of_append {place rest : Place} (folder : disk.hasFolder (place ++ rest) = true) :
    disk.hasFolder place = true := by
  by_cases same : rest = []
  · rwa [same, List.append_nil] at folder
  · exact tree.hasFolder_of_has (has_of_hasFolder folder) same

/-- **Steps lead to a folder that is there.** -/
theorem foldlM_step? {steps : List String} {start : Place} (noUp : ".." ∉ steps)
    (there : disk.hasFolder (start ++ steps.filter (· != ".")) = true) :
    steps.foldlM disk.step? start = some (start ++ steps.filter (· != ".")) := by
  induction steps generalizing start with
  | nil => simp
  | cons step more ih =>
    rw [List.mem_cons, not_or] at noUp
    have folder := tree.hasFolder_of_append there
    rw [List.foldlM_cons, step?, folder, if_neg (by decide)]
    by_cases stays : step = "."
    · rw [List.filter_cons_of_neg (by simp [stays])] at there ⊢
      rw [if_pos (by simp [stays])]
      exact ih noUp.2 there
    · have shift : start ++ (step :: more).filter (· != ".") =
          (start ++ [step]) ++ more.filter (· != ".") := by
        rw [List.filter_cons_of_pos (by simp [stays]), List.append_assoc, List.singleton_append]
      rw [shift] at there ⊢
      have next := has_of_hasFolder (tree.hasFolder_of_append there)
      rw [if_neg (by simp [stays]), if_neg (by simpa using Ne.symm noUp.1)]
      dsimp only
      rw [if_pos next]
      exact ih noUp.2 there

end IsTree

/-- **Steps lead nowhere else.** -/
theorem eq_of_foldlM_step? {steps : List String} {start place : Place} (noUp : ".." ∉ steps)
    (led : steps.foldlM disk.step? start = some place) :
    place = start ++ steps.filter (· != ".") := by
  induction steps generalizing start with
  | nil =>
    cases led
    simp
  | cons step more ih =>
    rw [List.mem_cons, not_or] at noUp
    obtain ⟨next, first, led⟩ := Option.bind_eq_some_iff.mp led
    rw [ih noUp.2 led]
    unfold step? at first
    split at first
    · cases first
    · split at first
      next stays =>
        cases first
        rw [List.filter_cons_of_neg (by simpa using stays)]
      next moves =>
        rw [if_neg (by simpa using Ne.symm noUp.1)] at first
        dsimp only at first
        split at first
        · cases first
          rw [List.filter_cons_of_pos (by simpa using moves), List.append_assoc,
            List.singleton_append]
        · cases first

/-! ### Where a path leads -/

/-- The folder that a path starts at, seen from a folder. -/
def baseOf (folder : Place) (path : String) : Place :=
  if Path.isAbsolute path then [] else folder

theorem baseOf_of_relative (folder : Place) {path : String}
    (relative : Path.isAbsolute path = false) : baseOf folder path = folder := by
  rw [baseOf, relative, if_neg (by decide)]

/-- The place that the names of a path mean, seen from a folder. -/
def placeOf (folder : Place) (path : String) : Place :=
  baseOf folder path ++ Path.names path

theorem names_join (directory : String) {path : String} (relative : Path.isAbsolute path = false) :
    Path.names (Path.join directory path) = Path.names directory ++ Path.names path := by
  rw [← filter_steps, steps_join directory relative, List.filter_append, filter_between, filter_steps]
  rfl

theorem placeOf_join (folder : Place) (directory : String) {path : String}
    (relative : Path.isAbsolute path = false) :
    placeOf folder (Path.join directory path) = placeOf folder directory ++ Path.names path := by
  rw [placeOf, placeOf, baseOf, baseOf, isAbsolute_join directory relative,
    names_join directory relative, List.append_assoc]

theorem up_notMem {steps : List String} (noUp : ".." ∉ steps.filter (· != ".")) : ".." ∉ steps :=
  fun member => noUp (List.mem_filter.mpr ⟨member, by decide⟩)

/-- A path without steps up leads to the place of its names, or nowhere. -/
theorem eq_placeOf_of_find? {folder place : Place} {path : String}
    (noUp : ".." ∉ Path.names path) (led : disk.find? folder path = some place) :
    place = placeOf folder path := by
  unfold find? at led
  split at led
  · cases led
  · rw [← filter_steps] at noUp
    rw [eq_of_foldlM_step? (up_notMem noUp) led, filter_steps]
    rfl

/-- **What has a name in the directory of a path is where the two lead together.** -/
theorem IsTree.find?_join (tree : disk.IsTree) {folder : Place} {directory name : String}
    (noUp : ".." ∉ Path.names directory) (isName : IsName name)
    (there : disk.has (placeOf folder directory ++ [name]) = true) :
    disk.find? folder (Path.join directory name) = some (placeOf folder directory ++ [name]) := by
  have steps_eq : steps (Path.join directory name) = between directory.toList ++ [name] := by
    rw [steps_join directory isName.relative, isName.steps]
  have nonempty : ¬(Path.join directory name).isEmpty = true := by
    intro empty
    rw [String.isEmpty_iff.mp empty] at steps_eq
    have last := congrArg List.getLast? steps_eq
    rw [List.getLast?_concat] at last
    exact isName.2.1 (Option.some.inj last).symm
  have around := tree.hasFolder_of_has there (List.cons_ne_nil _ _)
  have led : (between directory.toList).foldlM disk.step? (baseOf folder directory) =
      some (placeOf folder directory) := by
    have filter_eq : (between directory.toList).filter (· != ".") = Path.names directory :=
      filter_between _
    rw [placeOf, ← filter_eq] at around ⊢
    rw [← filter_eq] at noUp
    exact tree.foldlM_step? (up_notMem noUp) around
  rw [find?, if_neg nonempty, steps_eq, isAbsolute_join directory isName.relative,
    ← baseOf, List.foldlM_append, led]
  show (disk.step? (placeOf folder directory) name).bind some = _
  rw [step?, around, if_neg (by decide), if_neg (by simpa using isName.2.1),
    if_neg (by simpa using isName.2.2.1)]
  dsimp only
  rw [if_pos there]
  rfl

/-- A test of what has a name in the directory of a path. -/
theorem IsTree.any_find?_join (tree : disk.IsTree) {folder : Place} {directory name : String}
    (noUp : ".." ∉ Path.names directory) (isName : IsName name) {test : Place → Bool}
    (implies : ∀ place, test place = true → disk.has place = true) :
    (disk.find? folder (Path.join directory name)).any test =
      test (placeOf folder directory ++ [name]) := by
  have names_eq : Path.names name = [name] := by
    rw [← filter_steps, isName.steps, List.filter_cons_of_pos (by simpa using isName.2.1)]
    rfl
  have place_eq := placeOf_join folder directory isName.relative
  rw [names_eq] at place_eq
  have noUpJoined : ".." ∉ Path.names (Path.join directory name) := by
    rw [names_join directory isName.relative, names_eq, List.mem_append, List.mem_singleton]
    exact fun up => up.elim noUp (Ne.symm isName.2.2.1)
  cases found : disk.find? folder (Path.join directory name) with
  | some place =>
    rw [eq_placeOf_of_find? noUpJoined found, place_eq]
    rfl
  | none =>
    rw [Option.any_none, eq_comm, ← Bool.not_eq_true]
    intro passes
    rw [tree.find?_join noUp isName (implies _ passes)] at found
    cases found

end ScriptLint.Disk
