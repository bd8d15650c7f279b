/-
**The settings file that is nearest.**

The settings of a project hold for a target if their file stands in the folder of the target or in one
around it, up to the root of the project. The search goes over the path of the target as it is written.
An absolute path leads through all these folders; a relative one only through those in the folder that
the program was started in.

* `Disk.foldersFrom` — a place and the folders around it.
* `find?_ancestors` — what is above a path, as it is written, in terms of these folders.
* `nearestOf?` — the settings file of the first folder that ends the search.
* `placeFound?_eq` — the search finds this file, of the folders that the path leads through.
* `find_spelling` — when a relative path has the settings of its absolute spelling.
-/

import Mathlib.Data.List.Find
import Mathlib.Data.List.Induction
import ScriptLint.Command.Settings
import ScriptLint.Proofs.Disk.Tree

namespace ScriptLint

namespace Disk

/-! ### The folders around a place -/

/-- A place and the folders around it, the innermost first. -/
def foldersFrom (place : Place) : List Place :=
  place :: foldersAround place

theorem foldersFrom_concat (place : Place) (name : String) :
    foldersFrom (place ++ [name]) = (place ++ [name]) :: foldersFrom place := by
  have shorter : (List.range place.length).reverse.map (place ++ [name]).take =
      foldersAround place := by
    refine List.map_congr_left fun n member => ?_
    rw [List.mem_reverse, List.mem_range] at member
    exact List.take_append_of_le_length member.le
  rw [foldersFrom, foldersAround, List.length_append, List.length_singleton, List.range_succ,
    List.reverse_append, List.reverse_singleton, List.singleton_append, List.map_cons, shorter,
    List.take_left]
  rfl

/-- The folders around a place in a folder: those in this folder, and those around it. -/
theorem foldersFrom_append (base names : Place) :
    foldersFrom (base ++ names) = (foldersFrom names).map (base ++ ·) ++ foldersAround base := by
  induction names using List.reverseRecOn with
  | nil =>
    rw [List.append_nil]
    simp [foldersFrom, foldersAround]
  | append_singleton names name ih =>
    rw [← List.append_assoc, foldersFrom_concat, ih, foldersFrom_concat, List.map_cons,
      List.append_assoc, List.cons_append]

theorem filter_foldersFrom (base names : Place) :
    (foldersFrom (base ++ names)).filter (base.isPrefixOf ·) =
      (foldersFrom names).map (base ++ ·) := by
  have within : ∀ place ∈ (foldersFrom names).map (base ++ ·), base.isPrefixOf place = true := by
    intro place member
    obtain ⟨rest, -, rfl⟩ := List.mem_map.mp member
    exact List.isPrefixOf_iff_prefix.mpr (List.prefix_append base rest)
  have around : ∀ place ∈ foldersAround base, ¬base.isPrefixOf place = true := by
    intro place member inside
    obtain ⟨n, short, rfl⟩ := List.mem_map.mp member
    rw [List.mem_reverse, List.mem_range] at short
    have long := (List.isPrefixOf_iff_prefix.mp inside).length_le
    rw [List.length_take] at long
    omega
  rw [foldersFrom_append, List.filter_append, List.filter_eq_self.mpr within,
    List.filter_eq_nil_iff.mpr around, List.append_nil]

/-! ### What is above a path -/

theorem baseOf_of_isAbove (folder : Place) {above path : String} (isAbove : Path.IsAbove above path) :
    baseOf folder above = baseOf folder path := by
  rw [baseOf, baseOf, isAbove.isAbsolute]

theorem find?_twice (test : Place → Bool) (place : Place) (rest : List Place) :
    (place :: place :: rest).find? test = (place :: rest).find? test := by
  cases passes : test place with
  | true => rw [List.find?_cons_of_pos passes, List.find?_cons_of_pos passes]
  | false => rw [List.find?_cons_of_neg (Bool.not_eq_true _ ▸ passes)]

theorem find?_climb (folder : Place) (test : Place → Bool) {steps : Nat} {path : String}
    (enough : path.toList.length ≤ steps) :
    ((Path.ancestors.climb steps path).map (placeOf folder)).find? test =
      ((foldersFrom (Path.names path)).map (baseOf folder path ++ ·)).find? test := by
  induction steps generalizing path with
  | zero =>
    have empty : path = "" := by
      rw [← String.toList_eq_nil_iff, ← List.length_eq_zero_iff]
      exact Nat.le_zero.mp enough
    rw [empty]
    rfl
  | succ steps ih =>
    unfold Path.ancestors.climb
    cases found : Path.parent? path with
    | none =>
      rw [List.map_singleton, placeOf, Path.names_of_parent?_none found]
      rfl
    | some above =>
      have isAbove := Path.isAbove_of_parent? found
      have others := ih (Nat.le_of_lt_succ (Nat.lt_of_lt_of_le isAbove.shorter enough))
      rw [baseOf_of_isAbove folder isAbove, isAbove.names] at others
      dsimp only
      rw [List.map_cons, List.find?_cons, others, ← List.find?_cons, placeOf]
      rcases List.eq_nil_or_concat (Path.names path) with none | ⟨names, name, some⟩
      · -- a path of dots only: its parent means the same folder
        rw [none]
        exact find?_twice test _ []
      · rw [some, List.concat_eq_append, List.dropLast_concat, foldersFrom_concat, List.map_cons]

/-- **What is above a path**, for a search over places. -/
theorem find?_ancestors (folder : Place) (test : Place → Bool) (path : String) :
    ((Path.ancestors path).map (placeOf folder)).find? test =
      ((foldersFrom (Path.names path)).map (baseOf folder path ++ ·)).find? test :=
  find?_climb folder test (Nat.le_refl _)

theorem names_of_mem_climb {steps : Nat} {path above : String}
    (member : above ∈ Path.ancestors.climb steps path) :
    Path.names above <+: Path.names path := by
  induction steps generalizing path with
  | zero =>
    obtain rfl := List.mem_singleton.mp member
    exact List.prefix_refl _
  | succ steps ih =>
    unfold Path.ancestors.climb at member
    split at member
    next next found =>
      rcases List.mem_cons.mp member with rfl | member
      · exact List.prefix_refl _
      · refine (ih member).trans ?_
        rw [(Path.isAbove_of_parent? found).names]
        exact List.dropLast_prefix _
    next =>
      obtain rfl := List.mem_singleton.mp member
      exact List.prefix_refl _

end Disk

namespace Command.Settings

open Disk (foldersFrom foldersAround placeOf baseOf IsName)

/-! ### The search over folders -/

/-- The settings file that stands in a folder. -/
def fileIn? (disk : Disk) (folder : Place) : Option Place :=
  (fileNames.find? fun name => disk.hasFile (folder ++ [name])).map (folder ++ [·])

/-- The search for a settings file ends in the folder: it holds one, or is the root of a project. -/
def endsIn (disk : Disk) (folder : Place) : Bool :=
  (fileIn? disk folder).isSome || disk.hasFolder (folder ++ [rootMarker])

/-- The settings file in the first of the folders in which the search ends. -/
def nearestOf? (disk : Disk) (folders : List Place) : Option Place :=
  (folders.find? (endsIn disk)).bind (fileIn? disk)

/-- The folder of a target: the one around it, if it is a file. -/
def folderOf (disk : Disk) (place : Place) : Place :=
  if disk.hasFile place then place.dropLast else place

/-- The place of the settings file that is found for a target. -/
def placeFound? (session : Session) (target : String) : Option Place :=
  (nearest? session target).bind (session.disk.find? session.folder)

theorem isName_of_mem_fileNames : ∀ name ∈ fileNames, IsName name := by decide

theorem isName_rootMarker : IsName rootMarker := by decide

variable {session : Session}

/-- The settings file in the directory that a path means. -/
theorem find?_fileNames (tree : session.disk.IsTree) {path : String}
    (noUp : ".." ∉ Path.names path) :
    (fileNames.map (Path.join path)).find? session.isFile =
      (fileNames.find? fun name =>
        session.disk.hasFile (placeOf session.folder path ++ [name])).map (Path.join path) := by
  rw [List.find?_map]
  refine congrArg _ (List.find?_congr fun name member => ?_)
  exact tree.any_find?_join noUp (isName_of_mem_fileNames name member) fun _ => Disk.has_of_hasFile

/-- **The search over paths is the search over their places.** -/
theorem firstIn?_eq (tree : session.disk.IsTree) {paths : List String}
    (noUp : ∀ path ∈ paths, ".." ∉ Path.names path) :
    (firstIn? session paths).bind (session.disk.find? session.folder) =
      nearestOf? session.disk (paths.map (placeOf session.folder)) := by
  induction paths with
  | nil => rfl
  | cons path above ih =>
    have noUpHere := noUp path List.mem_cons_self
    have others := ih fun path member => noUp path (List.mem_cons_of_mem _ member)
    have marker : session.disk.isFolder session.folder (Path.join path rootMarker) =
        session.disk.hasFolder (placeOf session.folder path ++ [rootMarker]) :=
      tree.any_find?_join noUpHere isName_rootMarker fun _ => Disk.has_of_hasFolder
    rw [firstIn?, find?_fileNames tree noUpHere, marker, List.map_cons, nearestOf?,
      List.find?_cons, endsIn, fileIn?]
    cases first : fileNames.find? fun name =>
        session.disk.hasFile (placeOf session.folder path ++ [name]) with
    | some name =>
      have isName := isName_of_mem_fileNames name (List.mem_of_find?_eq_some first)
      have there : session.disk.has (placeOf session.folder path ++ [name]) = true :=
        Disk.has_of_hasFile (by simpa using List.find?_some first)
      simp only [Option.map_some, Option.isSome_some, Bool.true_or, Option.bind_some]
      rw [tree.find?_join noUpHere isName there, fileIn?, first, Option.map_some]
    | none =>
      simp only [Option.map_none, Option.isSome_none, Bool.false_or]
      cases session.disk.hasFolder (placeOf session.folder path ++ [rootMarker]) with
      | true =>
        dsimp only
        rw [if_pos rfl, Option.bind_none, Option.bind_some, fileIn?, first, Option.map_none]
      | false => exact others

/-- **The search above a path** goes over the folders that its names lead through. -/
theorem firstIn?_ancestors (tree : session.disk.IsTree) {path : String}
    (noUp : ".." ∉ Path.names path) :
    (firstIn? session (Path.ancestors path)).bind (session.disk.find? session.folder) =
      nearestOf? session.disk
        ((foldersFrom (Path.names path)).map (baseOf session.folder path ++ ·)) := by
  have noUpAbove : ∀ above ∈ Path.ancestors path, ".." ∉ Path.names above :=
    fun above member up => noUp ((Disk.names_of_mem_climb member).subset up)
  rw [firstIn?_eq tree noUpAbove, nearestOf?, Disk.find?_ancestors]
  rfl

theorem firstIn?_parent (tree : session.disk.IsTree) {path above : String}
    (noUp : ".." ∉ Path.names path) (found : Path.parent? path = some above) :
    (firstIn? session (Path.ancestors above)).bind (session.disk.find? session.folder) =
      nearestOf? session.disk
        ((foldersFrom (Path.names path).dropLast).map (baseOf session.folder path ++ ·)) := by
  have isAbove := Path.isAbove_of_parent? found
  have noUpAbove : ".." ∉ Path.names above := by
    rw [isAbove.names]
    exact fun up => noUp (List.dropLast_subset _ up)
  rw [firstIn?_ancestors tree noUpAbove, Disk.baseOf_of_isAbove _ isAbove, isAbove.names]

/-- Nothing stands in a file. -/
theorem endsIn_of_hasFile (tree : session.disk.IsTree) {place : Place}
    (file : session.disk.hasFile place = true) : endsIn session.disk place = false := by
  have nothing : ∀ name, session.disk.has (place ++ [name]) = false := by
    intro name
    rw [← Bool.not_eq_true]
    intro there
    have folder := tree.hasFolder_of_has there (List.cons_ne_nil _ _)
    rw [tree.apart place file] at folder
    cases folder
  have nothing : ∀ name, session.disk.hasFile (place ++ [name]) = false ∧
      session.disk.hasFolder (place ++ [name]) = false :=
    fun name => Bool.or_eq_false_iff.mp (nothing name)
  rw [endsIn, fileIn?, (nothing rootMarker).2, List.find?_eq_none.mpr fun name _ => ?_]
  · rfl
  · rw [(nothing name).1]
    decide

section Target

variable (tree : session.disk.IsTree) (stands : session.disk.hasFolder session.folder = true)
  {path : String}
include tree stands

/-- A file is not where a path starts. -/
theorem names_ne_nil_of_hasFile
    (file : session.disk.hasFile (placeOf session.folder path) = true) : Path.names path ≠ [] := by
  intro none
  have apart := tree.apart _ file
  have folder : session.disk.hasFolder (baseOf session.folder path) = true := by
    unfold baseOf
    split
    · rfl
    · exact stands
  rw [placeOf, none, List.append_nil, folder] at apart
  cases apart

theorem folderOf_of_hasFile
    (file : session.disk.hasFile (placeOf session.folder path) = true) :
    folderOf session.disk (placeOf session.folder path) =
      baseOf session.folder path ++ (Path.names path).dropLast := by
  rw [folderOf, if_pos file, placeOf,
    List.dropLast_append_of_ne_nil (names_ne_nil_of_hasFile tree stands file)]

/-- A path that goes on behind a file: the search starts in the file, where there is nothing. -/
theorem firstIn?_file (noUp : ".." ∉ Path.names path)
    (file : session.disk.hasFile (placeOf session.folder path) = true) :
    (firstIn? session (Path.ancestors path)).bind (session.disk.find? session.folder) =
      nearestOf? session.disk
        ((foldersFrom (Path.names path).dropLast).map (baseOf session.folder path ++ ·)) := by
  obtain ⟨names, name, names_eq⟩ := (List.eq_nil_or_concat (Path.names path)).resolve_left
    (names_ne_nil_of_hasFile tree stands file)
  rw [List.concat_eq_append] at names_eq
  have ends := endsIn_of_hasFile tree file
  rw [placeOf, names_eq] at ends
  rw [firstIn?_ancestors tree noUp, names_eq, List.dropLast_concat, Disk.foldersFrom_concat,
    List.map_cons, nearestOf?, List.find?_cons_of_neg (by simp [ends])]
  rfl

/-- **The settings file that is found for a target**: the nearest of the folders around the target
that its path leads through. -/
theorem placeFound?_eq (noUp : ".." ∉ Path.names path) :
    placeFound? session path = nearestOf? session.disk
      ((foldersFrom (folderOf session.disk (placeOf session.folder path))).filter
        ((baseOf session.folder path).isPrefixOf ·)) := by
  by_cases file : session.disk.hasFile (placeOf session.folder path) = true
  · rw [folderOf_of_hasFile tree stands file, Disk.filter_foldersFrom]
    by_cases led : session.isFile path = true
    · have some := names_ne_nil_of_hasFile tree stands file
      obtain ⟨above, found⟩ : ∃ above, Path.parent? path = .some above :=
        Option.ne_none_iff_exists'.mp fun orphan => some (Path.names_of_parent?_none orphan)
      rw [placeFound?, nearest?, if_pos led, found]
      exact firstIn?_parent tree noUp found
    · rw [placeFound?, nearest?, if_neg led]
      exact firstIn?_file tree stands noUp file
  · have notLed : ¬session.isFile path = true := by
      intro led
      obtain ⟨place, found, isFile⟩ := (Option.any_eq_true _ _).mp led
      rw [Disk.eq_placeOf_of_find? noUp found] at isFile
      exact file isFile
    rw [folderOf, if_neg file, placeOf, Disk.filter_foldersFrom, placeFound?, nearest?, if_neg notLed]
    exact firstIn?_ancestors tree noUp

/-- The folder of a target stands in the folder that its path starts at. -/
theorem exists_folderOf (path : String) :
    ∃ names, folderOf session.disk (placeOf session.folder path) =
      baseOf session.folder path ++ names := by
  by_cases file : session.disk.hasFile (placeOf session.folder path) = true
  · exact ⟨_, folderOf_of_hasFile tree stands file⟩
  · exact ⟨Path.names path, if_neg file⟩

end Target

/-! ### Two spellings of a target -/

/-- The same settings: one file of the project, found by any path, or the same of those that belong to
no project. -/
def Same (session : Session) : Settings → Settings → Prop
  | project path, project other =>
    session.disk.find? session.folder path = session.disk.find? session.folder other
  | settings, other => settings = other

/-- The settings of what belongs to no project with settings. -/
def shared (session : Session) : Settings :=
  match (globalFolder? session).map (Path.join · "config.toml") with
  | some path => if session.isFile path then global path else defaults
  | none => defaults

theorem shared_ne_project (path : String) : shared session ≠ project path := by
  unfold shared
  split
  · split <;> exact Settings.noConfusion
  · exact Settings.noConfusion

theorem same_iff_eq {settings other : Settings}
    (apart : (∀ path, settings ≠ project path) ∨ ∀ path, other ≠ project path) :
    Same session settings other ↔ settings = other := by
  unfold Same
  split
  next path other =>
    rcases apart with apart | apart
    · exact (apart path rfl).elim
    · exact (apart other rfl).elim
  next => rfl

theorem isFile_of_firstIn? {paths : List String} {path : String}
    (found : firstIn? session paths = some path) : session.isFile path = true := by
  induction paths with
  | nil => cases found
  | cons first above ih =>
    unfold firstIn? at found
    split at found
    next here =>
      cases found
      exact List.find?_some here
    next =>
      split at found
      · cases found
      · exact ih found

theorem isFile_of_nearest? {target path : String} (found : nearest? session target = some path) :
    session.isFile path = true := by
  unfold nearest? at found
  dsimp only at found
  split at found
  · obtain ⟨start, -, found⟩ := Option.bind_eq_some_iff.mp found
    exact isFile_of_firstIn? found
  · exact isFile_of_firstIn? found

/-- A target has settings of a project if a file is found for it. -/
theorem find_cases (session : Session) (target : String) :
    (∃ path place, find session target none = project path ∧
      session.disk.find? session.folder path = some place ∧
      placeFound? session target = some place) ∨
    find session target none = shared session ∧ placeFound? session target = none := by
  unfold find placeFound?
  cases found : nearest? session target with
  | none => exact .inr ⟨rfl, rfl⟩
  | some path =>
    obtain ⟨place, led, -⟩ := (Option.any_eq_true _ _).mp (isFile_of_nearest? found)
    exact .inl ⟨path, place, rfl, led, led⟩

/-- Two targets have the same settings if one file is found for both, or none for either. -/
theorem same_find_iff (target other : String) :
    Same session (find session target none) (find session other none) ↔
      placeFound? session target = placeFound? session other := by
  rcases find_cases session target with
      ⟨path, place, settings, led, found⟩ | ⟨settings, found⟩ <;>
    rcases find_cases session other with
      ⟨path', place', settings', led', found'⟩ | ⟨settings', found'⟩ <;>
    rw [settings, settings', found, found']
  · rw [Same, led, led']
  · rw [same_iff_eq (.inr shared_ne_project)]
    exact iff_of_false (fun same => shared_ne_project path same.symm) (Option.some_ne_none place)
  · rw [same_iff_eq (.inl shared_ne_project)]
    exact iff_of_false (shared_ne_project path') (Option.some_ne_none place').symm
  · rw [same_iff_eq (.inl shared_ne_project)]
    exact iff_of_true rfl rfl

/-- More folders around make a difference only if the search does not end before. -/
theorem nearestOf?_append_iff {disk : Disk} (inner outer : List Place) :
    nearestOf? disk inner = nearestOf? disk (inner ++ outer) ↔
      (∃ folder ∈ inner, endsIn disk folder = true) ∨ nearestOf? disk outer = none := by
  rw [nearestOf?, nearestOf?, List.find?_append]
  cases first : inner.find? (endsIn disk) with
  | some folder =>
    have ends : ∃ folder ∈ inner, endsIn disk folder = true :=
      ⟨folder, List.mem_of_find?_eq_some first, List.find?_some first⟩
    simp only [Option.some_or, ends, true_or]
  | none =>
    have ends : ¬∃ folder ∈ inner, endsIn disk folder = true :=
      fun ⟨folder, member, ends⟩ => List.find?_eq_none.mp first folder member ends
    simp only [Option.none_or, Option.bind_none, ends, false_or]
    exact eq_comm

/-- The folders around a target, given by its path from the folder that the program was started in. -/
def foldersOf (session : Session) (target : String) : List Place :=
  foldersFrom (folderOf session.disk (session.folder ++ Path.names target))

theorem foldersOf_eq (tree : session.disk.IsTree)
    (stands : session.disk.hasFolder session.folder = true) {target : String}
    (relative : Path.isAbsolute target = false) :
    foldersOf session target =
      (foldersOf session target).filter (session.folder.isPrefixOf ·) ++
        foldersAround session.folder := by
  obtain ⟨names, folder_eq⟩ := exists_folderOf tree stands target
  rw [placeOf, Disk.baseOf_of_relative _ relative] at folder_eq
  rw [foldersOf, folder_eq, Disk.filter_foldersFrom, Disk.foldersFrom_append]

/-- For the absolute spelling of a target the search goes over all folders around it. -/
theorem placeFound?_directory (tree : session.disk.IsTree)
    (stands : session.disk.hasFolder session.folder = true)
    (isNamed : ∀ name ∈ session.folder, IsName name) {target : String}
    (relative : Path.isAbsolute target = false) (noUp : ".." ∉ Path.names target) :
    placeFound? session (Path.join session.directory target) =
      nearestOf? session.disk (foldersOf session target) := by
  have absolute : Path.isAbsolute session.directory = true := by
    rw [Path.isAbsolute_iff, Session.directory, String.toList_append]
    rfl
  have names_eq : Path.names session.directory = session.folder := Disk.names_place isNamed
  have base_eq : baseOf session.folder (Path.join session.directory target) = [] := by
    rw [baseOf, Disk.isAbsolute_join _ relative, absolute, if_pos rfl]
  have noUpJoined : ".." ∉ Path.names (Path.join session.directory target) := by
    rw [Disk.names_join _ relative, names_eq, List.mem_append, not_or]
    exact ⟨fun up => (isNamed _ up).2.2.1 rfl, noUp⟩
  have found := placeFound?_eq tree stands noUpJoined
  rw [placeOf, base_eq, List.nil_append, Disk.names_join _ relative, names_eq] at found
  rw [found, foldersOf]
  exact congrArg _ (List.filter_eq_self.mpr fun _ _ => rfl)

/-- **The settings of a relative target and of its absolute spelling.** For the absolute spelling the
nearest settings file is found, of all folders around the target up to the root of the project. For the
relative one it is found only in those that stand in the folder that the program was started in. So
the two have the same settings exactly if the search ends in one of these, or would find nothing in the
folders around them. -/
theorem find_spelling (tree : session.disk.IsTree)
    (stands : session.disk.hasFolder session.folder = true)
    (isNamed : ∀ name ∈ session.folder, IsName name) {target : String}
    (relative : Path.isAbsolute target = false) (noUp : ".." ∉ Path.names target) :
    placeFound? session (Path.join session.directory target) =
      nearestOf? session.disk (foldersOf session target) ∧
    placeFound? session target =
      nearestOf? session.disk ((foldersOf session target).filter (session.folder.isPrefixOf ·)) ∧
    (Same session (find session target none)
        (find session (Path.join session.directory target) none) ↔
      (∃ folder ∈ foldersOf session target,
        session.folder <+: folder ∧ endsIn session.disk folder = true) ∨
      nearestOf? session.disk (foldersAround session.folder) = none) := by
  have byRelative := placeFound?_eq tree stands noUp
  rw [placeOf, Disk.baseOf_of_relative _ relative] at byRelative
  have byAbsolute := placeFound?_directory tree stands isNamed relative noUp
  refine ⟨byAbsolute, byRelative, ?_⟩
  have inner_outer := foldersOf_eq tree stands relative
  rw [same_find_iff, byAbsolute, byRelative]
  change nearestOf? session.disk ((foldersOf session target).filter _) = _ ↔ _
  rw [congrArg (nearestOf? session.disk) inner_outer, nearestOf?_append_iff]
  simp only [List.mem_filter, List.isPrefixOf_iff_prefix, and_assoc]

/-- A project whose settings file stands beside its folder of assets. -/
def game : Disk where
  files := [
    (["Game", "unity-lint.toml"], some "[rules.editor-api-outside-editor]\nenabled = false\n"),
    (["Game", "Assets", "Scripts", "Tool.cs"], some "using UnityEditor;\n")]
  folders := [["Game"], ["Game", "ProjectSettings"], ["Game", "Assets"],
    ["Game", "Assets", "Scripts"]]

/-- A session in this project, without global settings. -/
def inGame (folder : Place) : Session :=
  ⟨game, folder, none, none⟩

theorem find_spelling_game :
    Same (inGame ["Game"]) (find (inGame ["Game"]) "./Assets//Scripts/Tool.cs" none)
      (find (inGame ["Game"]) "/Game/./Assets//Scripts/Tool.cs" none) := by
  have isTree : game.IsTree := by decide
  obtain ⟨-, -, same⟩ := @find_spelling (inGame ["Game"]) isTree (by decide) (by decide)
    "./Assets//Scripts/Tool.cs" (by decide) (by decide +kernel)
  exact same.mpr (.inl ⟨["Game"], by decide +kernel, by decide, by decide +kernel⟩)

/-- **A relative target may lack the settings of its project.** -/
theorem find_within_assets :
    game.IsTree ∧ game.hasFolder ["Game", "Assets"] = true ∧
    Path.isAbsolute "Scripts" = false ∧ ".." ∉ Path.names "Scripts" ∧
    find (inGame ["Game", "Assets"]) "Scripts" none = .defaults ∧
    find (inGame ["Game", "Assets"])
      (Path.join (inGame ["Game", "Assets"]).directory "Scripts") none =
        .project "/Game/unity-lint.toml" := by
  decide +kernel

end Command.Settings

end ScriptLint
