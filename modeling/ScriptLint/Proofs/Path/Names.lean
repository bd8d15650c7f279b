/-
**The names that a path consists of.**

Separators in a row, at the end, and dots make no difference to where a path leads. What makes it are
the names between them, and whether it starts at the root.

* `pieces`, `names` — the names of a path, in order; `slash_induction` — a text, cut at its slashes.
* `pieces_append`, `pieces_reverse` — the names of two paths in a row, and of a path read backwards.
* `pieces_trimVoid`, `pieces_trimVoidEnd` — what is trimmed from a path has no names.
* `Opens`, `opens_splitOpening` — the root or the dot that a path starts with.
* `isAbove_of_parent?`, `names_of_parent?_none` — the parent of a path lacks its last name; a path
  without parent has none.
-/

import Mathlib.Data.List.TakeWhile
import ScriptLint.Path
import ScriptLint.Proofs.Name.Segments

namespace ScriptLint

namespace Path

/-- The pieces of a text between slashes, without those that do not count. -/
def pieces (text : List Char) : List (List Char) :=
  (List.splitOn '/' text).filter (!isVoid ·)

/-- The names of a path. -/
def names (path : String) : List String :=
  (pieces path.toList).map String.ofList

theorem pieces_append (s t : List Char) : pieces (s ++ '/' :: t) = pieces s ++ pieces t := by
  rw [pieces, List.splitOn_append_cons_self, List.filter_append]
  rfl

theorem pieces_plain {s : List Char} (plain : '/' ∉ s) : pieces s = [s].filter (!isVoid ·) := by
  rw [pieces, List.splitOn_eq_singleton plain]

theorem pieces_slash (s : List Char) : pieces ('/' :: s) = pieces s :=
  pieces_append [] s

/-! ### Cutting a text at its slashes -/

theorem slash_not_mem_firstSegment (s : List Char) : '/' ∉ firstSegment s := by
  intro member
  have passed := List.mem_takeWhile_imp member
  simp at passed

/-- A text is its first segment, or this and what stands behind the slash. -/
theorem eq_segments (s : List Char) :
    s = firstSegment s ∧ afterSegment s = [] ∨ s = firstSegment s ++ '/' :: afterSegment s := by
  have whole := List.takeWhile_append_dropWhile (p := (· != '/')) (l := s)
  unfold firstSegment afterSegment
  cases left : s.dropWhile (· != '/') with
  | nil =>
    rw [left, List.append_nil] at whole
    exact .inl ⟨whole.symm, rfl⟩
  | cons c rest =>
    have stops := List.head?_dropWhile_not (· != '/') s
    rw [left] at stops whole
    have isSlash : c = '/' := by simpa using stops
    rw [isSlash] at whole
    exact .inr whole.symm

/-- A text is cut at its first slash, and again behind it. -/
theorem slash_induction {P : List Char → Prop} (plain : ∀ s, '/' ∉ s → P s)
    (joined : ∀ s t, '/' ∉ s → P t → P (s ++ '/' :: t)) (s : List Char) : P s := by
  induction s using Text.marks_induction (· == '/') with
  | plain s absent =>
    exact plain s fun member => by simpa using absent '/' member
  | joined s c t absent isSlash ih =>
    obtain rfl : c = '/' := by simpa using isSlash
    exact joined s t (fun member => by simpa using absent '/' member) ih

theorem pieces_segments (s : List Char) :
    pieces s = [firstSegment s].filter (!isVoid ·) ++ pieces (afterSegment s) := by
  have first := pieces_plain (slash_not_mem_firstSegment s)
  rcases eq_segments s with ⟨whole, none⟩ | split
  · rw [none, ← first, ← whole]
    exact (List.append_nil _).symm
  · conv_lhs => rw [split, pieces_append, first]

theorem isVoid_reverse (s : List Char) : isVoid s.reverse = isVoid s := by
  have dot : s.reverse = ['.'] ↔ s = ['.'] := by
    rw [← List.reverse_inj, List.reverse_reverse]
    rfl
  unfold isVoid
  rw [List.isEmpty_reverse, Bool.eq_iff_iff]
  simp only [Bool.or_eq_true, beq_iff_eq, dot]

/-- A path read backwards has its names read backwards. -/
theorem pieces_reverse (s : List Char) : pieces s.reverse = (pieces s).reverse.map List.reverse := by
  have plain_eq : ∀ s : List Char, '/' ∉ s →
      pieces s.reverse = (pieces s).reverse.map List.reverse := by
    intro s plain
    rw [pieces_plain plain, pieces_plain (by simpa using plain)]
    cases void : isVoid s with
    | true => simp [isVoid_reverse, void]
    | false => simp [isVoid_reverse, void]
  induction s using slash_induction with
  | plain s plain => exact plain_eq s plain
  | joined s t plain ih =>
    have back : (s ++ '/' :: t).reverse = t.reverse ++ '/' :: s.reverse := by simp
    rw [back, pieces_append, pieces_append, ih, plain_eq s plain, List.reverse_append,
      List.map_append]

/-! ### Trimming -/

theorem pieces_trimVoid (s : List Char) : pieces (trimVoid s) = pieces s := by
  fun_induction trimVoid s with
  | case1 => rfl
  | case2 c rest void ih =>
    have dropped : [firstSegment (c :: rest)].filter (!isVoid ·) = [] := by simp [void]
    rw [ih, pieces_segments (c :: rest), dropped]
    rfl
  | case3 c rest counts => rfl

theorem trimVoid_suffix (s : List Char) : trimVoid s <:+ s := by
  fun_induction trimVoid s with
  | case1 => exact List.suffix_refl _
  | case2 c rest void ih =>
    exact ih.trans ((List.drop_suffix _ _).trans (List.dropWhile_suffix _))
  | case3 c rest counts => exact List.suffix_refl _

/-- What is left begins with a name. -/
theorem isVoid_firstSegment_trimVoid {s : List Char} (left : trimVoid s ≠ []) :
    isVoid (firstSegment (trimVoid s)) = false := by
  fun_induction trimVoid s with
  | case1 => exact (left rfl).elim
  | case2 c rest void ih => exact ih left
  | case3 c rest counts => simpa using counts

theorem pieces_trimVoidEnd (s : List Char) : pieces (trimVoidEnd s) = pieces s := by
  rw [trimVoidEnd, pieces_reverse, pieces_trimVoid, pieces_reverse, ← List.map_reverse,
    List.reverse_reverse, List.map_map]
  simp

theorem prefix_trimVoidEnd (s : List Char) : trimVoidEnd s <+: s := by
  have back := trimVoid_suffix s.reverse
  rw [← List.reverse_prefix, List.reverse_reverse] at back
  exact back

/-! ### The parent of a path -/

/-- The part of a path behind its opening, without its last name. -/
def bodyAbove (body : List Char) : List Char :=
  trimVoidEnd (afterSegment (trimVoidEnd body).reverse).reverse

theorem pieces_of_trimVoidEnd_eq_nil {body : List Char} (none : trimVoidEnd body = []) :
    pieces body = [] := by
  rw [← pieces_trimVoidEnd, none]
  rfl

theorem pieces_bodyAbove {body : List Char} (some : trimVoidEnd body ≠ []) :
    pieces (bodyAbove body) = (pieces body).dropLast := by
  have reversed : (trimVoidEnd body).reverse = trimVoid body.reverse := List.reverse_reverse _
  have counts : isVoid (firstSegment (trimVoid body.reverse)) = false := by
    refine isVoid_firstSegment_trimVoid fun none => some ?_
    rw [trimVoidEnd, none]
    rfl
  -- Backwards, the last name is the first segment.
  have split := pieces_segments (trimVoid body.reverse)
  rw [pieces_trimVoid, pieces_reverse, List.filter_cons_of_pos (by simp [counts])] at split
  have forwards : pieces body = (pieces (afterSegment (trimVoid body.reverse))).reverse.map
      List.reverse ++ [(firstSegment (trimVoid body.reverse)).reverse] := by
    have back := congrArg (fun l => l.reverse.map List.reverse) split
    simpa using back
  rw [bodyAbove, reversed, pieces_trimVoidEnd, pieces_reverse, forwards, List.dropLast_concat]

theorem prefix_bodyAbove (body : List Char) : bodyAbove body <+: body := by
  have behind : (afterSegment (trimVoidEnd body).reverse).reverse <+: trimVoidEnd body := by
    rw [← List.reverse_suffix, List.reverse_reverse]
    exact (List.drop_suffix _ _).trans (List.dropWhile_suffix _)
  exact (prefix_trimVoidEnd _).trans (behind.trans (prefix_trimVoidEnd body))

theorem length_bodyAbove_lt {body : List Char} (some : trimVoidEnd body ≠ []) :
    (bodyAbove body).length < body.length := by
  have first := (prefix_trimVoidEnd (afterSegment (trimVoidEnd body).reverse).reverse).length_le
  have second := afterSegment_length_lt (List.reverse_ne_nil_iff.mpr some)
  have third := (prefix_trimVoidEnd body).length_le
  rw [List.length_reverse] at first second
  exact Nat.lt_of_le_of_lt first (Nat.lt_of_lt_of_le second third)

/-- The text of an opening. -/
def openingText : Option Component → List Char
  | some .root => ['/']
  | some _ => ['.']
  | none => []

/-- The opening of a path stands before the rest of it and, before any first part of this rest, makes
no name; it is the root if this text starts with a slash. -/
structure Opens (opening : Option Component) (body text : List Char) : Prop where
  text_eq : text = openingText opening ++ body
  pieces_eq : ∀ part, part <+: body → pieces (openingText opening ++ part) = pieces part
  root_iff : ∀ part, part <+: body →
    ((openingText opening ++ part).head? = some '/' ↔ opening = some .root)

theorem pieces_dot {body : List Char} (behind : body = [] ∨ ∃ rest, body = '/' :: rest) :
    pieces ('.' :: body) = pieces body := by
  rcases behind with rfl | ⟨rest, rfl⟩
  · rfl
  · rw [pieces_slash]
    exact pieces_append ['.'] rest

theorem opens_dot {body : List Char} (behind : body = [] ∨ ∃ rest, body = '/' :: rest) :
    Opens (some .here) body ('.' :: body) where
  text_eq := rfl
  pieces_eq := by
    intro part isPart
    refine pieces_dot ?_
    rcases behind with rfl | ⟨rest, rfl⟩
    · exact .inl (List.prefix_nil.mp isPart)
    · rcases List.prefix_cons_iff.mp isPart with nil | ⟨tail, cons, -⟩
      · exact .inl nil
      · exact .inr ⟨tail, cons⟩
  root_iff := fun _ _ => by simp [openingText]

theorem opens_splitOpening (text : List Char) :
    Opens (splitOpening text).1 (splitOpening text).2 text := by
  unfold splitOpening
  split
  · exact ⟨rfl, fun part _ => pieces_slash part, fun _ _ => by simp [openingText]⟩
  · exact opens_dot (.inl rfl)
  · exact opens_dot (.inr ⟨_, rfl⟩)
  next notRoot _ _ =>
    refine ⟨rfl, fun _ _ => rfl, fun part isPart => iff_of_false (fun isRoot => ?_) (by simp)⟩
    obtain ⟨tail, rfl⟩ := List.head?_eq_some_iff.mp isRoot
    obtain ⟨rest, rfl⟩ := isPart
    exact notRoot (tail ++ rest) rfl

theorem isAbsolute_iff (path : String) : isAbsolute path = true ↔ path.toList.head? = some '/' := by
  unfold isAbsolute
  cases path.toList with
  | nil => simp
  | cons c rest =>
    rw [List.head?_cons]
    split
    next same =>
      cases same
      simp
    next other =>
      simp only [Bool.false_eq_true, Option.some.injEq, false_iff]
      rintro rfl
      exact other rest rfl

/-- A path whose part behind the opening has no names has a parent only if it opens with a dot. -/
theorem parent?_of_nil {path : String} (none : trimVoidEnd (splitOpening path.toList).2 = []) :
    parent? path = if (splitOpening path.toList).1 = some .here then some "" else .none := by
  unfold parent?
  dsimp only
  rw [none]
  rcases (splitOpening path.toList).1 with _ | _ | _ | _ | _ <;> rfl

theorem parent?_of_ne_nil {path : String} (some : trimVoidEnd (splitOpening path.toList).2 ≠ []) :
    parent? path = .some (String.ofList (openingText (splitOpening path.toList).1 ++
      bodyAbove (splitOpening path.toList).2)) := by
  obtain ⟨last, reversed, isReversed⟩ :=
    List.exists_cons_of_ne_nil (List.reverse_ne_nil_iff.mpr some)
  unfold parent? bodyAbove
  dsimp only
  rw [isReversed]
  rcases (splitOpening path.toList).1 with _ | _ | _ | _ | _ <;> rfl

/-- The path is another without its last name: it starts where that starts, and is shorter. -/
structure IsAbove (above path : String) : Prop where
  names : names above = (Path.names path).dropLast
  isAbsolute : isAbsolute above = Path.isAbsolute path
  shorter : above.toList.length < path.toList.length

/-- **The parent of a path** lacks its last name. -/
theorem isAbove_of_parent? {path above : String} (found : parent? path = some above) :
    IsAbove above path := by
  have opens := opens_splitOpening path.toList
  have pieces_path := opens.pieces_eq _ (List.prefix_refl _)
  have root_path := opens.root_iff _ (List.prefix_refl _)
  rw [← opens.text_eq] at pieces_path root_path
  by_cases none : trimVoidEnd (splitOpening path.toList).2 = []
  · rw [parent?_of_nil none] at found
    split at found
    next isHere =>
      cases found
      rw [isHere] at root_path
      refine ⟨?_, ?_, ?_⟩
      · rw [names, names, pieces_path, pieces_of_trimVoidEnd_eq_nil none]
        rfl
      · rw [Bool.eq_iff_iff, isAbsolute_iff, isAbsolute_iff, root_path]
        simp
      · rw [opens.text_eq, isHere]
        exact Nat.succ_pos _
    next => cases found
  · rw [parent?_of_ne_nil none] at found
    cases found
    have isPart := prefix_bodyAbove (splitOpening path.toList).2
    refine ⟨?_, ?_, ?_⟩
    · rw [names, names, String.toList_ofList, opens.pieces_eq _ isPart, pieces_path,
        pieces_bodyAbove none, List.map_dropLast]
    · rw [Bool.eq_iff_iff, isAbsolute_iff, isAbsolute_iff, String.toList_ofList,
        opens.root_iff _ isPart, root_path]
    · have shorter := length_bodyAbove_lt none
      have whole := congrArg List.length opens.text_eq
      rw [List.length_append] at whole
      rw [String.toList_ofList, List.length_append]
      omega

/-- A path without a parent has no names. -/
theorem names_of_parent?_none {path : String} (orphan : parent? path = none) : names path = [] := by
  have opens := opens_splitOpening path.toList
  have trimmed : trimVoidEnd (splitOpening path.toList).2 = [] := by
    by_contra some
    rw [parent?_of_ne_nil some] at orphan
    cases orphan
  rw [names, opens.text_eq, opens.pieces_eq _ (List.prefix_refl _),
    pieces_of_trimVoidEnd_eq_nil trimmed]
  rfl

end Path

end ScriptLint
