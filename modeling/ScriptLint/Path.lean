/-
**Paths as written, and what they consist of.**

A path is a string with `/` between its names. Two spellings of one path have the same components:
repeated and trailing separators do not count, nor does a `.` except at the very start.

* `components` — a root, a leading dot, steps up, and names.
* `compare` — the order of paths, component by component; names compare by code point.
* `relativeTo?` — what is left of a path after the components of another, as it is written there.
* `parent?`, `ancestors` — a path without its last component, and so on.
* `join` — a path taken from a directory; an absolute one stands for itself.
-/

import ScriptLint.Text.Find

namespace ScriptLint.Path

/-- A part of a path, in the order in which they compare. -/
inductive Component where
  /-- The separator that an absolute path starts with. -/
  | root
  /-- The dot that a relative path starts with. -/
  | here
  /-- Two dots. -/
  | up
  /-- A file or directory name. -/
  | name (text : List Char)
deriving Repr, DecidableEq, Inhabited

/-- A segment that does not count: empty, or a dot. -/
def isVoid (segment : List Char) : Bool :=
  segment.isEmpty || segment == ['.']

/-- The component a segment stands for. -/
def Component.ofSegment (segment : List Char) : Component :=
  if segment == ['.', '.'] then up else name segment

/-- The path splits into its first component, if that is a root or a dot, and the rest. -/
def splitOpening (path : List Char) : Option Component × List Char :=
  match path with
  | '/' :: rest => (some .root, rest)
  | ['.'] => (some .here, [])
  | '.' :: '/' :: rest => (some .here, '/' :: rest)
  | _ => (none, path)

/-- The components of a path after its opening. -/
def bodyComponents (body : List Char) : List Component :=
  ((List.splitOn '/' body).filter (!isVoid ·)).map Component.ofSegment

/-- The components of a path. -/
def components (path : String) : List Component :=
  let (opening, body) := splitOpening path.toList
  opening.toList ++ bodyComponents body

/-- The rank of the forms of a component. -/
def Component.rank : Component → Nat
  | root => 0
  | here => 1
  | up => 2
  | name _ => 3

/-- The order of two texts by code point. -/
def compareText : List Char → List Char → Ordering
  | [], [] => .eq
  | [], _ :: _ => .lt
  | _ :: _, [] => .gt
  | a :: s, b :: t => (Ord.compare a.toNat b.toNat).then (compareText s t)

/-- The order of components: by form, then by name. -/
def Component.compare : Component → Component → Ordering
  | name a, name b => compareText a b
  | a, b => Ord.compare a.rank b.rank

/-- The order of component lists, first difference first. -/
def compareComponents : List Component → List Component → Ordering
  | [], [] => .eq
  | [], _ :: _ => .lt
  | _ :: _, [] => .gt
  | a :: s, b :: t => (a.compare b).then (compareComponents s t)

/-- The order of paths. -/
def compare (a b : String) : Ordering :=
  compareComponents (components a) (components b)

/-- The text after the first segment and its separator. -/
def afterSegment (body : List Char) : List Char :=
  (body.dropWhile (· != '/')).drop 1

/-- The first segment of a text. -/
def firstSegment (body : List Char) : List Char :=
  body.takeWhile (· != '/')

theorem afterSegment_length_lt {body : List Char} (nonempty : body ≠ []) :
    (afterSegment body).length < body.length := by
  have shorter : (body.dropWhile (· != '/')).length ≤ body.length :=
    (List.dropWhile_sublist _).length_le
  have positive : 0 < body.length := List.length_pos_iff.mpr nonempty
  simp only [afterSegment, List.length_drop]
  omega

/-- The text without the void segments it starts with. -/
def trimVoid (body : List Char) : List Char :=
  match body with
  | [] => []
  | c :: rest =>
    if isVoid (firstSegment (c :: rest)) then trimVoid (afterSegment (c :: rest)) else c :: rest
termination_by body.length
decreasing_by exact afterSegment_length_lt (by simp)

/-- The text without the void segments it ends with. -/
def trimVoidEnd (body : List Char) : List Char :=
  (trimVoid body.reverse).reverse

/-- What is left of a text after the given components, as written. -/
def dropComponents : List Component → List Char → Option (List Char)
  | [], body => some (trimVoid body)
  | expected :: more, body =>
    let body := trimVoid body
    if !body.isEmpty && Component.ofSegment (firstSegment body) == expected then
      dropComponents more (afterSegment body)
    else
      none

/-- What is left of `path` below `base`, as written but without separators and dots at its ends;
none when `path` does not begin with the components of `base`. -/
def relativeTo? (base path : String) : Option String :=
  let (opening, body) := splitOpening path.toList
  match components base with
  | [] =>
    let start := path.toList.take (path.toList.length - body.length)
    some (String.ofList (start ++ trimVoidEnd body))
  | first :: more =>
    let rest? :=
      match opening with
      | some found => if found == first then dropComponents more body else none
      | none => dropComponents (first :: more) body
    rest?.map fun rest => String.ofList (trimVoidEnd rest)

/-- The path without its last component, as written; none for the root and the empty path. -/
def parent? (path : String) : Option String :=
  let (opening, body) := splitOpening path.toList
  match (trimVoidEnd body).reverse with
  | [] =>
    match opening with
    | some .here => some ""
    | _ => none
  | last :: reversed =>
    let rest := trimVoidEnd (afterSegment (last :: reversed)).reverse
    match opening with
    | some .root => some (String.ofList ('/' :: rest))
    | some _ => some (String.ofList ('.' :: rest))
    | none => some (String.ofList rest)

/-- The path itself, the path without its last component, and so on. -/
def ancestors (path : String) : List String :=
  climb path.toList.length path
where
  /-- At most so many steps up. -/
  climb : Nat → String → List String
    | 0, path => [path]
    | steps + 1, path =>
      match parent? path with
      | some above => path :: climb steps above
      | none => [path]

/-- The path starts at the root. -/
def isAbsolute (path : String) : Bool :=
  match path.toList with
  | '/' :: _ => true
  | _ => false

/-- The path taken from a directory. -/
def join (directory path : String) : String :=
  if isAbsolute path || directory.isEmpty then
    path
  else if List.isSuffixOf ['/'] directory.toList then
    directory ++ path
  else
    directory ++ "/" ++ path

end ScriptLint.Path
