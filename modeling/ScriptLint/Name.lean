/-
**Dotted names.**

Namespaces and types are known by names with dots between their segments. A name as a script writes
it may carry more: a `global::` in front, type arguments, marks of nullable and array types, blanks.

* `normalize` — the dotted name that a written type stands for.
* `isUnder` — a namespace is another one or lies beneath it. Dots at the end of the outer name do not
  count, and nothing lies under the empty name.
* `parent?`, `simple` — what stands before and after the last dot.
* `withParents` — a name with all that stand above it; `learn` adds them to the names known.
* `qualify` — a name put under an outer one, if there is one.
-/

import ScriptLint.Text.Find

namespace ScriptLint.Name

/-- The mark that a name is taken from the outermost namespace. -/
def globalMark : List Char :=
  "global::".toList

/-- The name without a mark that it is taken from the outermost namespace. -/
def stripGlobal (name : List Char) : List Char :=
  (List.isPrefixOf? globalMark name).getD name

/-- The text outside type arguments, blanks removed, where `depth` brackets are open. A closing
bracket too many is dropped. -/
def dropArguments (depth : Nat) : List Char → List Char
  | [] => []
  | c :: rest =>
    if c = '<' then dropArguments (depth + 1) rest
    else if c = '>' then dropArguments (depth - 1) rest
    else if 0 < depth || Text.isBlank c then dropArguments depth rest
    else c :: dropArguments depth rest

/-- The marks of nullable and array types. -/
def isTypeMark (c : Char) : Bool :=
  c == '?' || c == '[' || c == ']' || c == ','

/-- Each pair of colons becomes a dot. -/
def dotColons : List Char → List Char
  | ':' :: ':' :: rest => '.' :: dotColons rest
  | c :: rest => c :: dotColons rest
  | [] => []

/-- The dotted name of a type as written, on characters. -/
def normalizeText (name : List Char) : List Char :=
  dotColons (Text.dropEndWhile isTypeMark (dropArguments 0 (stripGlobal name)))

/-- The dotted name of a type as written. -/
def normalize (name : String) : String :=
  String.ofList (normalizeText name.toList)

/-- The namespace is `outer` or lies beneath it. -/
def isUnder (outer name : String) : Bool :=
  let outer := Text.dropEndWhile (· == '.') outer.toList
  !outer.isEmpty &&
    match List.isPrefixOf? outer name.toList with
    | some [] => true
    | some (c :: _) => c == '.'
    | none => false

/-- What stands before the last dot. -/
def parent? (name : String) : Option String :=
  (Text.splitLast? '.' name.toList).map fun (before, _) => String.ofList before

/-- What stands after the last dot, the whole name if there is none. -/
def simple (name : String) : String :=
  match Text.splitLast? '.' name.toList with
  | some (_, after) => String.ofList after
  | none => name

theorem length_of_splitLast? {mark : Char} {s before after : List Char}
    (found : Text.splitLast? mark s = some (before, after)) : before.length < s.length := by
  induction s generalizing before with
  | nil => simp [Text.splitLast?] at found
  | cons c rest ih =>
    unfold Text.splitLast? at found
    split at found
    · rename_i inner _ equation
      simp only [Option.some.injEq, Prod.mk.injEq] at found
      obtain ⟨rfl, rfl⟩ := found
      have shorter := ih equation
      simp only [List.length_cons]
      omega
    · split at found
      · simp only [Option.some.injEq, Prod.mk.injEq] at found
        obtain ⟨rfl, rfl⟩ := found
        simp
      · simp at found

/-- A name and all that stand above it, down to the last one that is not empty, on characters. -/
def withParentsText (name : List Char) : List (List Char) :=
  if name.isEmpty then
    []
  else
    match _found : Text.splitLast? '.' name with
    | some (before, _) => name :: withParentsText before
    | none => [name]
termination_by name.length
decreasing_by exact length_of_splitLast? _found

/-- A name and all that stand above it, the name first. -/
def withParents (name : String) : List String :=
  (withParentsText name.toList).map String.ofList

/-- The names that are known after one more, where every known name is known with all above it. So
only those below the first known one are new. -/
def learn (known : List String) (name : String) : List String :=
  known ++ (withParents name).takeWhile (!known.contains ·)

/-- A name put under an outer one. -/
def qualify (outer : Option String) (name : String) : String :=
  match outer with
  | some outer => outer ++ "." ++ name
  | none => name

end ScriptLint.Name
