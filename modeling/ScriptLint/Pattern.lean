/-
**Patterns of paths to leave out.**

`?` stands for any character and `*` for any text, slashes included; `**` is a whole component of the
path and stands for any number of components; `[abc]`, `[a-z]` and `[!a]` stand for one character.
Everything else stands for itself, and case matters.

* `Pattern.parse` — the pattern that a text means, or what is wrong with it and where, counted in
  characters.
* `Pattern.accepts` — the whole of a path is as the pattern says.
-/

namespace ScriptLint

/-- Characters in brackets: those from the first to the last, both included. -/
structure Pattern.Interval where
  first : Char
  last : Char
deriving Repr, DecidableEq, Inhabited

/-- A part of a pattern. -/
inductive Pattern.Part where
  /-- The character itself. -/
  | char (c : Char)
  /-- Any character. -/
  | anyChar
  /-- A character of one of the intervals. -/
  | within (intervals : List Pattern.Interval)
  /-- A character of none of the intervals. -/
  | except (intervals : List Pattern.Interval)
  /-- Any text. -/
  | anyText
  /-- Any number of components, each with the slash after it; at the end of a pattern, any text. -/
  | anyComponents
deriving Repr, DecidableEq, Inhabited

/-- A pattern. -/
abbrev Pattern := List Pattern.Part

/-- What can be wrong with a pattern. -/
inductive Pattern.Fault where
  /-- A bracket without its partner. -/
  | range
  /-- More than two stars in a row. -/
  | stars
  /-- Two stars that are not a component of their own. -/
  | component
deriving Repr, DecidableEq, Inhabited

/-- What is wrong with a pattern, and where. -/
structure Pattern.Error where
  fault : Pattern.Fault
  position : Nat
deriving Repr, DecidableEq, Inhabited

namespace Pattern

/-- What a fault is called. -/
def Fault.text : Fault → String
  | range => "invalid range pattern"
  | stars => "wildcards are either regular `*` or recursive `**`"
  | component => "recursive wildcards must form a single path component"

/-- The text of an error. -/
def Error.message (error : Error) : String :=
  let position := toString error.position
  "Pattern syntax error near position " ++ position ++ ": " ++ error.fault.text

/-! ### Reading -/

/-- The intervals in brackets; `a-z` is one, and any other character is one of its own. -/
def intervals : List Char → List Interval
  | first :: '-' :: last :: more => ⟨first, last⟩ :: intervals more
  | c :: more => ⟨c, c⟩ :: intervals more
  | [] => []

/-- The characters up to the closing bracket, at least one, and the rest after it. -/
def readBody? : List Char → Option (List Char × List Char)
  | [] => none
  | c :: more =>
    match more.dropWhile (· != ']') with
    | [] => none
    | _ :: rest => some (c :: more.takeWhile (· != ']'), rest)

/-- What stands after an opening bracket, and the rest. -/
def readRange? : List Char → Option (Part × List Char)
  | '!' :: more => (readBody? more).map fun (body, rest) => (.except (intervals body), rest)
  | text => (readBody? text).map fun (body, rest) => (.within (intervals body), rest)

theorem length_readBody? {text body rest : List Char} (found : readBody? text = some (body, rest)) :
    rest.length < text.length := by
  cases text with
  | nil => simp [readBody?] at found
  | cons c more =>
    simp only [readBody?] at found
    split at found
    · simp at found
    · rename_i dropped
      have shorter := (List.dropWhile_sublist (l := more) (· != ']')).length_le
      simp only [dropped, List.length_cons, Option.some.injEq, Prod.mk.injEq] at shorter found
      simp only [← found.2, List.length_cons]
      omega

theorem length_readRange? {text rest : List Char} {part : Part}
    (found : readRange? text = some (part, rest)) : rest.length < text.length := by
  unfold readRange? at found
  split at found
  all_goals
    obtain ⟨⟨body, after⟩, read, same⟩ := Option.map_eq_some_iff.mp found
    have shorter := length_readBody? read
    simp only [Prod.mk.injEq] at same
    simp only [← same.2, List.length_cons] at *
    omega

/-- The parts of a text that ends at position `total`; `opens` when it starts a component. -/
def readParts (total : Nat) (opens : Bool) (text : List Char) : Except Error Pattern :=
  let position := total - text.length
  match text with
  | [] => .ok []
  | '*' :: '*' :: '*' :: _ => .error ⟨.stars, position + 2⟩
  | '*' :: '*' :: more =>
    if opens then
      match more with
      | [] => .ok [.anyComponents]
      | '/' :: rest => (readParts total true rest).map (.anyComponents :: ·)
      | _ => .error ⟨.component, position + 2⟩
    else
      .error ⟨.component, position - 1⟩
  | '*' :: more => (readParts total false more).map (.anyText :: ·)
  | '?' :: more => (readParts total false more).map (.anyChar :: ·)
  | '[' :: more =>
    match _found : readRange? more with
    | some (part, rest) => (readParts total false rest).map (part :: ·)
    | none => .error ⟨.range, position⟩
  | c :: more => (readParts total (c == '/') more).map (.char c :: ·)
termination_by text.length
decreasing_by
  all_goals try simp only [List.length_cons]
  all_goals try omega
  have shorter := length_readRange? _found
  omega

/-- The pattern that a text means. -/
def parse (text : String) : Except Error Pattern :=
  readParts text.toList.length true text.toList

/-! ### Matching -/

/-- The ends of a text, itself first and the empty one last. -/
def ends : List Char → List (List Char)
  | [] => [[]]
  | c :: more => (c :: more) :: ends more

/-- The ends of a text that follow a slash. -/
def endsAfterSlash : List Char → List (List Char)
  | [] => []
  | c :: more => if c == '/' then more :: endsAfterSlash more else endsAfterSlash more

/-- The interval has the character. -/
def Interval.contains (interval : Interval) (c : Char) : Bool :=
  interval.first ≤ c && c ≤ interval.last

/-- The part takes a single character. -/
def Part.takes (part : Part) (c : Char) : Bool :=
  match part with
  | .char own => own == c
  | .anyChar => true
  | .within intervals => intervals.any (·.contains c)
  | .except intervals => !intervals.any (·.contains c)
  | .anyText | .anyComponents => false

/-- All of a text is as the pattern says. -/
def acceptsList : Pattern → List Char → Bool
  | [], text => text.isEmpty
  | .anyText :: more, text => (ends text).any (acceptsList more)
  | .anyComponents :: more, text =>
    more.isEmpty || acceptsList more text || (endsAfterSlash text).any (acceptsList more)
  | part :: more, c :: text => part.takes c && acceptsList more text
  | _ :: _, [] => false

/-- All of a path is as the pattern says. -/
def accepts (pattern : Pattern) (path : String) : Bool :=
  acceptsList pattern path.toList

end Pattern

end ScriptLint
