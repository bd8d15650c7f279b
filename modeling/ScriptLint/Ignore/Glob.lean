/-
**The patterns of ignore files.**

`?` stands for a byte and `*` for any number of them, slashes excluded; `**` between slashes stands
for any number of folders; `[a-z]` and `[!a]` stand for a byte; `{a,b}` is a choice of texts; a
backslash takes away the meaning of the character after it. A bracket that is never closed stands
for itself.

* `Glob` — a pattern as the list of its choices, every choice inside it written out.
* `Glob.parse?` — the pattern that a text means; none if a brace or backslash is left alone, or a
  range goes down.
* `Glob.accepts` — all of a path is as the pattern says.
-/

namespace ScriptLint.Ignore

/-- A part of a pattern. -/
inductive Part where
  /-- The byte itself. -/
  | byte (value : UInt8)
  /-- Any byte but a slash. -/
  | anyByte
  /-- Any bytes but slashes. -/
  | anyBytes
  /-- A byte of one of the intervals, or of none of them. -/
  | oneOf (isNegated : Bool) (intervals : List (UInt8 × UInt8))
  /-- Folders before the rest of the path. -/
  | leadingFolders
  /-- A slash, or folders between two slashes. -/
  | innerFolders
  /-- A slash and all that follows. -/
  | everythingBelow
deriving Repr, DecidableEq, Inhabited

/-- A pattern without a choice in it. -/
abbrev Row := List Part

/-- A pattern: one of its rows has to match. -/
abbrev Glob := List Row

namespace Glob

/-! ### Reading -/

/-- The bytes of a character. -/
def bytesOf (c : Char) : List UInt8 :=
  String.utf8EncodeChar c

/-- A pair of braces that is still open: the choices before the last comma, and the one after it. -/
structure Open where
  closed : List Glob
  current : Glob
deriving Repr, DecidableEq, Inhabited

/-- The choice that holds no text. -/
def blank : Glob := [[]]

/-- The pattern followed by some parts. -/
def extend (glob : Glob) (parts : Row) : Glob :=
  glob.map (· ++ parts)

/-- The pattern followed by a choice; choices without text do not count. -/
def choose (glob : Glob) (choices : List Glob) : Glob :=
  match (choices.filter (· != blank)).flatten with
  | [] => glob
  | rows => glob.flatMap fun row => rows.map (row ++ ·)

/-- The state of reading: the braces that are open around the innermost one, and that. -/
structure State where
  around : List Open
  inner : Open
  /-- The character read last. -/
  before : Option Char
  /-- A bracket was found that is never closed. -/
  hasLoneBracket : Bool
deriving Repr, DecidableEq, Inhabited

/-- The state at the start. -/
def State.start : State :=
  ⟨[], ⟨[], blank⟩, none, false⟩

/-- The state after some parts that end with a character. -/
def State.add (state : State) (parts : Row) (last : Char) : State :=
  { state with
    inner := { state.inner with current := extend state.inner.current parts }
    before := some last }

/-- The state with the last part of each row taken for another one. -/
def State.replaceLast (state : State) (part : Part) (last : Char) : State :=
  let renew (row : Row) : Row :=
    match row.getLast? with
    | some .leadingFolders => row
    | some .everythingBelow => row
    | _ => row.dropLast ++ [part]
  { state with
    inner := { state.inner with current := state.inner.current.map renew }
    before := some last }

/-- The state after an opening brace. -/
def State.openBrace (state : State) : State :=
  { state with around := state.inner :: state.around, inner := ⟨[], blank⟩, before := some '{' }

/-- The state after a comma. Outside of braces it stands for itself. -/
def State.comma (state : State) : State :=
  if state.around.isEmpty then
    state.add ((bytesOf ',').map .byte) ','
  else
    { state with
      inner := ⟨state.inner.closed ++ [state.inner.current], blank⟩
      before := some ',' }

/-- The state after a closing brace; none when no brace is open. -/
def State.closeBrace? (state : State) : Option State :=
  match state.around with
  | [] => none
  | outer :: around =>
    let choices := state.inner.closed ++ [state.inner.current]
    some
      { state with
        around
        inner := { outer with current := choose outer.current choices }
        before := some '}' }

/-- What two stars mean, with the characters that follow; the rest after what they take. -/
def State.twoStars (state : State) (rest : List Char) : State × List Char :=
  let plain := (state.add [.anyBytes, .anyBytes] '*', rest)
  let isInside := !state.around.isEmpty
  if state.inner.current == blank then
    match rest with
    | [] => (state.add [.leadingFolders] '*', [])
    | '/' :: more => (state.add [.leadingFolders] '/', more)
    | _ => plain
  else if state.before == some '/' then
    match rest with
    | [] => (state.replaceLast .everythingBelow '*', [])
    | '/' :: more => (state.replaceLast .innerFolders '/', more)
    | c :: _ =>
      if isInside && (c == ',' || c == '}') then (state.replaceLast .everythingBelow '*', rest)
      else plain
  else
    plain

/-- The intervals of a range in brackets, as pairs of characters, and the rest after the closing one.
A bracket or dash that comes first stands for itself; `isOpen` when a dash follows the last interval.
Outer none when an interval goes down, inner none when the bracket is not closed. -/
def readIntervals (found : List (Char × Char)) (isFirst isOpen : Bool) :
    List Char → Option (Option (List (Char × Char) × List Char))
  | [] => some none
  | c :: rest =>
    if c == ']' && !isFirst then
      some (some (if isOpen then found ++ [('-', '-')] else found, rest))
    else if c == '-' && !isFirst && !isOpen then
      readIntervals found false true rest
    else if isOpen then
      match found.getLast? with
      | some (low, _) =>
        if c < low then none else readIntervals (found.dropLast ++ [(low, c)]) false false rest
      | none => readIntervals [(c, c)] false false rest
    else
      readIntervals (found ++ [(c, c)]) false false rest

/-- A range in brackets: whether it is negated, its intervals, and the rest after it. -/
def readRange (text : List Char) : Option (Option (Part × List Char)) :=
  let (isNegated, body) :=
    match text with
    | '!' :: more => (true, more)
    | '^' :: more => (true, more)
    | _ => (false, text)
  (readIntervals [] true false body).map fun found =>
    found.map fun (pairs, rest) => (.oneOf isNegated (pairs.flatMap bytePairs), rest)
where
  /-- The intervals of bytes that an interval of characters stands for. -/
  bytePairs (pair : Char × Char) : List (UInt8 × UInt8) :=
    let single (value : UInt8) : UInt8 × UInt8 := (value, value)
    let low := bytesOf pair.1
    let high := bytesOf pair.2
    if pair.1 == pair.2 then
      low.map single
    else
      low.dropLast.map single ++ [(low.getLastD 0, high.headD 0)] ++ (high.drop 1).map single

theorem length_readIntervals {found pairs : List (Char × Char)} {isFirst isOpen : Bool}
    {text rest : List Char}
    (read : readIntervals found isFirst isOpen text = some (some (pairs, rest))) :
    rest.length < text.length := by
  induction text generalizing found isFirst isOpen with
  | nil => simp [readIntervals] at read
  | cons c more ih =>
    simp only [readIntervals] at read
    split at read
    · simp only [Option.some.injEq, Prod.mk.injEq] at read
      simp [← read.2]
    · split at read
      · have := ih read
        simp only [List.length_cons]
        omega
      · split at read
        · split at read
          · split at read
            · simp at read
            · have := ih read
              simp only [List.length_cons]
              omega
          · have := ih read
            simp only [List.length_cons]
            omega
        · have := ih read
          simp only [List.length_cons]
          omega

theorem length_readRange {text rest : List Char} {part : Part}
    (read : readRange text = some (some (part, rest))) : rest.length < text.length := by
  unfold readRange at read
  split at read
  rename_i isNegated body split
  have bodyLength : body.length ≤ text.length := by
    split at split
    all_goals
      simp only [Prod.mk.injEq] at split
      simp [← split.2]
  cases found : readIntervals [] true false body with
  | none => simp [found] at read
  | some inner =>
    cases inner with
    | none => simp [found] at read
    | some result =>
      obtain ⟨pairs, after⟩ := result
      have shorter := length_readIntervals found
      simp only [found, Option.map_some, Option.some.injEq, Prod.mk.injEq] at read
      rw [← read.2]
      omega

theorem length_twoStars (state : State) (rest : List Char) :
    (state.twoStars rest).2.length ≤ rest.length := by
  unfold State.twoStars
  dsimp only
  split
  · split <;> simp
  · split
    · split
      · simp
      · simp
      · split <;> simp
    · simp

/-- The state after all of a text; none if it is no pattern. -/
def readAll (state : State) (text : List Char) : Option State :=
  match text with
  | [] => some state
  | '*' :: '*' :: rest =>
    let next := state.twoStars rest
    readAll next.1 next.2
  | '*' :: rest => readAll (state.add [.anyBytes] '*') rest
  | '?' :: rest => readAll (state.add [.anyByte] '?') rest
  | '{' :: rest => readAll state.openBrace rest
  | '}' :: rest =>
    match state.closeBrace? with
    | some next => readAll next rest
    | none => none
  | ',' :: rest => readAll state.comma rest
  | ['\\'] => none
  | '\\' :: c :: rest => readAll (state.add ((bytesOf c).map .byte) c) rest
  | '[' :: rest =>
    if state.hasLoneBracket then
      readAll (state.add [.byte '['.toUInt8] '[') rest
    else
      match _found : readRange rest with
      | none => none
      | some none =>
        readAll { state.add [.byte '['.toUInt8] '[' with hasLoneBracket := true } rest
      | some (some (part, after)) => readAll (state.add [part] ']') after
  | c :: rest => readAll (state.add ((bytesOf c).map .byte) c) rest
termination_by text.length
decreasing_by
  all_goals try simp only [List.length_cons]
  all_goals try omega
  · have := length_twoStars state rest
    omega
  · have := length_readRange _found
    omega

/-- The pattern that a text means. -/
def parse? (text : String) : Option Glob := do
  let last ← readAll State.start text.toList
  if last.around.isEmpty then some last.inner.current else none

/-! ### Matching -/

/-- The slash. -/
def slash : UInt8 := '/'.toUInt8

/-- The ends of a path that its first bytes without a slash leave. -/
def endsInFolder : List UInt8 → List (List UInt8)
  | [] => [[]]
  | b :: rest => (b :: rest) :: if b == slash then [] else endsInFolder rest

/-- The ends of a path that follow a slash. -/
def endsAfterSlash : List UInt8 → List (List UInt8)
  | [] => []
  | b :: rest => if b == slash then rest :: endsAfterSlash rest else endsAfterSlash rest

/-- All ends of a path. -/
def ends : List UInt8 → List (List UInt8)
  | [] => [[]]
  | b :: rest => (b :: rest) :: ends rest

/-- What a part may leave of a path. -/
def Part.rests (part : Part) (path : List UInt8) : List (List UInt8) :=
  match part, path with
  | .byte value, b :: rest => if b == value then [rest] else []
  | .anyByte, b :: rest => if b == slash then [] else [rest]
  | .oneOf isNegated intervals, b :: rest =>
    if intervals.any (fun (low, high) => low ≤ b && b ≤ high) != isNegated then [rest] else []
  | .anyBytes, path => endsInFolder path
  | .leadingFolders, path => path :: endsAfterSlash path
  | .innerFolders, b :: rest => if b == slash then rest :: endsAfterSlash rest else []
  | .everythingBelow, b :: rest => if b == slash then ends rest else []
  | _, [] => []

/-- All of a path is as the row says. -/
def acceptsRow : Row → List UInt8 → Bool
  | [], path => path.isEmpty
  | part :: more, path => (Part.rests part path).any (acceptsRow more)

/-- All of a path is as the pattern says. Two stars alone stand for every path. -/
def accepts (glob : Glob) (path : List UInt8) : Bool :=
  glob == [[.leadingFolders]] || glob.any (acceptsRow · path)

end Glob

end ScriptLint.Ignore
