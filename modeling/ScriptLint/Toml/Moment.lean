/-
**Dates and times.**

A moment is a date, a time of day, or both, the latter with an offset from universal time if it has
one. Its canonical text joins date and time with a `T`, and writes a fraction of a second without
zeros at its end.

* `date?`, `time?`, `offset?` — the parts, each from the start of a text. They refuse what is no date:
  a day beyond the end of its month, an hour of 24.
* `moment?` — a whole text, as its canonical text.
-/

namespace ScriptLint.Toml

/-- The number that a list of digits writes. -/
def digitsValue (digits : List Char) : Nat :=
  digits.foldl (fun total c => total * 10 + (c.toNat - '0'.toNat)) 0

/-- Splits off a number of exactly `count` digits. -/
def digits? (count : Nat) (s : List Char) : Option (Nat × List Char) :=
  let digits := s.take count
  if digits.length = count ∧ digits.all Char.isDigit then
    some (digitsValue digits, s.drop count)
  else
    none

/-- Splits off the given character. -/
def expect? (c : Char) : List Char → Option (List Char)
  | d :: rest => if c = d then some rest else none
  | [] => none

/-- A number written with at least `width` digits. -/
def padded (width n : Nat) : String :=
  let digits := Nat.toDigits 10 n
  String.ofList (List.replicate (width - digits.length) '0' ++ digits)

/-- The number of days of a month. -/
def daysIn (year month : Nat) : Nat :=
  if month == 2 then
    if year % 4 == 0 && (year % 100 != 0 || year % 400 == 0) then 29 else 28
  else if month == 4 || month == 6 || month == 9 || month == 11 then
    30
  else
    31

/-- A date at the start of a text, as its canonical text. -/
def date? (s : List Char) : Option (String × List Char) := do
  let (year, s) ← digits? 4 s
  let s ← expect? '-' s
  let (month, s) ← digits? 2 s
  let s ← expect? '-' s
  let (day, s) ← digits? 2 s
  guard (1 ≤ month ∧ month ≤ 12 ∧ 1 ≤ day ∧ day ≤ daysIn year month)
  pure (padded 4 year ++ "-" ++ padded 2 month ++ "-" ++ padded 2 day, s)

/-- A fraction of a second, to nine digits and without zeros at its end. -/
def fractionText (digits : List Char) : String :=
  let kept := ((digits.take 9).reverse.dropWhile (· == '0')).reverse
  if kept.isEmpty then "" else "." ++ String.ofList kept

/-- A time of day at the start of a text, as its canonical text. -/
def time? (s : List Char) : Option (String × List Char) := do
  let (hour, s) ← digits? 2 s
  let s ← expect? ':' s
  let (minute, s) ← digits? 2 s
  let s ← expect? ':' s
  let (second, s) ← digits? 2 s
  guard (hour ≤ 23 ∧ minute ≤ 59 ∧ second ≤ 60)
  let text := padded 2 hour ++ ":" ++ padded 2 minute ++ ":" ++ padded 2 second
  match s with
  | '.' :: c :: rest =>
    if c.isDigit then
      pure (text ++ fractionText (c :: rest.takeWhile Char.isDigit), rest.dropWhile Char.isDigit)
    else
      pure (text, s)
  | _ => pure (text, s)

/-- An offset from universal time, as its canonical text. -/
def offset? (s : List Char) : Option (String × List Char) :=
  match s with
  | 'Z' :: rest | 'z' :: rest => some ("Z", rest)
  | sign :: rest =>
    if sign = '+' ∨ sign = '-' then do
      let (hour, s) ← digits? 2 rest
      let s ← expect? ':' s
      let (minute, s) ← digits? 2 s
      guard (hour ≤ 23 ∧ minute ≤ 59)
      pure (String.ofList [sign] ++ padded 2 hour ++ ":" ++ padded 2 minute, s)
    else
      none
  | [] => none

/-- A time of day with an offset it may have, and nothing after it. -/
def timeWithOffset? (s : List Char) : Option String := do
  let (time, s) ← time? s
  if s.isEmpty then
    pure time
  else
    let (offset, s) ← offset? s
    guard s.isEmpty
    pure (time ++ offset)

/-- The canonical text of a moment. -/
def moment? (s : List Char) : Option String :=
  match date? s with
  | some (date, []) => some date
  | some (date, separator :: rest) =>
    if separator = 'T' ∨ separator = 't' ∨ separator = ' ' then
      (timeWithOffset? rest).map fun time => date ++ "T" ++ time
    else
      none
  | none =>
    match time? s with
    | some (time, []) => some time
    | _ => none

end ScriptLint.Toml
