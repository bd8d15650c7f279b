/-
**Numbers.**

* `integer?` — whole numbers in four bases, with underscores between digits. They fit in 64 bits with
  sign.
* `float?` — decimals, as the bits of the nearest double, and the infinities and not-a-number. A
  positive number that is too great is refused.
-/

import ScriptLint.Toml.Moment

namespace ScriptLint.Toml

/-- The text with the underscores between digits removed; none if one stands elsewhere. -/
def dropUnderscores? (isDigit : Char → Bool) : List Char → Option (List Char)
  | [] => none
  | [c] => if isDigit c then some [c] else none
  | c :: '_' :: rest => do
    guard (isDigit c)
    pure (c :: (← dropUnderscores? isDigit rest))
  | c :: rest => do
    guard (isDigit c)
    pure (c :: (← dropUnderscores? isDigit rest))

/-- The value of a digit in a base up to sixteen. -/
def digitIn? (base : Nat) (c : Char) : Option Nat :=
  let value :=
    if c.isDigit then c.toNat - '0'.toNat
    else if 'a'.toNat ≤ c.toNat ∧ c.toNat ≤ 'f'.toNat then c.toNat - 'a'.toNat + 10
    else if 'A'.toNat ≤ c.toNat ∧ c.toNat ≤ 'F'.toNat then c.toNat - 'A'.toNat + 10
    else base
  if value < base then some value else none

/-- The natural number that digits of a base write. -/
def naturalIn? (base : Nat) (digits : List Char) : Option Nat := do
  let digits ← dropUnderscores? (fun c => (digitIn? base c).isSome) digits
  digits.foldlM (fun total c => (digitIn? base c).map (total * base + ·)) 0

/-- The sign at the start of a text. -/
def splitSign : List Char → Bool × List Char
  | '-' :: rest => (true, rest)
  | '+' :: rest => (false, rest)
  | s => (false, s)

/-- Decimal digits without a needless zero at the start. -/
def decimalDigits? (s : List Char) : Option (List Char) := do
  let digits ← dropUnderscores? Char.isDigit s
  guard (digits.length = 1 ∨ digits.head? ≠ some '0')
  pure digits

/-- One more than the greatest whole number. -/
def integerLimit : Int := 0x8000000000000000

/-- A whole number that fits in 64 bits. -/
def integer? (s : List Char) : Option Int := do
  let number : Int ←
    match s with
    | '0' :: 'x' :: digits => (naturalIn? 16 digits).map Int.ofNat
    | '0' :: 'o' :: digits => (naturalIn? 8 digits).map Int.ofNat
    | '0' :: 'b' :: digits => (naturalIn? 2 digits).map Int.ofNat
    | _ =>
      let (isNegative, digits) := splitSign s
      (decimalDigits? digits).map fun digits =>
        if isNegative then -Int.ofNat (digitsValue digits) else Int.ofNat (digitsValue digits)
  guard (-integerLimit ≤ number ∧ number < integerLimit)
  pure number

/-- The exponent of a decimal, which may start with zeros. -/
def exponent? (s : List Char) : Option Int := do
  let (isNegative, digits) := splitSign s
  let digits ← dropUnderscores? Char.isDigit digits
  pure (if isNegative then -Int.ofNat (digitsValue digits) else Int.ofNat (digitsValue digits))

/-- The double nearest to `mantissa` times ten to the `exponent`, where `mantissa` has `length`
digits. What lies beyond the range of doubles is settled by the size alone. -/
def nearestDouble (mantissa length : Nat) (exponent : Int) : Float :=
  let size := Int.ofNat length + exponent
  if mantissa = 0 ∨ size < -400 then 0.0
  else if 400 < size then 1.0 / 0.0
  else if 0 ≤ exponent then Float.ofScientific mantissa false exponent.toNat
  else Float.ofScientific mantissa true (-exponent).toNat

/-- The bit of a double that tells its sign. -/
def signBit : UInt64 := 0x8000000000000000

/-- The bits of infinity. -/
def infinityBits : UInt64 := 0x7FF0000000000000

/-- The bits of not-a-number. -/
def nanBits : UInt64 := 0x7FF8000000000000

/-- The parts of a decimal before its point or exponent, between them, and after the `e`. -/
def splitDecimal (s : List Char) : List Char × Option (List Char) × Option (List Char) :=
  let isExponent (c : Char) : Bool := c == 'e' || c == 'E'
  let whole := s.takeWhile fun c => c != '.' && !isExponent c
  let rest := s.drop whole.length
  let fraction := (rest.drop 1).takeWhile (!isExponent ·)
  match rest with
  | '.' :: _ =>
    let tail := rest.drop (1 + fraction.length)
    (whole, some fraction, if tail.isEmpty then none else some (tail.drop 1))
  | _ :: tail => (whole, none, some tail)
  | [] => (whole, none, none)

/-- The bits of a decimal without sign. It has a fraction, an exponent, or both. -/
def decimalBits? (s : List Char) : Option UInt64 := do
  let (whole, fraction, exponent) := splitDecimal s
  guard (fraction.isSome ∨ exponent.isSome)
  let wholeDigits ← decimalDigits? whole
  let fractionDigits ←
    match fraction with
    | some digits => dropUnderscores? Char.isDigit digits
    | none => some []
  let power ←
    match exponent with
    | some text => exponent? text
    | none => some 0
  let digits := wholeDigits ++ fractionDigits
  pure (nearestDouble (digitsValue digits) digits.length
    (power - Int.ofNat fractionDigits.length)).toBits

/-- The bits of a float. -/
def float? (s : List Char) : Option UInt64 :=
  let (isNegative, body) := splitSign s
  let signed (bits : UInt64) : UInt64 := if isNegative then bits ||| signBit else bits
  if body = "inf".toList then
    some (signed infinityBits)
  else if body = "nan".toList then
    some (signed nanBits)
  else do
    let bits ← decimalBits? body
    guard (isNegative ∨ bits ≠ infinityBits)
    pure (signed bits)

end ScriptLint.Toml
