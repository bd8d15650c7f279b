/-
**From characters to tokens.**

The reader goes through a script lexeme by lexeme. What a character begins depends on what it stands
in: plain code, the text of a string with holes, a hole of one, or the format that may follow the
value in a hole. Strings with holes nest, so these surroundings form a stack.

* `Frame` — one level of the surroundings.
* `lexeme` — the lexeme that begins with a character: its kind, if it is a token, how many further
  characters it takes, and the surroundings after it.
* `tokens` — the tokens of a script. Every lexeme takes its first character, so the reading ends.
-/

import ScriptLint.Source.Token
import ScriptLint.Text.Blank
import ScriptLint.Text.Measure

namespace ScriptLint.Source

/-- How a string with holes is written. -/
inductive TextForm where
  /-- On one line, with escapes by backslash. -/
  | plain
  /-- With a quote written twice. -/
  | verbatim
  /-- Between fences of that many quotes, its holes between that many braces. -/
  | raw (quotes braces : Nat)
deriving Repr, DecidableEq, Inhabited

/-- The number of braces around a hole. -/
def TextForm.braces : TextForm → Nat
  | plain | verbatim => 1
  | raw _ braces => braces

/-- What a place inside a string with holes stands in. -/
inductive Frame where
  /-- The text of the string. -/
  | text (form : TextForm)
  /-- A hole, with that many brackets open in it. -/
  | hole (form : TextForm) (depth : Nat)
deriving Repr, DecidableEq, Inhabited

/-- A piece of the script: a token if it has a kind, with the number of characters after its first
one and the surroundings after it. -/
structure Lexeme where
  kind : Option Token.Kind
  extra : Nat
  frames : List Frame
deriving Repr, DecidableEq, Inhabited

/-! ### How far a lexeme reaches -/

/-- The characters at the start that satisfy `p`. -/
def run (p : Char → Bool) (s : List Char) : Nat :=
  (s.takeWhile p).length

/-- The length of a comment after its opener, the closing star and slash with it. -/
def blockCommentLength : List Char → Nat
  | [] => 0
  | '*' :: '/' :: _ => 2
  | _ :: rest => 1 + blockCommentLength rest

/-- The length of a literal after its opening quote. -/
def quotedLength (quote : Char) : List Char → Nat
  | [] => 0
  | '\\' :: _ :: rest => 2 + quotedLength quote rest
  | c :: rest => if c = quote then 1 else 1 + quotedLength quote rest

/-- The length of a verbatim string after its opening quote. -/
def verbatimLength : List Char → Nat
  | [] => 0
  | '"' :: '"' :: rest => 2 + verbatimLength rest
  | c :: rest => if c = '"' then 1 else 1 + verbatimLength rest

/-- The length of a raw string after its opening fence. -/
def rawLength (quotes : Nat) : List Char → Nat
  | [] => 0
  | c :: rest =>
    if quotes ≤ run (· == '"') (c :: rest) then quotes else 1 + rawLength quotes rest

/-- The length of the mark that a string is made of bytes. -/
def byteMarkLength : List Char → Nat
  | 'u' :: '8' :: _ => 2
  | 'U' :: '8' :: _ => 2
  | _ => 0

/-- A character that may stand in a name. -/
def isNameChar (c : Char) : Bool :=
  c.isAlphanum || c == '_' || (0x7F < c.toNat && !Text.isBlank c && c.toNat != 0xFEFF)

/-- A character that separates lexemes. -/
def isGap (c : Char) : Bool :=
  Text.isBlank c || c.toNat == 0xFEFF

/-- The text starts with a digit. -/
def startsWithDigit : List Char → Bool
  | c :: _ => c.isDigit
  | [] => false

/-- The length of the rest of a number whose last character so far is `last`: digits, letters, a
point before a digit, and the sign of an exponent. -/
def numberLength (isHex : Bool) (last : Char) : List Char → Nat
  | [] => 0
  | c :: rest =>
    let isPoint := c == '.' && startsWithDigit rest
    let isSign := (c == '+' || c == '-') && !isHex && (last == 'e' || last == 'E')
    if c.isAlphanum || c == '_' || isPoint || (isSign && startsWithDigit rest) then
      1 + numberLength isHex c rest
    else
      0

/-- The operators of several characters, longer ones first. A closing angle bracket is joined with
nothing but an equals sign, since it may close type arguments. -/
def longMarks : List (List Char) :=
  ["<<=", "??=", "=>", "==", "!=", "<=", ">=", "&&", "||", "??", "++", "--", "+=", "-=", "*=", "/=",
    "%=", "&=", "|=", "^=", "->", "::", "..", "<<"].map String.toList

/-- The number of characters that an operator has after its first one. -/
def markExtra (s : List Char) : Nat :=
  match longMarks.find? (·.isPrefixOf s) with
  | some mark => mark.length - 1
  | none => 0

/-! ### Lexemes of code -/

/-- The surroundings after a bracket in a hole. -/
def turnBracket (c : Char) : List Frame → List Frame
  | .hole form depth :: outer =>
    if c == '(' || c == '[' || c == '{' then .hole form (depth + 1) :: outer
    else if c == ')' || c == ']' || c == '}' then .hole form (depth - 1) :: outer
    else .hole form depth :: outer
  | frames => frames

/-- An operator or a bracket. In a hole without an open bracket, a brace closes the hole, and a colon
opens the format, which is passed over. -/
def markLexeme (frames : List Frame) (c : Char) (rest : List Char) : Lexeme :=
  let extra := markExtra (c :: rest)
  match frames with
  | .hole form 0 :: outer =>
    if c == '}' then ⟨some .holeClose, form.braces - 1, .text form :: outer⟩
    else if c == ':' && extra == 0 then ⟨none, run (· != '}') rest, frames⟩
    else ⟨some .mark, extra, turnBracket c frames⟩
  | _ => ⟨some .mark, extra, turnBracket c frames⟩

/-- The token that a directive line makes, given what follows the `#`. -/
def directiveKind? (content : List Char) : Option Token.Kind :=
  let word := (Text.trimStart content).takeWhile Char.isAlpha
  match Directive.Kind.ofKeyword? (String.ofList word) with
  | some .define | some .undef | none => none
  | some kind => some (.directive kind)

/-- A string that begins with `lead`, a run of dollar and at signs, and `quotes` quotes, followed by
`body`. -/
def stringLexeme (frames : List Frame) (lead : List Char) (quotes : Nat) (body : List Char) :
    Lexeme :=
  let dollars := lead.count '$'
  let isVerbatim := lead.contains '@'
  let literal (opened : Nat) (length : Nat) (afterOpening : List Char) : Lexeme :=
    ⟨some .literal, lead.length + opened + length + byteMarkLength (afterOpening.drop length) - 1,
      frames⟩
  let fenced := 3 ≤ quotes
  let afterFence := body.drop quotes
  let afterQuote := body.drop 1
  if dollars == 0 then
    if isVerbatim then literal 1 (verbatimLength afterQuote) afterQuote
    else if fenced then literal quotes (rawLength quotes afterFence) afterFence
    else literal 1 (quotedLength '"' afterQuote) afterQuote
  else if isVerbatim then
    ⟨some .textOpen, lead.length, .text .verbatim :: frames⟩
  else if fenced then
    ⟨some .textOpen, lead.length + quotes - 1, .text (.raw quotes dollars) :: frames⟩
  else
    ⟨some .textOpen, lead.length, .text .plain :: frames⟩

/-- The lexeme of code that begins with a character. -/
def codeLexeme (frames : List Frame) (c : Char) (rest : List Char) : Lexeme :=
  let lead := (c :: rest).takeWhile fun c => c == '$' || c == '@'
  let body := (c :: rest).drop lead.length
  let quotes := run (· == '"') body
  if isGap c then
    ⟨none, run isGap rest, frames⟩
  else if 0 < quotes then
    stringLexeme frames lead quotes body
  else
    match c, rest with
    | '/', '/' :: _ => ⟨none, run (· != '\n') rest, frames⟩
    | '/', '*' :: comment => ⟨none, 1 + blockCommentLength comment, frames⟩
    | '#', content => ⟨directiveKind? content, run (· != '\n') content, frames⟩
    | '\'', content => ⟨some .literal, quotedLength '\'' content, frames⟩
    | '@', _ => ⟨some .word, run isNameChar rest, frames⟩
    | '\\', _ => ⟨some .word, run isNameChar rest, frames⟩
    | _, _ =>
      if c.isDigit || (c == '.' && startsWithDigit rest) then
        let isHex := c == '0' && (rest.head? == some 'x' || rest.head? == some 'X')
        ⟨some .literal, numberLength isHex c rest, frames⟩
      else if isNameChar c then
        ⟨some .word, run isNameChar rest, frames⟩
      else
        markLexeme frames c rest

/-! ### Lexemes of the text between holes -/

/-- The lexeme of the text of a string, which begins with a character. -/
def textLexeme (form : TextForm) (outer : List Frame) (c : Char) (rest : List Char) : Lexeme :=
  let same := Frame.text form :: outer
  let opened := Frame.hole form 0 :: outer
  match form with
  | .raw quotes braces =>
    let found := run (· == c) (c :: rest)
    if c == '"' && quotes ≤ found then ⟨some .textClose, quotes - 1, outer⟩
    else if c == '{' && braces == found then ⟨some .holeOpen, braces - 1, opened⟩
    else if c == '{' && braces < found then ⟨none, found - braces - 1, same⟩
    else ⟨none, found - 1, same⟩
  | .plain | .verbatim =>
    match c, rest with
    | '{', '{' :: _ => ⟨none, 1, same⟩
    | '{', _ => ⟨some .holeOpen, 0, opened⟩
    | '"', '"' :: _ => if form == .verbatim then ⟨none, 1, same⟩ else ⟨some .textClose, 0, outer⟩
    | '"', _ => ⟨some .textClose, 0, outer⟩
    | '\\', _ => if form == .verbatim then ⟨none, 0, same⟩ else ⟨none, 1, same⟩
    | _, _ => ⟨none, 0, same⟩

/-- The lexeme that begins with a character. -/
def lexeme (frames : List Frame) (c : Char) (rest : List Char) : Lexeme :=
  match frames with
  | .text form :: outer => textLexeme form outer c rest
  | _ => codeLexeme frames c rest

/-- The tokens of a text that begins at `offset`; `isGlued` tells that a token ends there. -/
def tokensFrom (frames : List Frame) (isGlued : Bool) (offset : Nat) : List Char → List Token
  | [] => []
  | c :: rest =>
    let found := lexeme frames c rest
    let text := c :: rest.take found.extra
    let stop := offset + Text.size text
    let more := tokensFrom found.frames found.kind.isSome stop (rest.drop found.extra)
    match found.kind with
    | some kind => ⟨kind, String.ofList text, ⟨offset, stop⟩, isGlued⟩ :: more
    | none => more
termination_by s => s.length
decreasing_by simp only [List.length_drop, List.length_cons]; omega

/-- The tokens of a script. -/
def tokens (text : String) : List Token :=
  tokensFrom [] false 0 text.toList

end ScriptLint.Source
