/-
**The bytes of a text.**

A program that goes through a text byte by byte looks only for ASCII characters. It cannot take a
part of another character for one of them, since every byte of a character beyond ASCII is too high.

* `octets` — the bytes of the UTF-8 form, as many as `size` counts.
* `mem_octets_iff` — the byte of an ASCII character stands in a text only for this character.
* `hasAt` — a byte is that of an ASCII character; `hasAt_cons_iff` says that it then is that
  character, and `hasAt_append` that a byte does not depend on what stands before it.
* `spells` — the bytes from a place on are those of some ASCII characters; `spells_cons_iff` says that
  the text has these characters there.
* `from?` — the text from a byte on, if no character is cut there.
* `offsetOf?` — the byte at which a piece first begins; `cut?_offsetOf?` says that no character is
  cut there.
-/

import ScriptLint.Proofs.Text.Parts

namespace ScriptLint.Text

/-! ### Bytes of one character -/

theorem utf8Size_of_ascii {c : Char} (ascii : c.toNat < 128) : c.utf8Size = 1 := by
  rw [Char.utf8Size_eq_one_iff, UInt32.le_iff_toNat_le]
  exact Nat.le_of_lt_succ ascii

theorem utf8EncodeChar_of_ascii {c : Char} (ascii : c.toNat < 128) :
    String.utf8EncodeChar c = [c.toUInt8] :=
  String.utf8EncodeChar_eq_singleton (utf8Size_of_ascii ascii)

theorem toNat_toUInt8 {c : Char} (ascii : c.toNat < 128) : c.toUInt8.toNat = c.toNat := by
  have code : c.toUInt8.toNat = c.toNat % 256 := rfl
  omega

/-- **A character beyond ASCII** has no byte of ASCII. -/
theorem le_of_mem_utf8EncodeChar {c : Char} (wide : 128 ≤ c.toNat) {octet : UInt8}
    (member : octet ∈ String.utf8EncodeChar c) : 128 ≤ octet.toNat := by
  have code : c.toNat = c.val.toNat := rfl
  have low (n : Nat) (bound : n < 256) : (UInt8.ofNat n).toNat = n := by
    rw [UInt8.toNat_ofNat']
    exact Nat.mod_eq_of_lt bound
  delta String.utf8EncodeChar at member
  dsimp only at member
  split_ifs at member
  · omega
  all_goals
    simp only [List.mem_cons, List.not_mem_nil, or_false] at member
  · rcases member with rfl | rfl <;> rw [low _ (by omega)] <;> omega
  · rcases member with rfl | rfl | rfl <;> rw [low _ (by omega)] <;> omega
  · rcases member with rfl | rfl | rfl | rfl <;> rw [low _ (by omega)] <;> omega

theorem mem_utf8EncodeChar_iff {c d : Char} (ascii : c.toNat < 128) :
    c.toUInt8 ∈ String.utf8EncodeChar d ↔ d = c := by
  by_cases narrow : d.toNat < 128
  · rw [utf8EncodeChar_of_ascii narrow, List.mem_singleton]
    constructor
    · intro same
      have codes := congrArg UInt8.toNat same
      rw [toNat_toUInt8 ascii, toNat_toUInt8 narrow] at codes
      exact Char.toNat_inj.mp codes.symm
    · rintro rfl
      rfl
  · refine iff_of_false (fun member => ?_) fun same => narrow (same ▸ ascii)
    have high := le_of_mem_utf8EncodeChar (Nat.le_of_not_lt narrow) member
    rw [toNat_toUInt8 ascii] at high
    omega

/-! ### Bytes of a text -/

/-- The bytes of the UTF-8 form. -/
def octets (s : List Char) : List UInt8 :=
  s.flatMap String.utf8EncodeChar

@[simp] theorem octets_cons (c : Char) (s : List Char) :
    octets (c :: s) = String.utf8EncodeChar c ++ octets s := rfl

theorem octets_append (s t : List Char) : octets (s ++ t) = octets s ++ octets t :=
  List.flatMap_append

/-- **A text has the byte of an ASCII character** exactly if it has the character. -/
theorem mem_octets_iff {c : Char} (ascii : c.toNat < 128) {s : List Char} :
    c.toUInt8 ∈ octets s ↔ c ∈ s := by
  induction s with
  | nil => exact iff_of_false List.not_mem_nil List.not_mem_nil
  | cons d rest ih =>
    rw [octets_cons, List.mem_append, mem_utf8EncodeChar_iff ascii, ih, List.mem_cons, eq_comm]

theorem length_octets (s : List Char) : (octets s).length = size s := by
  induction s with
  | nil => rfl
  | cons c rest ih =>
    rw [octets_cons, List.length_append, String.length_utf8EncodeChar, ih, size_cons]

theorem add_lt_size_append {before rest : List Char} {k : Nat} :
    size before + k < size (before ++ rest) ↔ k < size rest := by
  rw [size_append]
  omega

theorem drop_octets (before rest : List Char) (k : Nat) :
    (octets (before ++ rest)).drop (size before + k) = (octets rest).drop k := by
  rw [octets_append, ← length_octets, List.drop_length_add_append]

/-- The byte at `i` is that of the ASCII character `c`. -/
def hasAt (s : List Char) (i : Nat) (c : Char) : Bool :=
  (octets s)[i]? == some c.toUInt8

/-- **What stands before a byte** does not change it. -/
@[simp] theorem hasAt_append (before rest : List Char) (k : Nat) (c : Char) :
    hasAt (before ++ rest) (size before + k) c = hasAt rest k c := by
  rw [hasAt, hasAt, ← List.head?_drop, ← List.head?_drop, drop_octets]

/-- **A byte of ASCII** is a character of its own. -/
theorem hasAt_cons_iff {c : Char} (ascii : c.toNat < 128) {d : Char} {rest : List Char} {k : Nat}
    (inside : k < d.utf8Size) : hasAt (d :: rest) k c = true ↔ k = 0 ∧ d = c := by
  have here : (octets (d :: rest))[k]? = (String.utf8EncodeChar d)[k]? := by
    rw [octets_cons, List.getElem?_append_left]
    rwa [String.length_utf8EncodeChar]
  rw [hasAt, here, beq_iff_eq]
  constructor
  · intro found
    -- The character is of ASCII, so it has no other byte.
    obtain rfl := (mem_utf8EncodeChar_iff ascii).mp (List.mem_of_getElem? found)
    rw [utf8Size_of_ascii ascii] at inside
    exact ⟨Nat.lt_one_iff.mp inside, rfl⟩
  · rintro ⟨rfl, rfl⟩
    rw [utf8EncodeChar_of_ascii ascii, List.getElem?_cons_zero]

theorem hasAt_eq_false {c : Char} (ascii : c.toNat < 128) {d : Char} {rest : List Char} {k : Nat}
    (inside : k < d.utf8Size) (other : k = 0 → d ≠ c) : hasAt (d :: rest) k c = false := by
  rw [Bool.eq_false_iff, ne_eq, hasAt_cons_iff ascii inside]
  exact fun found => other found.1 found.2

theorem hasAt_zero {c : Char} (ascii : c.toNat < 128) (s : List Char) :
    hasAt s 0 c = (s.head? == some c) := by
  cases s with
  | nil => rfl
  | cons d rest =>
    rw [Bool.eq_iff_iff, hasAt_cons_iff ascii d.utf8Size_pos]
    simp

/-- The bytes from `i` on are those of the ASCII characters of `piece`. -/
def spells (s : List Char) (i : Nat) : List Char → Bool
  | [] => true
  | c :: piece => hasAt s i c && spells s (i + 1) piece

@[simp] theorem spells_append (before rest : List Char) (k : Nat) (piece : List Char) :
    spells (before ++ rest) (size before + k) piece = spells rest k piece := by
  induction piece generalizing k with
  | nil => rfl
  | cons c piece ih => rw [spells, spells, hasAt_append, Nat.add_assoc, ih]

/-- All characters are of ASCII. -/
def isAscii (piece : List Char) : Bool :=
  piece.all fun c => decide (c.toNat < 128)

theorem isAscii_cons {c : Char} {piece : List Char} :
    isAscii (c :: piece) = true ↔ c.toNat < 128 ∧ isAscii piece = true := by
  rw [isAscii, List.all_cons, Bool.and_eq_true, decide_eq_true_eq]
  rfl

theorem spells_zero {piece : List Char} (ascii : isAscii piece = true) (s : List Char) :
    spells s 0 piece = piece.isPrefixOf s := by
  induction piece generalizing s with
  | nil => rfl
  | cons c piece ih =>
    obtain ⟨here, later⟩ := isAscii_cons.mp ascii
    rw [spells, hasAt_zero here]
    cases s with
    | nil => rfl
    | cons d rest =>
      by_cases same : d = c
      · subst same
        have behind := spells_append [d] rest 0 piece
        rw [size_cons, utf8Size_of_ascii here] at behind
        rw [List.isPrefixOf_cons_cons, ← ih later rest, ← behind]
        simp
      · have : (c == d) = false := by simpa using Ne.symm same
        rw [List.isPrefixOf_cons_cons, this]
        simp [same]

/-- **Bytes that spell ASCII characters** are these characters. -/
theorem spells_cons_iff {piece : List Char} (ascii : isAscii piece = true) (nonempty : piece ≠ [])
    {d : Char} {rest : List Char} {k : Nat} (inside : k < d.utf8Size) :
    spells (d :: rest) k piece = true ↔ k = 0 ∧ piece <+: d :: rest := by
  by_cases first : k = 0
  · subst first
    rw [spells_zero ascii, List.isPrefixOf_iff_prefix]
    simp
  · obtain ⟨c, more, rfl⟩ := List.exists_cons_of_ne_nil nonempty
    rw [spells, Bool.and_eq_true, hasAt_cons_iff (isAscii_cons.mp ascii).1 inside]
    simp [first]

/-! ### Cutting at a byte -/

/-- The text from byte `i` on, if that is a character boundary. -/
def from? (i : Nat) (s : List Char) : Option (List Char) :=
  (cut? i s).map Prod.snd

@[simp] theorem from?_zero (s : List Char) : from? 0 s = some s := by
  rw [from?, cut?]
  rfl

theorem from?_eq_some_iff {i : Nat} {s after : List Char} :
    from? i s = some after ↔ ∃ before, s = before ++ after ∧ size before = i := by
  rw [from?, Option.map_eq_some_iff]
  constructor
  · rintro ⟨⟨before, after⟩, cut, rfl⟩
    exact ⟨before, cut?_eq_some_iff.mp cut⟩
  · rintro ⟨before, parts⟩
    exact ⟨(before, after), cut?_eq_some_iff.mpr parts, rfl⟩

@[simp] theorem from?_append (before rest : List Char) (k : Nat) :
    from? (size before + k) (before ++ rest) = from? k rest := by
  ext after
  rw [from?_eq_some_iff, from?_eq_some_iff]
  constructor
  · rintro ⟨front, same, sizes⟩
    obtain ⟨middle, rfl, rest_eq⟩ := exists_append_of_size_le same (by omega)
    rw [size_append] at sizes
    exact ⟨middle, rest_eq, by omega⟩
  · rintro ⟨front, rfl, rfl⟩
    exact ⟨before ++ front, (List.append_assoc _ _ _).symm, size_append _ _⟩

/-! ### Looking for a piece -/

/-- The byte at which `piece` first begins. -/
def offsetOf? (piece : List Char) : List Char → Option Nat
  | [] => if piece = [] then some 0 else none
  | c :: rest =>
    if piece <+: c :: rest then
      some 0
    else
      (offsetOf? piece rest).map (c.utf8Size + ·)

theorem offsetOf?_append (piece after : List Char) : offsetOf? piece (piece ++ after) = some 0 := by
  cases s : piece ++ after with
  | nil => rw [offsetOf?, if_pos (List.append_eq_nil_iff.mp s).1]
  | cons c rest => rw [offsetOf?, if_pos (s ▸ List.prefix_append piece after)]

theorem offsetOf?_cons {piece rest : List Char} {c : Char} (other : ¬ piece <+: c :: rest) :
    offsetOf? piece (c :: rest) = (offsetOf? piece rest).map (c.utf8Size + ·) := by
  rw [offsetOf?, if_neg other]

/-- **Where a piece begins** a text can be cut, behind all that stands before the piece. -/
theorem cut?_offsetOf? {piece s : List Char} {n : Nat} (found : offsetOf? piece s = some n) :
    ∃ after, cut? n s = some (upTo piece s, after) := by
  induction s generalizing n with
  | nil =>
    rw [offsetOf?] at found
    split_ifs at found
    cases found
    exact ⟨[], rfl⟩
  | cons c rest ih =>
    by_cases here : piece <+: c :: rest
    · rw [offsetOf?, if_pos here] at found
      cases found
      exact ⟨c :: rest, by rw [upTo, if_pos (List.isPrefixOf_iff_prefix.mpr here), cut?]⟩
    · rw [offsetOf?_cons here, Option.map_eq_some_iff] at found
      obtain ⟨m, further, rfl⟩ := found
      obtain ⟨after, cut⟩ := ih further
      obtain ⟨rest_eq, size_eq⟩ := cut?_eq_some_iff.mp cut
      refine ⟨after, cut?_eq_some_iff.mpr ?_⟩
      rw [upTo, if_neg (mt List.isPrefixOf_iff_prefix.mp here), List.cons_append, size_cons,
        size_eq, ← rest_eq]
      exact ⟨rfl, rfl⟩

theorem upTo_of_offsetOf? {piece s : List Char} (absent : offsetOf? piece s = none) :
    upTo piece s = s := by
  induction s with
  | nil => rfl
  | cons c rest ih =>
    by_cases here : piece <+: c :: rest
    · rw [offsetOf?, if_pos here] at absent
      cases absent
    · rw [offsetOf?_cons here, Option.map_eq_none_iff] at absent
      rw [upTo, if_neg (mt List.isPrefixOf_iff_prefix.mp here), ih absent]

end ScriptLint.Text
