/-
**The names of namespaces.**

The name of a namespace ends with a word or with the bracket behind type arguments, and neither ends
with a blank or a colon. So something is left of the name when blanks and `global::` are taken away.

* `lexeme_word` — the characters of a word.
* `EndsName`, `tokens_endsName` — what stands where a word stops.
* `Peg.EndsBy`, `reads_name` — the last token of a name.
* `Tree.AllNamed`, `readTree_allNamed` — every namespace in the tree of a text has a name that ends so.
-/

import Mathlib.Tactic.SplitIfs
import ScriptLint.Proofs.Source.Leading
import ScriptLint.Proofs.Source.Spans

namespace ScriptLint.Source

/-! ### Words -/

/-- A character of a word: one of a name, or a mark before a name. -/
def isWordChar (c : Char) : Bool :=
  isNameChar c || c == '@' || c == '\\'

/-- No word holds a blank or a colon. -/
theorem ending_of_isWordChar {c : Char} (isWord : isWordChar c = true) :
    Text.isBlank c = false ∧ c ≠ ':' := by
  constructor
  · unfold isWordChar isNameChar at isWord
    simp only [Bool.or_eq_true, Bool.and_eq_true, beq_iff_eq, Bool.not_eq_true'] at isWord
    rcases isWord with (((letter | rfl) | beyond) | rfl) | rfl
    · exact Text.isBlank_of_isAlphanum letter
    · decide
    · exact beyond.1.2
    · decide
    · decide
  · rintro rfl
    exact absurd isWord (by decide)

/-! Of the forms of lexemes, only one makes words. -/

theorem markLexeme_kind (frames : List Frame) (c : Char) (rest : List Char) :
    (markLexeme frames c rest).kind ≠ some .word := by
  unfold markLexeme
  dsimp only
  split
  · split_ifs <;> simp
  · simp

theorem stringLexeme_kind (frames : List Frame) (lead : List Char) (quotes : Nat) (body : List Char) :
    (stringLexeme frames lead quotes body).kind ≠ some .word := by
  unfold stringLexeme
  dsimp only
  split_ifs <;> simp

theorem directiveKind?_ne (content : List Char) : directiveKind? content ≠ some .word := by
  unfold directiveKind?
  dsimp only
  split <;> simp

theorem textLexeme_kind (form : TextForm) (outer : List Frame) (c : Char) (rest : List Char) :
    (textLexeme form outer c rest).kind ≠ some .word := by
  unfold textLexeme
  dsimp only
  split
  · split_ifs <;> simp
  · split <;> (try split_ifs) <;> simp
  · split <;> (try split_ifs) <;> simp

theorem isWordChar_of_mem {c d : Char} {rest : List Char} (first : isWordChar c = true)
    (member : d ∈ c :: rest.take (run isNameChar rest)) : isWordChar d = true := by
  rcases List.mem_cons.mp member with rfl | member
  · exact first
  · unfold run at member
    rw [← List.prefix_iff_eq_take.mp (List.takeWhile_prefix _)] at member
    have isName : isNameChar d = true := List.all_eq_true.mp List.all_takeWhile d member
    simp [isWordChar, isName]

/-- **A word** consists of the characters of words. -/
theorem lexeme_word {frames : List Frame} {c : Char} {rest : List Char}
    (isWord : (lexeme frames c rest).kind = some .word) :
    ∀ d ∈ c :: rest.take (lexeme frames c rest).extra, isWordChar d = true := by
  revert isWord
  unfold lexeme
  split
  · exact fun isWord => (textLexeme_kind _ _ _ _ isWord).elim
  · unfold codeLexeme
    dsimp only
    split
    · nofun
    · split
      · exact fun isWord => (stringLexeme_kind _ _ _ _ isWord).elim
      · -- By the first character: comments, directives and characters, then the two marks of words.
        split
        · nofun
        · nofun
        · exact fun isWord => (directiveKind?_ne _ isWord).elim
        · nofun
        · exact fun _ d member => isWordChar_of_mem rfl member
        · exact fun _ d member => isWordChar_of_mem rfl member
        · split
          · nofun
          · split
            · rename_i isName
              exact fun _ d member => isWordChar_of_mem (by simp [isWordChar, isName]) member
            · exact fun isWord => (markLexeme_kind _ _ _ isWord).elim

/-- Where a token stands in a text, and the characters of a word. -/
structure Token.Stands (text : List Char) (token : Token) : Prop where
  place : ∃ before after, text = before ++ token.text.toList ++ after ∧
    Text.size (before ++ token.text.toList) = token.span.stop
  nonempty : token.text.toList ≠ []
  word : token.kind = .word → ∀ c ∈ token.text.toList, isWordChar c = true

theorem tokensFrom_stands {text before s : List Char} {offset : Nat} {frames : List Frame}
    {isGlued : Bool} (text_eq : text = before ++ s) (offset_eq : offset = Text.size before) :
    ∀ token ∈ tokensFrom frames isGlued offset s, token.Stands text := by
  fun_induction tokensFrom frames isGlued offset s generalizing before with
  | case1 =>
    intro token member
    cases member
  | case2 frames isGlued offset c rest found taken stop more kind isKind =>
    rename_i ih
    obtain ⟨split, stop_eq⟩ := taken_eq text_eq offset_eq found.extra
    intro token member
    rcases List.mem_cons.mp member with rfl | member
    · have chars : (String.ofList taken).toList = taken := String.toList_ofList
      refine ⟨⟨before, rest.drop found.extra, ?_, ?_⟩, ?_, fun isWord => ?_⟩
      · rw [chars]
        exact split
      · rw [chars]
        exact stop_eq.symm
      · rw [chars]
        exact List.cons_ne_nil _ _
      · rw [chars]
        exact lexeme_word (isKind.trans (congrArg some isWord))
    · exact ih split stop_eq token member
  | case3 frames isGlued offset c rest found taken stop more noKind =>
    rename_i ih
    obtain ⟨split, stop_eq⟩ := taken_eq text_eq offset_eq found.extra
    exact ih split stop_eq

/-- Right before the offset stands a character that is no blank and no colon. -/
def EndsName (text : List Char) (stop : Nat) : Prop :=
  ∃ before c after, text = before ++ [c] ++ after ∧ Text.size (before ++ [c]) = stop ∧
    Text.isBlank c = false ∧ c ≠ ':'

/-- The token is a word, or the bracket that closes type arguments. -/
def Token.endsName (token : Token) : Bool :=
  token.kind == .word || token.isMark ">"

theorem tokens_endsName {text : String} {token : Token} (member : token ∈ tokens text)
    (ends : token.endsName = true) : EndsName text.toList token.span.stop := by
  obtain ⟨⟨before, after, text_eq, stop_eq⟩, nonempty, word⟩ :=
    tokensFrom_stands (List.nil_append _).symm rfl token member
  obtain ⟨init, c, split⟩ := (List.eq_nil_or_concat' _).resolve_left nonempty
  have inside : c ∈ token.text.toList := by simp [split]
  have ending : Text.isBlank c = false ∧ c ≠ ':' := by
    simp only [Token.endsName, Token.isMark, Bool.or_eq_true, Bool.and_eq_true, beq_iff_eq] at ends
    rcases ends with isWord | ⟨-, isMark⟩
    · exact ending_of_isWordChar (word isWord c inside)
    · rw [isMark] at inside
      cases List.mem_singleton.mp inside
      decide
  rw [split] at text_eq stop_eq
  exact ⟨before ++ init, c, after, by rw [text_eq]; simp, by rw [← stop_eq]; simp, ending⟩

/-! ### Names -/

namespace Peg

/-- The last token between the two inputs is a word or closes type arguments. -/
def EndsBy (input last : Input) : Prop :=
  ∃ before token, input.tokens = before ++ token :: last.tokens ∧ token.endsName = true ∧
    last.stop = token.span.stop

theorem EndsBy.behind {input middle last : Input} (ends : EndsBy middle last)
    (suffix : middle.tokens <:+ input.tokens) : EndsBy input last := by
  obtain ⟨before, token, tokens, isEnd, stop⟩ := ends
  obtain ⟨earlier, split⟩ := suffix
  exact ⟨earlier ++ before, token, by rw [← split, tokens]; simp, isEnd, stop⟩

end Peg

section Reads

open Peg

variable {input last : Input} {trees : List Tree}

theorem reads_typeArguments (read : Reads grammar (.rule .typeArguments) input trees last) :
    EndsBy input last := by
  obtain ⟨_, opened, _, readOpen, readRest, -⟩ := read.of_rule.of_seq
  obtain ⟨_, filled, _, readTypes, readRest, -⟩ := readRest.of_seq
  obtain ⟨_, closed, _, readClose, readNone, -⟩ := readRest.of_seq
  cases readNone.of_empty
  obtain ⟨next, tokens, accepted, stop, -⟩ := readClose.of_token
  have ends : EndsBy filled last :=
    ⟨[], next, tokens, by simp [Token.endsName, show next.isMark ">" = true from accepted], stop⟩
  exact ends.behind (readTypes.suffix.trans readOpen.suffix)

theorem reads_simpleName (read : Reads grammar (.rule .simpleName) input trees last) :
    EndsBy input last := by
  obtain ⟨_, named, _, readWord, readRest, -⟩ := read.of_rule.of_seq
  obtain ⟨_, behind, _, readArguments, readNone, -⟩ := readRest.of_seq
  cases readNone.of_empty
  rcases readArguments.of_alt with read | read
  · exact (reads_typeArguments read).behind readWord.suffix
  · cases read.of_empty
    obtain ⟨next, tokens, accepted, stop, -⟩ := readWord.of_token
    refine ⟨[], next, tokens, ?_, stop⟩
    simp only [Token.isIdentifier, Bool.and_eq_true] at accepted
    simp only [Token.endsName, accepted.1.1, Bool.true_or]

/-- Further segments, each behind a dot. -/
theorem reads_segments
    (read : Reads grammar (.many (.all [.mark ".", .rule .simpleName])) input trees last) :
    last = input ∨ EndsBy input last := by
  generalize segments : (Peg.many (.all [.mark ".", .rule .simpleName]) : Grammar.Part) = peg at read
  induction read with
  | nothing => exact .inl rfl
  | again left right _ ih =>
    cases segments
    obtain ⟨_, dotted, _, readDot, readRest, -⟩ := left.of_seq
    obtain ⟨_, named, _, readName, readNone, -⟩ := readRest.of_seq
    cases readNone.of_empty
    have ends := (reads_simpleName readName).behind readDot.suffix
    rcases ih rfl with same | further
    · cases same
      exact .inr ends
    · exact .inr (further.behind left.suffix)
  | _ => cases segments

/-- **A name** ends with a word or with the bracket behind type arguments. -/
theorem reads_name (read : Reads grammar (.rule .name) input trees last) : EndsBy input last := by
  obtain ⟨_, marked, _, readMark, readRest, -⟩ := read.of_rule.of_seq
  obtain ⟨_, named, _, readName, readRest, -⟩ := readRest.of_seq
  obtain ⟨_, behind, _, readSegments, readNone, -⟩ := readRest.of_seq
  cases readNone.of_empty
  have ends := (reads_simpleName readName).behind readMark.suffix
  rcases reads_segments readSegments with same | further
  · cases same
    exact ends
  · exact further.behind (readName.suffix.trans readMark.suffix)

end Reads

/-! ### Namespaces -/

namespace Tree

/-- If the node is a namespace, it begins with its name. -/
def IsNamed (text : List Char) (tree : Tree) : Prop :=
  tree.kind.isNamespace = true → ∃ name more, tree.children = name :: more ∧
    name.kind = .declaredName ∧ EndsName text name.span.stop

/-- All namespaces of the tree begin with their names. -/
def AllNamed (text : List Char) (tree : Tree) : Prop :=
  ∀ found ∈ tree.visited [], found.node.IsNamed text

variable {text : List Char} {tree child left : Tree} {more : List Tree}

theorem allNamed_of_children (named : tree.IsNamed text)
    (children : tree.kind ≠ .usingDirective → ∀ child ∈ tree.children, child.AllNamed text) :
    tree.AllNamed text := by
  intro found member
  rcases mem_visited_iff.mp member with rfl | ⟨notUsing, child, below, inner, deeper, rfl⟩
  · exact named
  · exact children notUsing child below inner deeper

theorem AllNamed.of_child (named : tree.AllNamed text) (notUsing : tree.kind ≠ .usingDirective)
    (below : child ∈ tree.children) : child.AllNamed text := by
  intro found member
  have here := named _ (mem_visited_below notUsing below member)
  exact here

theorem AllNamed.foldl_attach (named : left.AllNamed text)
    (all : ∀ continuation ∈ more, continuation.AllNamed text)
    (plain : ∀ continuation ∈ more, continuation.kind.isDeclaration = false) :
    (more.foldl Peg.attach left).AllNamed text := by
  induction more generalizing left with
  | nil => exact named
  | cons continuation more ih =>
    refine ih (allNamed_of_children (fun isNamespace => ?_) fun notUsing child below => ?_)
      (fun tree member => all tree (List.mem_cons_of_mem _ member))
      (fun tree member => plain tree (List.mem_cons_of_mem _ member))
    · have notNamespace := plain continuation List.mem_cons_self
      rw [Kind.isDeclaration, show continuation.kind.isNamespace = true from isNamespace] at notNamespace
      simp at notNamespace
    · rcases List.mem_cons.mp below with rfl | below
      · exact named
      · exact (all continuation List.mem_cons_self).of_child notUsing below

end Tree

namespace Peg

/-- A word and then a name. -/
def isHeaded : Grammar.Part → Bool
  | seq (token _) (seq (node .declaredName (rule .name)) _) => true
  | _ => false

/-- Every namespace of the expression begins with a word and its name, and nothing grows from a
declaration. -/
def headsAll : Grammar.Part → Bool
  | empty | token _ | ahead _ | notAhead _ | rule _ => true
  | seq first second | alt first second => first.headsAll && second.headsAll
  | many item => item.headsAll
  | node kind body => (!kind.isNamespace || body.isHeaded) && body.headsAll
  | grow first continuation => first.headsAll && continuation.headsAll && continuation.isPlain

theorem headsAll_grammar (rule : Grammar.Rule) : (grammar rule).headsAll = true := by
  cases rule <;> decide

variable {text : String} {input last : Input} {trees : List Tree}

/-- What begins with a word and a name makes a node that begins with its name. -/
theorem Reads.isNamed {body : Grammar.Part} {kind : Kind} (read : Reads grammar body input trees last)
    (headed : body.isHeaded = true) (counted : input.left = input.tokens.length)
    (suffix : input.tokens <:+ tokens text) :
    (enclose kind input last trees).IsNamed text.toList := by
  intro _
  unfold isHeaded at headed
  split at headed
  · obtain ⟨_, opened, _, readWord, readRest, rfl⟩ := read.of_seq
    obtain ⟨_, named, more, readNode, readRest, rfl⟩ := readRest.of_seq
    obtain ⟨inner, readName, rfl⟩ := readNode.of_node
    obtain ⟨_, _, _, _, rfl⟩ := readWord.of_token
    obtain ⟨before, token, tokens, isEnd, stop⟩ := reads_name readName
    have progress : named.left < opened.left := by
      have counted := readWord.count counted
      rw [readName.count counted, counted, tokens, List.length_append, List.length_cons]
      omega
    have member : token ∈ Source.tokens text := by
      refine (readWord.suffix.trans suffix).subset ?_
      rw [tokens]
      simp
    refine ⟨enclose .declaredName opened named inner, more, children_enclose, kind_enclose, ?_⟩
    rw [enclose, if_pos progress]
    show EndsName text.toList named.stop
    rw [stop]
    exact tokens_endsName member isEnd
  · cases headed

/-- **All namespaces that are read** begin with their names. -/
theorem Reads.allNamed {peg : Grammar.Part} (read : Reads grammar peg input trees last)
    (heads : peg.headsAll = true) (counted : input.left = input.tokens.length)
    (suffix : input.tokens <:+ tokens text) : ∀ tree ∈ trees, tree.AllNamed text.toList := by
  induction read with
  | nothing | token => nofun
  | seq left right ihLeft ihRight =>
    obtain ⟨first, second⟩ := (Bool.and_eq_true _ _).mp heads
    exact List.forall_mem_append.mpr ⟨ihLeft first counted suffix,
      ihRight second (left.count counted) (left.suffix.trans suffix)⟩
  | first _ ih => exact ih ((Bool.and_eq_true _ _).mp heads).1 counted suffix
  | second _ ih => exact ih ((Bool.and_eq_true _ _).mp heads).2 counted suffix
  | again left right ihLeft ihRight =>
    exact List.forall_mem_append.mpr ⟨ihLeft heads counted suffix,
      ihRight heads (left.count counted) (left.suffix.trans suffix)⟩
  | rule _ ih => exact ih (headsAll_grammar _) counted suffix
  | node read ih =>
    simp only [headsAll, Bool.and_eq_true, Bool.or_eq_true, Bool.not_eq_true'] at heads
    refine List.forall_mem_singleton.mpr (Tree.allNamed_of_children (fun isNamespace => ?_) ?_)
    · have headed := heads.1.resolve_left (by simpa using isNamespace)
      exact read.isNamed headed counted suffix isNamespace
    · rw [children_enclose]
      exact fun _ => ih heads.2 counted suffix
  | grow start rest ihStart ihRest =>
    simp only [headsAll, Bool.and_eq_true] at heads
    refine List.forall_mem_singleton.mpr (Tree.AllNamed.foldl_attach
      (ihStart heads.1.1 counted suffix _ List.mem_cons_self)
      (ihRest heads.1.2 (start.count counted) (start.suffix.trans suffix))
      (rest.plain heads.2))
  | lone _ ih =>
    simp only [headsAll, Bool.and_eq_true] at heads
    exact ih heads.1.1 counted suffix

end Peg

/-- **Every namespace in the tree of a text** begins with its name. -/
theorem readTree_allNamed (text : String) : (readTree text).AllNamed text.toList := by
  unfold readTree
  dsimp only
  split
  next tree last read =>
    exact (Peg.run_reads read).allNamed rfl rfl (List.suffix_refl _) tree List.mem_cons_self
  next =>
    refine Tree.allNamed_of_children (fun isNamespace => ?_) fun _ child below => ?_
    · cases isNamespace
    · cases below

end ScriptLint.Source
