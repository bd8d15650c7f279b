/-
**Wrapping code in a guard silences that code and nothing else.**

* `WellNested` — every `#else` and `#endif` of a list of directives belongs to an `#if` of the list,
  every `#if` is closed, and there is no `#elif`.
* `Regions.foldl_apply_nested` — such directives, or the first few of them, leave the regions alone
  that are open around them.
* `scanFrom_wrap` — the two lines of a guard are read as its two directives, around those of its
  body.
* `guards_wrap` — the body of a guard is guarded by its symbol; before and after it, every question
  about guards is answered as without the guard; and the script defines the same symbols.
-/

import ScriptLint.Proofs.Directive.Written

namespace ScriptLint

namespace Directive

/-! ### Nesting -/

/-- How many regions are open after a directive when `depth` of them are open before it; none if it
closes or renames a region that is not there. -/
def Kind.depth? : Kind → Nat → Option Nat
  | .openIf, depth => some (depth + 1)
  | .otherwise, depth + 1 => some (depth + 1)
  | .endIf, depth + 1 => some depth
  | .define, depth => some depth
  | .undef, depth => some depth
  | _, _ => none

/-- How many regions are open after the directives. -/
def depthAfter? (depth : Nat) (directives : List Directive) : Option Nat :=
  directives.foldlM (fun depth directive => directive.kind.depth? depth) depth

/-- The directives open and close regions in a well-nested way, with no `#elif`. Definitions may
stand anywhere. -/
def WellNested (directives : List Directive) : Prop :=
  depthAfter? 0 directives = some 0

instance (directives : List Directive) : Decidable (WellNested directives) :=
  inferInstanceAs (Decidable (_ = _))

theorem depthAfter?_map_shift (n depth : Nat) (directives : List Directive) :
    depthAfter? depth (directives.map (shift n)) = depthAfter? depth directives := by
  rw [depthAfter?, List.foldlM_map]
  rfl

/-- The first few directives of a well-nested list are nested too, some regions being left open. -/
theorem exists_depthAfter?_of_append {depth total : Nat} {first second : List Directive}
    (all : depthAfter? depth (first ++ second) = some total) :
    ∃ reached, depthAfter? depth first = some reached := by
  rw [depthAfter?, List.foldlM_append] at all
  obtain ⟨reached, first, -⟩ := Option.bind_eq_some_iff.mp all
  exact ⟨reached, first⟩

end Directive

namespace Regions

open Directive

/-- **One nested directive** changes only the regions opened within. -/
theorem apply_nested {directive : Directive} (opened outer : Regions) {depth : Nat}
    (nested : directive.kind.depth? opened.length = some depth) :
    ∃ opened' : Regions, apply (opened ++ outer) directive = opened' ++ outer ∧
      opened'.length = depth := by
  obtain ⟨kind, condition, position⟩ := directive
  cases kind with
  | openIf =>
    simp only [Kind.depth?, Option.some.injEq] at nested
    exact ⟨⟨.openIf, condition⟩ :: opened, rfl, nested⟩
  | elseIf => simp [Kind.depth?] at nested
  | otherwise =>
    cases opened with
    | nil => simp [Kind.depth?] at nested
    | cons top rest =>
      simp only [Kind.depth?, List.length_cons, Option.some.injEq] at nested
      exact ⟨⟨.otherwise, top.condition⟩ :: rest, rfl, nested⟩
  | endIf =>
    cases opened with
    | nil => simp [Kind.depth?] at nested
    | cons top rest =>
      simp only [Kind.depth?, List.length_cons, Option.some.injEq] at nested
      exact ⟨rest, rfl, nested⟩
  | define =>
    simp only [Kind.depth?, Option.some.injEq] at nested
    exact ⟨opened, rfl, nested⟩
  | undef =>
    simp only [Kind.depth?, Option.some.injEq] at nested
    exact ⟨opened, rfl, nested⟩

/-- **Nested directives** change only the regions opened within. -/
theorem foldl_apply_nested {directives : List Directive} (opened outer : Regions) {depth : Nat}
    (nested : depthAfter? opened.length directives = some depth) :
    ∃ opened' : Regions, directives.foldl apply (opened ++ outer) = opened' ++ outer ∧
      opened'.length = depth := by
  induction directives generalizing opened with
  | nil =>
    simp only [depthAfter?, List.foldlM_nil, Option.pure_def, Option.some.injEq] at nested
    exact ⟨opened, rfl, nested⟩
  | cons directive rest ih =>
    rw [depthAfter?, List.foldlM_cons] at nested
    obtain ⟨between, first, others⟩ := Option.bind_eq_some_iff.mp nested
    obtain ⟨opened', applied, rfl⟩ := apply_nested opened outer first
    rw [List.foldl_cons, applied]
    exact ih opened' others

/-- A well-nested list leaves all regions as they are. -/
theorem foldl_apply_wellNested {directives : List Directive} (nested : WellNested directives)
    (regions : Regions) : directives.foldl apply regions = regions := by
  obtain ⟨opened, applied, none⟩ := foldl_apply_nested [] regions nested
  rw [List.eq_nil_of_length_eq_zero none] at applied
  exact applied

/-! ### Replay in parts -/

theorem replayFrom_append (start : Regions) (first second : List Directive) (target : Nat) :
    replayFrom start (first ++ second) target =
      replayFrom (replayFrom start first target) second target := by
  rw [replayFrom, List.filter_append, List.foldl_append]
  rfl

/-- All directives at or before the target are replayed. -/
theorem replayFrom_of_le {directives : List Directive} {target : Nat}
    (reached : ∀ d ∈ directives, d.position ≤ target) (start : Regions) :
    replayFrom start directives target = directives.foldl apply start := by
  rw [replayFrom, List.filter_eq_self.mpr fun d member => by simpa using reached d member]

/-- Directives after the target are not. -/
theorem replayFrom_of_lt {directives : List Directive} {target : Nat}
    (later : ∀ d ∈ directives, target < d.position) (start : Regions) :
    replayFrom start directives target = start := by
  rw [replayFrom, List.filter_eq_nil_iff.mpr fun d member => by simpa using later d member]
  rfl

theorem replayFrom_cons_of_le {directive : Directive} {target : Nat}
    (reached : directive.position ≤ target) (start : Regions) (rest : List Directive) :
    replayFrom start (directive :: rest) target =
      replayFrom (apply start directive) rest target := by
  rw [replayFrom, List.filter_cons_of_pos (by simpa using reached)]
  rfl

theorem replayFrom_cons_of_lt {directive : Directive} {target : Nat}
    (later : target < directive.position) (start : Regions) (rest : List Directive) :
    replayFrom start (directive :: rest) target = replayFrom start rest target := by
  rw [replayFrom, List.filter_cons_of_neg (by simpa using later)]
  rfl

/-- Directives and target may be moved together. -/
theorem replayFrom_shift (start : Regions) (directives : List Directive) (n target : Nat) :
    replayFrom start (directives.map (shift n)) (target + n) =
      replayFrom start directives target := by
  induction directives generalizing start with
  | nil => rfl
  | cons directive rest ih =>
    have moved : (directive.shift n).position = directive.position + n := rfl
    rw [List.map_cons]
    by_cases reached : directive.position ≤ target
    · rw [replayFrom_cons_of_le (by omega), replayFrom_cons_of_le reached, ih]
      rfl
    · rw [replayFrom_cons_of_lt (by omega), replayFrom_cons_of_lt (by omega), ih]

/-- Of directives in order, those at or before the target are the first few. -/
theorem exists_replayFrom_eq_foldl {directives : List Directive}
    (increasing : directives.Pairwise fun a b => a.position < b.position) (target : Nat) :
    ∃ first second, directives = first ++ second ∧
      ∀ start, replayFrom start directives target = first.foldl apply start := by
  induction directives with
  | nil => exact ⟨[], [], rfl, fun _ => rfl⟩
  | cons directive rest ih =>
    obtain ⟨later, increasing⟩ := List.pairwise_cons.mp increasing
    by_cases reached : directive.position ≤ target
    · obtain ⟨first, second, rest_eq, replayed⟩ := ih increasing
      refine ⟨directive :: first, second, by rw [rest_eq, List.cons_append], fun start => ?_⟩
      rw [replayFrom_cons_of_le reached, replayed, List.foldl_cons]
    · refine ⟨[], directive :: rest, rfl, replayFrom_of_lt fun d member => ?_⟩
      rcases List.mem_cons.mp member with rfl | member
      · omega
      · have := later d member
        omega

end Regions

namespace Directive

/-! ### The lines of a guard -/

/-- The line that opens a guard. -/
def ifLine (symbol : String) : String :=
  "#if " ++ symbol ++ "\n"

/-- The line that closes a guard. -/
def endLine : String :=
  "#endif\n"

/-- The first line of a guard, as a written directive. -/
def IsCondition.opening {symbol : String} (condition : IsCondition symbol) : Written :=
  .plain .openIf (some symbol) fun text same => by cases same; exact condition

/-- The last line of a guard, as a written directive. -/
def closing : Written :=
  .plain .endIf none fun text absent => by cases absent

theorem IsCondition.ifLine_toList {symbol : String} (condition : IsCondition symbol) :
    (ifLine symbol).toList = condition.opening.chars := by
  simp [ifLine, opening, Written.plain, Written.chars, Written.front, Written.back,
    Written.conditionPart, Gap.empty, Gap.space, Return.chars, Kind.keyword]

theorem endLine_toList : endLine.toList = closing.chars := by decide

theorem IsCondition.readLine_ifLine {symbol : String} (condition : IsCondition symbol)
    (offset : Nat) :
    readLine .code offset (ifLine symbol).toList =
      (some ⟨.openIf, some symbol, offset⟩, .code) := by
  rw [condition.ifLine_toList, Written.readLine_chars]
  rfl

theorem readLine_endLine (offset : Nat) :
    readLine .code offset endLine.toList = (some ⟨.endIf, none, offset⟩, .code) := by
  rw [endLine_toList, Written.readLine_chars]
  rfl

/-! ### A guard put around whole lines -/

/-- The text with a guard around it. -/
def wrap (symbol body : String) : String :=
  ifLine symbol ++ body ++ endLine

section Guard

variable {before body after symbol : String}

theorem wholeLines_ifLine (symbol : String) : Text.WholeLines (ifLine symbol).toList := by
  rw [ifLine, String.toList_append]
  exact Text.wholeLines_newline _

theorem wholeLines_wrap (symbol body : String) : Text.WholeLines (wrap symbol body).toList := by
  rw [wrap, String.toList_append]
  exact .inr (by simp [endLine])

theorem lines_endLine : Text.lines endLine.toList = [endLine.toList] := by decide

theorem IsCondition.lines_ifLine (condition : IsCondition symbol) :
    Text.lines (ifLine symbol).toList = [(ifLine symbol).toList] := by
  rw [condition.ifLine_toList]
  exact condition.opening.lines_chars

/-- The directives of a text in three parts, the middle one in code at both of its ends. -/
theorem scan_parts (beforeLines : Text.WholeLines before.toList)
    (bodyLines : Text.WholeLines body.toList)
    (codeBefore : Mode.code.after before.toList = .code)
    (codeBody : Mode.code.after body.toList = .code) :
    scan (before ++ body ++ after) =
      scanFrom .code 0 before.toList ++
        (scanFrom .code (Text.size before.toList) body.toList ++
          scanFrom .code (Text.size before.toList + Text.size body.toList) after.toList) := by
  rw [scan_eq, String.toList_append, String.toList_append, List.append_assoc,
    scanFrom_append beforeLines, codeBefore, Nat.zero_add, scanFrom_append bodyLines, codeBody]

/-- The directives of a guard with its body. -/
theorem scanFrom_wrap (condition : IsCondition symbol) (bodyLines : Text.WholeLines body.toList)
    (codeBody : Mode.code.after body.toList = .code) (offset : Nat) :
    scanFrom .code offset (wrap symbol body).toList =
      ⟨.openIf, some symbol, offset⟩ ::
        (scanFrom .code (offset + Text.size (ifLine symbol).toList) body.toList ++
          [⟨.endIf, none, offset + Text.size (ifLine symbol).toList + Text.size body.toList⟩]) := by
  have codeIf : Mode.code.after (ifLine symbol).toList = .code := by
    rw [Mode.after_line condition.lines_ifLine, condition.readLine_ifLine]
  rw [wrap, String.toList_append, String.toList_append, List.append_assoc,
    scanFrom_append (wholeLines_ifLine symbol), codeIf, scanFrom_append bodyLines, codeBody,
    scanFrom_line condition.lines_ifLine, condition.readLine_ifLine,
    scanFrom_line lines_endLine, readLine_endLine]
  rfl

theorem Mode.after_wrap (condition : IsCondition symbol) (bodyLines : Text.WholeLines body.toList)
    (codeBody : Mode.code.after body.toList = .code) :
    Mode.code.after (wrap symbol body).toList = .code := by
  rw [wrap, String.toList_append, String.toList_append,
    Mode.after_append ((wholeLines_ifLine symbol).append bodyLines),
    Mode.after_append (wholeLines_ifLine symbol), Mode.after_line condition.lines_ifLine,
    condition.readLine_ifLine, codeBody, Mode.after_line lines_endLine, readLine_endLine]

theorem size_wrap (symbol body : String) :
    Text.size (wrap symbol body).toList =
      Text.size (ifLine symbol).toList + Text.size body.toList + Text.size endLine.toList := by
  rw [wrap, String.toList_append, String.toList_append, Text.size_append, Text.size_append]

theorem wellNested_scanFrom (nested : WellNested (scan body)) (offset : Nat) :
    WellNested (scanFrom .code offset body.toList) := by
  rw [WellNested, scanFrom_eq_map_shift, depthAfter?_map_shift]
  exact nested

/-- Directives of a text behind the target are not replayed. -/
theorem replayFrom_scanFrom_of_lt {start target : Nat} (early : target < start) (mode : Mode)
    (text : List Char) (regions : Regions) :
    regions.replayFrom (scanFrom mode start text) target = regions :=
  Regions.replayFrom_of_lt (fun d member => by have := scanFrom_bounds member; omega) regions

/-- Directives of a text before the target are all replayed. -/
theorem replayFrom_scanFrom_of_le {start target : Nat} {text : List Char}
    (late : start + Text.size text ≤ target) (mode : Mode) (regions : Regions) :
    regions.replayFrom (scanFrom mode start text) target =
      (scanFrom mode start text).foldl Regions.apply regions :=
  Regions.replayFrom_of_le (fun d member => by have := scanFrom_bounds member; omega) regions

/-- Inside the body the guard's region is open, whatever the body opens itself. -/
theorem replay_inside (condition : IsCondition symbol) (nested : WellNested (scan body))
    (bodyLines : Text.WholeLines body.toList) (codeBody : Mode.code.after body.toList = .code)
    (earlier : List Directive) {start offset : Nat} {later : List Directive}
    (inside : start + Text.size (ifLine symbol).toList ≤ offset)
    (inBody : offset < start + Text.size (ifLine symbol).toList + Text.size body.toList)
    (beyond : ∀ d ∈ later, offset < d.position) :
    ∃ opened outer : Regions,
      Regions.replay (earlier ++ (scanFrom .code start (wrap symbol body).toList ++ later)) offset =
        opened ++ ⟨.openIf, some symbol⟩ :: outer := by
  set bodyStart := start + Text.size (ifLine symbol).toList with bodyStart_eq
  have opening : start ≤ offset := by omega
  have closing : ∀ d ∈ [(⟨.endIf, none, bodyStart + Text.size body.toList⟩ : Directive)],
      offset < d.position := by
    simpa using inBody
  obtain ⟨first, second, directives_eq, replayed⟩ :=
    Regions.exists_replayFrom_eq_foldl (scanFrom_increasing .code bodyStart body.toList) offset
  have nestedBody := wellNested_scanFrom nested bodyStart
  rw [WellNested, directives_eq] at nestedBody
  obtain ⟨depth, reached⟩ := exists_depthAfter?_of_append nestedBody
  set outer := Regions.replay earlier offset with outer_eq
  obtain ⟨opened, applied, -⟩ :=
    Regions.foldl_apply_nested [] (⟨.openIf, some symbol⟩ :: outer) reached
  refine ⟨opened, outer, ?_⟩
  rw [Regions.replay, Regions.replayFrom_append, scanFrom_wrap condition bodyLines codeBody,
    ← bodyStart_eq, List.cons_append, Regions.replayFrom_cons_of_le opening, List.append_assoc,
    Regions.replayFrom_append, replayed, Regions.replayFrom_append,
    Regions.replayFrom_of_lt closing, Regions.replayFrom_of_lt beyond]
  exact applied

/-- Behind the guard no region of it is open. -/
theorem foldl_apply_wrap (condition : IsCondition symbol) (nested : WellNested (scan body))
    (bodyLines : Text.WholeLines body.toList) (codeBody : Mode.code.after body.toList = .code)
    (offset : Nat) (regions : Regions) :
    (scanFrom .code offset (wrap symbol body).toList).foldl Regions.apply regions = regions := by
  rw [scanFrom_wrap condition bodyLines codeBody, List.foldl_cons, List.foldl_append,
    Regions.foldl_apply_wellNested (wellNested_scanFrom nested _)]
  rfl

theorem defines_append (first second : List Directive) (name : String) :
    defines (first ++ second) name = (defines first name || defines second name) := by
  rw [defines, List.any_append]
  rfl

theorem defines_map_shift (n : Nat) (directives : List Directive) (name : String) :
    defines (directives.map (shift n)) name = defines directives name := by
  rw [defines, List.any_map]
  rfl

/-- The two lines of a guard define nothing. -/
theorem defines_scanFrom_wrap (condition : IsCondition symbol)
    (bodyLines : Text.WholeLines body.toList) (codeBody : Mode.code.after body.toList = .code)
    (offset : Nat) (name : String) :
    defines (scanFrom .code offset (wrap symbol body).toList) name =
      defines (scan body) name := by
  rw [scanFrom_wrap condition bodyLines codeBody, scanFrom_eq_map_shift, ← List.singleton_append,
    defines_append, defines_append, defines_map_shift, scan_eq]
  simp [defines]

/-- **A guard silences its body and nothing else.** Whole lines that begin and end in code, with
well-nested directives, are put into a guard. Then every offset of these lines is guarded by the
symbol, every offset before and behind them is guarded by the same keywords as without the guard,
and the script defines the same symbols. -/
theorem guards_wrap (beforeLines : Text.WholeLines before.toList)
    (bodyEnds : body.toList.getLast? = some '\n')
    (codeBefore : Mode.code.after before.toList = .code)
    (codeBody : Mode.code.after (before ++ body).toList = .code)
    (nested : WellNested (scan body)) (condition : IsCondition symbol) :
    (∀ offset, Text.size before.toList + Text.size (ifLine symbol).toList ≤ offset →
      offset < Text.size before.toList + Text.size (ifLine symbol).toList +
        Text.size body.toList →
      guards (scan (before ++ wrap symbol body ++ after)) offset symbol = true) ∧
    (∀ offset keyword, offset < Text.size before.toList →
      guards (scan (before ++ wrap symbol body ++ after)) offset keyword =
        guards (scan (before ++ body ++ after)) offset keyword) ∧
    (∀ offset keyword, Text.size before.toList + Text.size body.toList ≤ offset →
      guards (scan (before ++ wrap symbol body ++ after))
          (offset + (Text.size (ifLine symbol).toList + Text.size endLine.toList)) keyword =
        guards (scan (before ++ body ++ after)) offset keyword) ∧
    ∀ name, defines (scan (before ++ wrap symbol body ++ after)) name =
      defines (scan (before ++ body ++ after)) name := by
  have bodyLines : Text.WholeLines body.toList := .inr bodyEnds
  rw [String.toList_append, Mode.after_append beforeLines, codeBefore] at codeBody
  rw [scan_parts beforeLines bodyLines codeBefore codeBody,
    scan_parts beforeLines (wholeLines_wrap symbol body) codeBefore
      (Mode.after_wrap condition bodyLines codeBody)]
  have size_eq := size_wrap symbol body
  set wrapped := Text.size (wrap symbol body).toList
  set start := Text.size before.toList
  refine ⟨fun offset inside inBody => ?_, fun offset keyword early => ?_,
    fun offset keyword late => ?_, fun name => ?_⟩
  · have beyond : ∀ d ∈ scanFrom .code (start + wrapped) after.toList, offset < d.position :=
      fun d member => by
        have := scanFrom_bounds member
        omega
    obtain ⟨opened, outer, replayed⟩ := replay_inside condition nested bodyLines codeBody
      (scanFrom .code 0 before.toList) inside inBody beyond
    have nonempty : symbol.isEmpty = false := by simpa using condition.nonempty
    rw [guards, replayed, Regions.mentions, nonempty, List.any_append, List.any_cons]
    simp [Text.hasInfix_self]
  · simp only [guards, Regions.replay, Regions.replayFrom_append,
      replayFrom_scanFrom_of_lt early, replayFrom_scanFrom_of_lt (Nat.lt_add_right _ early)]
  · have moved : scanFrom .code (start + wrapped) after.toList =
        (scanFrom .code (start + Text.size body.toList) after.toList).map
          (shift (Text.size (ifLine symbol).toList + Text.size endLine.toList)) := by
      rw [← scanFrom_shift, size_eq]
      congr 1
      omega
    have same : Regions.replay (scanFrom .code 0 before.toList)
          (offset + (Text.size (ifLine symbol).toList + Text.size endLine.toList)) =
        Regions.replay (scanFrom .code 0 before.toList) offset := by
      rw [Regions.replay, Regions.replay, replayFrom_scanFrom_of_le (by omega),
        replayFrom_scanFrom_of_le (by omega)]
    have lateWrapped : start + wrapped ≤
        offset + (Text.size (ifLine symbol).toList + Text.size endLine.toList) := by omega
    rw [guards, guards, Regions.replay, Regions.replayFrom_append, Regions.replayFrom_append,
      ← Regions.replay, same, replayFrom_scanFrom_of_le lateWrapped,
      foldl_apply_wrap condition nested bodyLines codeBody, moved, Regions.replayFrom_shift]
    rw [Regions.replay, Regions.replay, Regions.replayFrom_append, Regions.replayFrom_append,
      replayFrom_scanFrom_of_le late,
      Regions.foldl_apply_wellNested (wellNested_scanFrom nested start)]
  · rw [defines_append, defines_append, defines_append, defines_append,
      defines_scanFrom_wrap condition bodyLines codeBody,
      scanFrom_eq_map_shift .code start body.toList, defines_map_shift,
      scanFrom_eq_map_shift .code (start + wrapped), defines_map_shift,
      scanFrom_eq_map_shift .code (start + Text.size body.toList), defines_map_shift]
    rfl

end Guard

/-- A body with a region of its own, and with a string that hides an `#endif`. -/
theorem guards_wrap_hidden :
    WellNested (scan "#if Q\nF(@\"\n#endif\n\");\n#else\n#endif\n") ∧
      guards (scan ("#define X\n" ++
        wrap "ALLOW" "#if Q\nF(@\"\n#endif\n\");\n#else\n#endif\n" ++ "G();\n")) 26 "ALLOW" = true ∧
      ∀ keyword, guards (scan ("#define X\n" ++
          wrap "ALLOW" "#if Q\nF(@\"\n#endif\n\");\n#else\n#endif\n" ++ "G();\n")) 62 keyword =
        guards (scan ("#define X\n" ++ "#if Q\nF(@\"\n#endif\n\");\n#else\n#endif\n" ++ "G();\n"))
          45 keyword := by
  have nested : WellNested (scan "#if Q\nF(@\"\n#endif\n\");\n#else\n#endif\n") := by
    decide +kernel
  obtain ⟨inside, -, behind, -⟩ :=
    @guards_wrap "#define X\n" _ "G();\n" "ALLOW" (by decide) (by decide) (by decide +kernel)
      (by decide +kernel) nested ⟨by decide, by decide, by decide, by decide⟩
  exact ⟨nested, inside 26 (by decide) (by decide), fun keyword => behind 45 keyword (by decide)⟩

end Directive

end ScriptLint
