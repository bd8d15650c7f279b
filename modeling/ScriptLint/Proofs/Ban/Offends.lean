/-
**What a ban is about, in words of its own.**

The checks of a ban are Boolean functions, each written for its own node. Here is the rule that they
follow: a script counts unless its path or a definition takes it out, a node counts unless a region
around its start mentions the symbol, and each kind of ban covers its own nodes.

* `Node`, `Nodes.toList` — an import or a call; all nodes of a script.
* `Path.Tokens.Admits` — no part of a path stands for code that rules pass over.
* `Directive.Defines`, `Regions.Mentions` — what lifts a ban.
* `Symbols.Reaches` — a call binds to a method of a forbidden namespace.
* `Ban.Covers`, `Ban.Offends` — the nodes that a ban is on, and those that it reports.
* `Ban.check_quiet` — the findings of a ban are exactly these nodes, one finding each.
-/

import ScriptLint.Proofs.Linter.Inspect
import ScriptLint.Proofs.Path.Roles

namespace ScriptLint

/-! ### Nodes -/

/-- An import or a call. -/
inductive Node where
  | ofImport (found : Import)
  | ofCall (call : Call)
deriving Repr, DecidableEq, Inhabited

/-- The part of the text that the node covers. -/
def Node.span : Node → Span
  | ofImport found => found.span
  | ofCall call => call.span

/-- What a rule says of the node. -/
def Node.message (kind : Ban.Kind) (symbols : Symbols) : Node → String
  | ofImport found => kind.importMessage found.target
  | ofCall call => kind.callMessage call ((CallSite.ofCall symbols call).method.getD "")

/-- All nodes, imports before calls. -/
def Nodes.toList (nodes : Nodes) : List Node :=
  nodes.imports.map .ofImport ++ nodes.calls.map .ofCall

/-! ### What takes a script or a node out -/

namespace Path

/-- No segment of a path, and no pair of neighbours, stands for code that rules pass over. -/
structure Tokens.Admits (tokens : Tokens) (path : String) : Prop where
  notEditor : ∀ segment ∈ segments path, segment ≠ tokens.folded.editorFolder
  notVendor : ∀ segment ∈ segments path, segment ∉ tokens.folded.vendorFolders
  notPackage : ∀ segment ∈ segments path, ∀ start ∈ tokens.folded.packagePrefixes,
    start ≠ "" → ¬ start.toList <+: segment.toList
  notCache : ¬ [tokens.folded.cachePair.1, tokens.folded.cachePair.2] <:+: segments path
  notPlugin : ∀ segment ∈ segments path, segment ≠ tokens.folded.pluginsFolder

theorem Tokens.isSuppressed_role_iff {tokens : Tokens} {path : String} :
    (tokens.role path).isSuppressed = false ↔ tokens.Admits path := by
  rw [Role.isSuppressed, Bool.or_eq_false_iff, ← Bool.not_eq_true, ← Bool.not_eq_true,
    isEditor_role_iff, isExcluded_role_iff]
  constructor
  · rintro ⟨notEditor, notExcluded⟩
    rw [Tokens.Excludes, not_or, not_or, not_or] at notExcluded
    obtain ⟨notVendor, notPackage, notCache, notPlugin⟩ := notExcluded
    refine ⟨?_, ?_, ?_, notCache, ?_⟩
    · rintro segment member rfl
      exact notEditor member
    · intro segment member isVendor
      obtain ⟨folder, isFolder, rfl⟩ := List.mem_map.mp isVendor
      exact notVendor ⟨folder, isFolder, member⟩
    · intro segment member start isStart nonempty begins
      obtain ⟨token, isToken, rfl⟩ := List.mem_map.mp isStart
      have some : token ≠ "" := mt lowercase_eq_empty_iff.mpr nonempty
      exact notPackage ⟨token, isToken, some, segment, member, begins⟩
    · rintro segment member rfl
      exact notPlugin member
  · intro admits
    refine ⟨fun names => admits.notEditor _ names rfl, ?_⟩
    rintro (⟨folder, isFolder, names⟩ | ⟨start, isStart, some, name, member, begins⟩ | adjoin | names)
    · exact admits.notVendor _ names (List.mem_map_of_mem isFolder)
    · have nonempty : Text.lowercase start ≠ "" := mt lowercase_eq_empty_iff.mp some
      exact admits.notPackage name member _ (List.mem_map_of_mem isStart) nonempty begins
    · exact admits.notCache adjoin
    · exact admits.notPlugin _ names rfl

end Path

/-- Some `#define` has the symbol as the first word of its text. -/
def Directive.Defines (directives : List Directive) (symbol : String) : Prop :=
  ∃ directive ∈ directives, directive.kind = .define ∧
    ∃ text, directive.condition = some text ∧ (Text.words text.toList).head? = some symbol.toList

theorem Directive.defines_iff {directives : List Directive} {symbol : String} :
    defines directives symbol = true ↔ Defines directives symbol := by
  simp only [defines, Defines, List.any_eq_true, Bool.and_eq_true, beq_iff_eq,
    Option.bind_eq_some_iff]

/-- The condition of some region holds the keyword, which is not empty. -/
def Regions.Mentions (regions : Regions) (keyword : String) : Prop :=
  keyword ≠ "" ∧ ∃ region ∈ regions, ∃ condition, region.condition = some condition ∧
    keyword.toList <:+: condition.toList

theorem Regions.mentions_iff {regions : Regions} {keyword : String} :
    regions.mentions keyword = true ↔ regions.Mentions keyword := by
  rw [mentions, Mentions, Bool.and_eq_true, List.any_eq_true]
  refine and_congr (by simp) (exists_congr fun region => and_congr_right fun _ => ?_)
  cases region.condition with
  | none => simp
  | some condition => simp [Text.hasInfix_iff]

/-! ### What a ban is on -/

/-- The call binds to a method whose namespace lies under a forbidden one: to the method itself or, for
an extension method, to the static method that it is. -/
def Symbols.Reaches (symbols : Symbols) (forbidden : List String) (call : Call) : Prop :=
  ∃ target, symbols.target? call = some target ∧
    ∃ method, (method = target.toMethod ∨ target.reducedFrom = some method) ∧
      ∃ home, method.home = some home ∧ ∃ outer ∈ forbidden, Name.isUnder outer home = true

theorem Method.isUnder_iff {forbidden : List String} {method : Method} :
    method.isUnder forbidden = true ↔
      ∃ home, method.home = some home ∧ ∃ outer ∈ forbidden, Name.isUnder outer home = true := by
  rw [isUnder]
  cases method.home with
  | none => simp
  | some home => simp

theorem isForbidden_iff {symbols : Symbols} {forbidden : List String} {call : Call} :
    isForbidden symbols forbidden call = true ↔ symbols.Reaches forbidden call := by
  rw [isForbidden, Symbols.Reaches]
  cases symbols.target? call with
  | none => simp
  | some target =>
    simp only [Option.some.injEq, exists_eq_left', Target.isForbidden, Bool.or_eq_true,
      ← Method.isUnder_iff, or_and_right, exists_or, exists_eq_left]
    cases target.reducedFrom with
    | none => simp
    | some method => simp

/-- The routine around the call runs every frame. -/
def Symbols.Restricts (symbols : Symbols) (restriction : Restriction) (call : Call) : Prop :=
  ∃ routine, symbols.routineAt? call.span.start = some routine ∧
    restriction.covers symbols routine = true

theorem isRestricted_iff {symbols : Symbols} {restriction : Restriction} {call : Call} :
    isRestricted symbols restriction call = true ↔ symbols.Restricts restriction call := by
  rw [isRestricted, Symbols.Restricts]
  cases symbols.routineAt? call.span.start with
  | none => simp
  | some routine => simp

namespace Ban

/-- The nodes that a ban is on. -/
def Covers (ban : Ban) (symbols : Symbols) : Node → Prop
  | .ofImport found =>
    (ban.kind = .editorApi ∨ ban.kind = .spreadsheetImport) ∧
      ∃ outer ∈ ban.forbidden, Name.isUnder outer found.target = true
  | .ofCall call =>
    match ban.kind with
    | .editorApi => symbols.Reaches ban.forbidden call
    | .spreadsheetImport => False
    | .spreadsheetCall => call.kind ≠ .query ∧ symbols.Reaches ban.forbidden call
    | .frameQuery =>
      (call.kind = .query ∨ symbols.Reaches ban.forbidden call) ∧
        symbols.Restricts ban.restriction call

/-- The nodes of a script at a path that a ban reports. -/
structure Offends (ban : Ban) (tokens : Path.Tokens) (file : String) (script : Script)
    (node : Node) : Prop where
  admitted : tokens.Admits file
  undefined : ¬ Directive.Defines script.outline.directives ban.allowSymbol
  unguarded :
    ¬ (Regions.replay script.outline.directives node.span.start).Mentions ban.allowSymbol
  covered : ban.Covers script.symbols node

/-- The ban reports the node of a script that it does not exempt. -/
def reports (ban : Ban) (subject : Subject) : Node → Bool
  | .ofImport found => ban.kind.looksAtImports && ban.reportsImport subject found
  | .ofCall call => ban.kind.looksAtCalls && ban.reportsCall subject call

theorem reports_iff {ban : Ban} {subject : Subject} {node : Node} :
    ban.reports subject node = true ↔
      ban.Covers subject.script.symbols node ∧
        ¬ (Regions.replay subject.script.outline.directives node.span.start).Mentions
          ban.allowSymbol := by
  cases node with
  | ofImport found =>
    have looks : ban.kind.looksAtImports = true ↔
        ban.kind = .editorApi ∨ ban.kind = .spreadsheetImport := by
      cases ban.kind <;> simp [Kind.looksAtImports]
    simp only [reports, reportsImport, coversImport, isLiftedAt, Directive.guards, Covers,
      Node.span, Bool.and_eq_true, looks, List.any_eq_true, Bool.not_eq_true',
      ← Regions.mentions_iff, and_assoc, Bool.not_eq_true]
  | ofCall call =>
    have covered : (ban.kind.looksAtCalls && ban.coversCall subject.script.symbols call) = true ↔
        ban.Covers subject.script.symbols (.ofCall call) := by
      unfold coversCall Covers
      cases ban.kind <;>
        simp [Kind.looksAtCalls, isForbidden_iff, isRestricted_iff]
    rw [← covered, ← Regions.mentions_iff]
    simp only [reports, reportsCall, isLiftedAt, Directive.guards, Node.span, Bool.and_eq_true,
      Bool.not_eq_true', and_assoc, Bool.not_eq_true]

/-- **A ban reports exactly the nodes that offend.** -/
theorem offends_iff {ban : Ban} {root : String} {tokens : Path.Tokens} {path : String}
    {script : Script} {node : Node} :
    ban.Offends tokens (Path.fromRoot root path) script node ↔
      ban.exempts (.ofScript root tokens path script) = false ∧
        ban.reports (.ofScript root tokens path script) node = true := by
  rw [reports_iff, exempts, Bool.or_eq_false_iff, ← Bool.not_eq_true (Directive.defines _ _),
    Directive.defines_iff]
  have admitted : (Subject.ofScript root tokens path script).role.isSuppressed = false ↔
      tokens.Admits (Path.fromRoot root path) := Path.Tokens.isSuppressed_role_iff
  rw [admitted]
  constructor
  · rintro ⟨admitted, undefined, unguarded, covered⟩
    exact ⟨⟨admitted, undefined⟩, covered, unguarded⟩
  · rintro ⟨⟨admitted, undefined⟩, covered, unguarded⟩
    exact ⟨admitted, undefined, unguarded, covered⟩

instance (ban : Ban) (root : String) (tokens : Path.Tokens) (path : String) (script : Script)
    (node : Node) : Decidable (ban.Offends tokens (Path.fromRoot root path) script node) :=
  decidable_of_iff _ offends_iff.symm

/-! ### Findings -/

/-- The finding on a node. -/
def finding (ban : Ban) (subject : Subject) (node : Node) : Violation :=
  ban.violation subject node.span (node.message ban.kind subject.script.symbols)

/-- Findings on nodes of one form, which a ban looks at or not. -/
theorem filterMap_findings {Form : Type} {report : Form → Option Violation} {make : Form → Node}
    {finding : Node → Violation} {looks : Bool} {reported : Form → Bool} {reports : Node → Bool}
    (report_eq : ∀ form, report form = if reported form then some (finding (make form)) else none)
    (reports_eq : ∀ form, reports (make form) = (looks && reported form)) (forms : List Form) :
    (if looks then forms else []).filterMap report =
      ((forms.map make).filter reports).map finding := by
  induction forms with
  | nil => cases looks <;> rfl
  | cons form more ih =>
    rw [List.map_cons, List.filter_cons, reports_eq]
    cases looks with
    | false => exact ih
    | true =>
      simp only [if_true, Bool.true_and, List.filterMap_cons, report_eq form] at ih ⊢
      cases reported form with
      | false => exact ih
      | true => exact congrArg (finding (make form) :: ·) ih

/-- **The findings of a ban when nothing disturbs it**: one for each node that it reports. -/
theorem check_quiet (ban : Ban) (subject : Subject) :
    ban.check subject .quiet =
      (if ban.exempts subject then [] else
        (subject.script.outline.nodes.toList.filter (ban.reports subject)).map
          (ban.finding subject), .quiet) := by
  have onImport : ∀ found, ban.importFinding? subject found =
      if ban.reportsImport subject found then some (ban.finding subject (.ofImport found)) else
        none := fun _ => rfl
  have onCall : ∀ call, ban.callFinding? subject call =
      if ban.reportsCall subject call then some (ban.finding subject (.ofCall call)) else
        none := fun _ => rfl
  have imports : (ban.imports subject).filterMap (ban.importFinding? subject) =
      ((subject.script.outline.imports.map .ofImport).filter (ban.reports subject)).map
        (ban.finding subject) := filterMap_findings onImport (fun _ => rfl) _
  have calls : (ban.calls subject).filterMap (ban.callFinding? subject) =
      ((subject.script.outline.nodes.calls.map .ofCall).filter (ban.reports subject)).map
        (ban.finding subject) := filterMap_findings onCall (fun _ => rfl) _
  rw [check]
  split
  · rfl
  · rw [scan_quiet, imports]
    dsimp only
    rw [scan_quiet, calls, Nodes.toList, List.filter_append, List.map_append]
    rfl

end Ban

end ScriptLint
