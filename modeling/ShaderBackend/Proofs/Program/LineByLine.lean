import ShaderBackend.Proofs.Program.Canonical

/-!
Reading line by line. What is read from a line does not depend on where the line stands: when it is
moved on by some bytes, the same is read, with every span moved on by as many. So each line of a
source says by itself whether it is a token, and which, or what is wrong with it; and the source is
read as its lines are, one after the other.
-/

namespace ShaderBackend

/-! ### Pieces of the source, moved on -/

def Span.move (k : Nat) (s : Span) : Span :=
  ⟨k + s.start, k + s.stop⟩

def Problem.move (k : Nat) (p : Problem) : Problem :=
  { p with span := p.span.move k }

/-- What is read `k` bytes further on, where `f` moves the value. -/
def Reading.move {α : Type} (k : Nat) (f : α → α) (x : Reading α) : Reading α :=
  ⟨x.value.map f, x.problems.map (Problem.move k)⟩

theorem Reading.move_bind {α β : Type} {k : Nat} {f : α → α} {g : β → β} {x x' : Reading α}
    {h h' : α → Reading β} (hx : x' = x.move k f) (hh : ∀ a, h' (f a) = (h a).move k g) :
    x' >>= h' = (x >>= h).move k g := by
  subst hx
  obtain ⟨value, problems⟩ := x
  cases value with
  | none => rfl
  | some a => simp [bind, Reading.bind, Reading.move, hh a]

theorem Reading.move_map {α β : Type} {k : Nat} {f : α → α} {g : β → β} {x x' : Reading α}
    {h : α → β} (hx : x' = x.move k f) (hh : ∀ a, h (f a) = g (h a)) :
    x'.map h = (x.map h).move k g := by
  subst hx
  simp [Reading.map, Reading.move, Function.comp_def, hh]

namespace Excerpt

def move (k : Nat) (e : Excerpt) : Excerpt :=
  ⟨k + e.start, e.text⟩

@[simp] theorem text_move (k : Nat) (e : Excerpt) : (e.move k).text = e.text := rfl

@[simp] theorem isEmpty_move (k : Nat) (e : Excerpt) : (e.move k).isEmpty = e.isEmpty := rfl

@[simp] theorem span_move (k : Nat) (e : Excerpt) : (e.move k).span = e.span.move k := by
  simp only [span, move, Span.move, Nat.add_assoc]

theorem fail_move {α : Type} (k : Nat) (f : α → α) (e : Excerpt) (fault : Fault) :
    (e.move k).fail fault = (e.fail fault).move k f := by
  rw [fail, span_move]
  rfl

@[simp] theorem before_move (k : Nat) (c : Char) (e : Excerpt) :
    (e.move k).before c = (e.before c).move k := rfl

@[simp] theorem startingAt_move (k : Nat) (c : Char) (e : Excerpt) :
    (e.move k).startingAt c = (e.startingAt c).move k := by
  simp only [startingAt, splitWhile, move, Nat.add_assoc]

@[simp] theorem tail_move (k : Nat) (e : Excerpt) : (e.move k).tail = e.tail.move k := by
  obtain ⟨start, text⟩ := e
  cases text with
  | nil => rfl
  | cons c text => simp only [tail, move, Nat.add_assoc]

@[simp] theorem dropLast_move (k : Nat) (e : Excerpt) :
    (e.move k).dropLast = e.dropLast.move k := rfl

@[simp] theorem trimStart_move (k : Nat) (e : Excerpt) :
    (e.move k).trimStart = e.trimStart.move k := by
  simp only [trimStart, splitWhile, move, Nat.add_assoc]

@[simp] theorem trim_move (k : Nat) (e : Excerpt) : (e.move k).trim = e.trim.move k :=
  trimStart_move k e.trimEnd

@[simp] theorem splitWord_move (k : Nat) (e : Excerpt) :
    (e.move k).splitWord = (e.splitWord.1.move k, e.splitWord.2.move k) := by
  have hrest : ∀ e : Excerpt, ((e.move k).splitWhile (! isBlank ·)).2 =
      (e.splitWhile (! isBlank ·)).2.move k := by
    intro e
    simp only [splitWhile, move, Nat.add_assoc]
  rw [splitWord, trimStart_move, splitWord]
  simp only [hrest, trimStart_move]
  rfl

theorem cutAt?_move (k : Nat) (separator : Text) (e : Excerpt) :
    (e.move k).cutAt? separator =
      (e.cutAt? separator).map fun sides => (sides.1.move k, sides.2.move k) := by
  rw [cutAt?, cutAt?, Option.map_map, text_move]
  congr 1
  funext sides
  simp only [Function.comp_apply, move, Nat.add_assoc]

theorem locate_move (k start : Nat) (parts : List Text) :
    locate (k + start) parts = (locate start parts).map (move k) := by
  induction parts generalizing start with
  | nil => rfl
  | cons part parts ih =>
      have hnext : k + start + part.utf8Length + 1 = k + (start + part.utf8Length + 1) := by omega
      rw [locate, locate, List.map_cons, hnext, ih]
      rfl

theorem splitTopLevel_move (k : Nat) (e : Excerpt) :
    (e.move k).splitTopLevel = e.splitTopLevel.map (move k) := by
  have htrim : Excerpt.trim ∘ move k = move k ∘ Excerpt.trim := funext fun e => trim_move k e
  rw [splitTopLevel, splitTopLevel, List.map_map, ← htrim, ← List.map_map]
  exact congrArg (List.map Excerpt.trim) (locate_move k e.start _)

/-! ### Registers -/

theorem readNumber_move (k : Nat) (e : Excerpt) :
    (e.move k).readNumber = e.readNumber.move k id := by
  unfold readNumber
  rw [text_move]
  split
  · rfl
  · exact fail_move k id e _

theorem readComponents_move (k : Nat) (whole : Excerpt) (least : Nat) (t : Text) :
    (whole.move k).readComponents least t = (whole.readComponents least t).move k id := by
  induction t generalizing least with
  | nil => rfl
  | cons c t ih =>
      unfold readComponents
      split
      · exact fail_move k id whole _
      · split
        · exact fail_move k id whole _
        · exact Reading.move_bind (ih _) fun mask => rfl

theorem readMask_move (k : Nat) (e : Excerpt) : (e.move k).readMask = e.readMask.move k id := by
  unfold readMask
  refine Reading.move_bind (readComponents_move k e 0 e.text) fun mask => ?_
  dsimp only [id]
  split
  · exact fail_move k id e _
  · rfl

theorem readGroups_move (k fuel : Nat) (e : Excerpt) :
    (e.move k).readGroups fuel =
      (e.readGroups fuel).move k fun groups => (groups.1.map (move k), groups.2.move k) := by
  induction fuel generalizing e with
  | zero => rfl
  | succ fuel ih =>
      unfold readGroups
      simp only [text_move, tail_move, before_move, startingAt_move, isEmpty_move]
      split
      · split
        · exact fail_move k _ e _
        · exact Reading.move_bind (ih _) fun groups => rfl
      · rfl

theorem readRange_move (k : Nat) (e : Excerpt) : (e.move k).readRange = e.readRange.move k id := by
  unfold readRange
  rw [cutAt?_move]
  cases e.cutAt? ".." with
  | none => exact Reading.move_bind (readNumber_move k e) fun n => rfl
  | some sides =>
      refine Reading.move_bind (readNumber_move k sides.1) fun first => ?_
      exact Reading.move_bind (readNumber_move k sides.2) fun last => rfl

theorem splitGroups_move (k : Nat) (e : Excerpt) (groups : List Excerpt) :
    (e.move k).splitGroups (groups.map (move k)) =
      (e.splitGroups groups).move k fun parts => (parts.1, parts.2.move k) := by
  cases groups with
  | nil => exact fail_move k _ e _
  | cons a groups =>
      cases groups with
      | nil => rfl
      | cons b groups =>
        cases groups with
        | nil => exact Reading.move_bind (readNumber_move k a) fun n => rfl
        | cons c groups => exact fail_move k _ e _

theorem readSuffix_move (k : Nat) (e : Excerpt) :
    (e.move k).readSuffix = e.readSuffix.move k id := by
  unfold readSuffix
  rw [text_move]
  split
  · rfl
  · rw [tail_move]
    exact readMask_move k e.tail
  · exact fail_move k id e _

theorem readRegister_move (k : Nat) (e : Excerpt) :
    (e.move k).readRegister = e.readRegister.move k id := by
  unfold readRegister
  simp only [text_move, before_move, startingAt_move, isEmpty_move]
  split
  · exact fail_move k id e _
  · split
    · exact fail_move k id (e.before '[') _
    · refine Reading.move_bind (readGroups_move k _ _) fun groups => ?_
      refine Reading.move_bind (splitGroups_move k e groups.1) fun parts => ?_
      refine Reading.move_bind (readRange_move k parts.2) fun range => ?_
      dsimp only [id]
      split
      · exact fail_move k id parts.2 _
      · exact Reading.move_bind (readSuffix_move k groups.2) fun mask => rfl

/-! ### Declarations -/

theorem readSemanticIndex_move (k : Nat) (whole bracket : Excerpt) :
    (whole.move k).readSemanticIndex (bracket.move k) =
      (whole.readSemanticIndex bracket).move k id := by
  unfold readSemanticIndex
  simp only [text_move, isEmpty_move, tail_move, dropLast_move]
  split
  · rfl
  · split
    · refine Reading.move_bind (readNumber_move k bracket.tail.dropLast) fun index => ?_
      dsimp only [id]
      split
      · exact fail_move k id bracket.tail.dropLast _
      · rfl
    · exact fail_move k id whole _

theorem readSemantic_move (k : Nat) (e : Excerpt) :
    (e.move k).readSemantic = e.readSemantic.move k id := by
  unfold readSemantic
  rw [startingAt_move]
  refine Reading.move_bind (readSemanticIndex_move k e _) fun index => ?_
  -- The name stands in the condition through its text, which is not moved.
  change (if isSemanticName (e.before '[').text = true then _ else (e.move k).fail _) = _
  split
  · rfl
  · exact fail_move k id e _

theorem readBinding_move (k : Nat) (file : RegisterFile) (items : List Excerpt) :
    readBinding file (items.map (move k)) =
      (readBinding file items).move k fun parts => (parts.1, parts.2.map (move k)) := by
  cases items with
  | nil => rfl
  | cons item items =>
      rw [List.map_cons, readBinding, readBinding, text_move]
      split
      · exact Reading.move_bind (readSemantic_move k item) fun binding => rfl
      · rfl

end Excerpt

def Property.move (k : Nat) (p : Property) : Property :=
  { p with span := p.span.move k }

def Declaration.move (k : Nat) (d : Declaration) : Declaration :=
  { d with span := d.span.move k }

def Immediate.move (k : Nat) (i : Immediate) : Immediate :=
  { i with span := i.span.move k }

def Instruction.move (k : Nat) (i : Instruction) : Instruction :=
  { i with span := i.span.move k }

def Token.move (k : Nat) : Token → Token
  | property p => .property (p.move k)
  | declaration d => .declaration (d.move k)
  | immediate i => .immediate (i.move k)
  | instruction i => .instruction (i.move k)

namespace Excerpt

theorem readDeclaration_move (k : Nat) (line rest : Excerpt) :
    (line.move k).readDeclaration (rest.move k) =
      (line.readDeclaration rest).move k (Declaration.move k) := by
  unfold readDeclaration
  rw [splitTopLevel_move]
  cases rest.splitTopLevel with
  | nil => exact fail_move k _ line _
  | cons item items =>
      simp only [List.map_cons, isEmpty_move]
      split
      · exact fail_move k _ line _
      · refine Reading.move_bind (readRegister_move k item) fun register => ?_
        dsimp only [id]
        split
        · exact fail_move k _ item _
        · refine Reading.move_bind (readBinding_move k register.file items) fun parts => ?_
          simp only [span_move, List.map_map]
          rfl

/-! ### The other tokens -/

theorem readProperty_move (k : Nat) (line rest : Excerpt) :
    (line.move k).readProperty (rest.move k) =
      (line.readProperty rest).move k (Property.move k) := by
  unfold readProperty
  rw [text_move]
  split
  · rw [span_move]
    rfl
  · exact fail_move k _ line _

theorem readImmediate_move (k : Nat) (line rest : Excerpt) :
    (line.move k).readImmediate (rest.move k) =
      (line.readImmediate rest).move k (Immediate.move k) := by
  unfold readImmediate
  simp only [splitWord_move, text_move]
  split
  · split
    · exact fail_move k _ line _
    · split
      · exact fail_move k _ line _
      · rw [span_move]
        rfl
  · exact fail_move k _ rest.splitWord.1 _

theorem dropLabel_move (k : Nat) (line : Excerpt) :
    (line.move k).dropLabel = line.dropLabel.move k (move k) := by
  unfold dropLabel
  simp only [splitWord_move, text_move]
  split
  · split
    · rfl
    · exact fail_move k _ line.splitWord.1 _
  · rfl

theorem readInstruction_move (k : Nat) (line : Excerpt) :
    (line.move k).readInstruction = line.readInstruction.move k (Instruction.move k) := by
  unfold readInstruction
  refine Reading.move_bind (dropLabel_move k line) fun body => ?_
  simp only [splitWord_move, text_move]
  split
  · rw [span_move]
    rfl
  · exact fail_move k _ line _

/-- A line is read in the same way wherever it stands. -/
theorem readToken_move (k : Nat) (line : Excerpt) :
    (line.move k).readToken = line.readToken.move k (Token.move k) := by
  unfold readToken
  simp only [splitWord_move, text_move]
  split
  · exact Reading.move_map (readProperty_move k line _) fun _ => rfl
  · split
    · exact Reading.move_map (readDeclaration_move k line _) fun _ => rfl
    · split
      · exact Reading.move_map (readImmediate_move k line _) fun _ => rfl
      · exact Reading.move_map (readInstruction_move k line) fun _ => rfl

end Excerpt

/-! ### Lines by themselves -/

/-- The lines of a source, cut at the first semicolon and trimmed, without those that are empty. -/
def contentLines (source : Text) : List Text :=
  ((List.splitOn '\n' source).map fun line => Text.trim (line.takeWhile (· != ';'))).filter
    (! ·.isEmpty)

theorem contentLines_eq (source : Text) :
    contentLines source = (Excerpt.significantLines source).map (·.text) :=
  (Excerpt.map_text_significantLines source).symm

/-- What was read and the faults that were reported, without the places. -/
def saying (x : Reading Token) : Option Token × List Fault :=
  (x.value.map Token.withoutSpan, x.problems.map Problem.fault)

/-- What a line says by itself. -/
def readLine (line : Text) : Option Token × List Fault :=
  saying (Excerpt.readToken ⟨0, line⟩)

theorem Token.withoutSpan_move (k : Nat) (t : Token) : (t.move k).withoutSpan = t.withoutSpan := by
  cases t <;> rfl

theorem saying_move (k : Nat) (x : Reading Token) :
    saying (x.move k (Token.move k)) = saying x := by
  have hfault : Problem.fault ∘ Problem.move k = Problem.fault := rfl
  have htoken : Token.withoutSpan ∘ Token.move k = Token.withoutSpan :=
    funext (Token.withoutSpan_move k)
  simp [saying, Reading.move, hfault, htoken]

/-- Only the text of a line decides what it says. -/
theorem saying_readToken (e : Excerpt) : saying e.readToken = readLine e.text := by
  have hmove : e = Excerpt.move e.start ⟨0, e.text⟩ := rfl
  rw [hmove, Excerpt.readToken_move, saying_move]
  rfl

/-- A line is one token, or it has one fault. -/
theorem readLine_exact (line : Text) :
    (∃ t, readLine line = (some t, [])) ∨ ∃ fault, readLine line = (none, [fault]) := by
  rw [readLine]
  rcases (Excerpt.reads_readToken ⟨0, line⟩).exact with ⟨t, ht⟩ | ⟨p, hp⟩
  · exact .inl ⟨t.withoutSpan, by rw [ht]; rfl⟩
  · exact .inr ⟨p.fault, by rw [hp]; rfl⟩

theorem map_fault_problems (body : List Excerpt) :
    (body.flatMap (·.readToken.problems)).map Problem.fault =
      (body.map (·.text)).flatMap fun line => (readLine line).2 := by
  rw [List.map_flatMap, List.flatMap_map]
  refine List.flatMap_congr fun e _ => ?_
  rw [← saying_readToken]
  rfl

theorem map_withoutSpan_values (body : List Excerpt) :
    (body.filterMap (·.readToken.value)).map Token.withoutSpan =
      (body.map (·.text)).filterMap fun line => (readLine line).1 := by
  rw [List.map_filterMap, List.filterMap_map]
  refine List.filterMap_congr fun e _ => ?_
  rw [Function.comp_apply, ← saying_readToken]
  rfl

theorem flatMap_faults_eq_nil_iff {body : List Text} :
    (body.flatMap fun line => (readLine line).2) = [] ↔
      ∀ line ∈ body, ∃ t, readLine line = (some t, []) := by
  rw [List.flatMap_eq_nil_iff]
  refine forall₂_congr fun line _ => ?_
  rcases readLine_exact line with ⟨t, ht⟩ | ⟨fault, hfault⟩
  · simp [ht]
  · simp [hfault]

/-- Where no line has a fault, no line is left out. -/
theorem map_readLine_of_tokens {body : List Text}
    (h : ∀ line ∈ body, ∃ t, readLine line = (some t, [])) :
    body.map readLine =
      (body.filterMap fun line => (readLine line).1).map fun t => (some t, []) := by
  induction body with
  | nil => rfl
  | cons line body ih =>
      obtain ⟨⟨t, ht⟩, hbody⟩ := List.forall_mem_cons.mp h
      simp only [List.map_cons, ht, List.filterMap_cons, ih hbody]

def Diagnostic.withoutSpan (d : Diagnostic) : Diagnostic :=
  { d with span := .dummy }

namespace Program

/-- The outcome of reading a source, without the places. -/
def outcome : Except (List Diagnostic) Program → Except (List Diagnostic) Program
  | .ok p => .ok p.withoutSpans
  | .error ds => .error (ds.map Diagnostic.withoutSpan)

/-- What the lines of a source say together. -/
def ofLines : List Text → Except (List Diagnostic) Program
  | [] => .error [emptySource]
  | header :: body =>
    match Stage.ofProcessor? header with
    | none => .error [.bare (Fault.headerExpected header).message]
    | some stage =>
      match body.flatMap fun line => (readLine line).2 with
      | [] => .ok (ofTokens stage (body.filterMap fun line => (readLine line).1))
      | faults => .error (faults.map fun fault => .bare fault.message)

theorem outcome_parse (source : Text) : outcome (parse source) = ofLines (contentLines source) := by
  rw [contentLines_eq]
  cases hlines : Excerpt.significantLines source with
  | nil => simp only [parse, hlines, outcome, List.map_nil, ofLines]; rfl
  | cons header body =>
      rw [List.map_cons, ofLines]
      cases hstage : Stage.ofProcessor? header.text with
      | none => simp only [parse, hlines, hstage]; rfl
      | some stage =>
        rw [parse_eq_of_header hlines hstage]
        dsimp only
        rw [← map_fault_problems, ← map_withoutSpan_values, ← ofTokens_withoutSpan]
        cases body.flatMap (·.readToken.problems) with
        | nil => rfl
        | cons p ps =>
          simp only [outcome, List.isEmpty_cons, Bool.false_eq_true, if_false, List.map_map,
            List.map_cons]
          rfl

/-- The loop takes each line as one token, or reports one problem of it and leaves the program as it
is; and the text of the line decides which. -/
theorem readInto_exact (state : Program × List Problem) (line : Excerpt) :
    (∃ t : Token, readInto state line = (state.1.push t, state.2) ∧
      readLine line.text = (some t.withoutSpan, [])) ∨
    ∃ p : Problem, readInto state line = (state.1, state.2 ++ [p]) ∧
      readLine line.text = (none, [p.fault]) := by
  rw [readInto, ← saying_readToken]
  rcases line.reads_readToken.exact with ⟨t, ht⟩ | ⟨p, hp⟩
  · exact .inl ⟨t, by simp [ht], by rw [ht]; rfl⟩
  · exact .inr ⟨p, by simp [hp], by rw [hp]; rfl⟩

theorem tokenCount_ofTokens (stage : Stage) (tokens : List Token) :
    (ofTokens stage tokens).tokenCount = tokens.length := by
  induction tokens with
  | nil => rfl
  | cons t tokens ih =>
      simp only [tokenCount, ofTokens] at ih ⊢
      cases t <;>
        simp only [List.filterMap_cons, Token.property?, Token.declaration?, Token.immediate?,
          Token.instruction?, List.length_cons] <;> omega

theorem tokenCount_withoutSpans (p : Program) : p.withoutSpans.tokenCount = p.tokenCount := by
  simp only [tokenCount, withoutSpans, List.length_map]

/-- A source without lines has one diagnostic. -/
theorem parse_of_no_lines {source : Text} (hlines : contentLines source = []) :
    parse source = .error [emptySource] := by
  rw [contentLines_eq, List.map_eq_nil_iff] at hlines
  rw [parse, hlines]

/-- A source whose first line is no header has one diagnostic, whatever the other lines are. -/
theorem parse_of_no_header {source header : Text} {body : List Text}
    (hlines : contentLines source = header :: body) (hheader : Stage.ofProcessor? header = none) :
    ∃ span, parse source = .error [.error (Fault.headerExpected header).message span] := by
  rw [contentLines_eq] at hlines
  obtain ⟨e, _, hsplit, rfl, -⟩ := List.map_eq_cons_iff.mp hlines
  exact ⟨e.span, by simp only [parse, hsplit, hheader]⟩

/-- A source with a header is read exactly when each line after it is a token; if not, the faults of
the lines that are none are its diagnostics. -/
theorem parse_cases {source header : Text} {body : List Text} {stage : Stage}
    (hlines : contentLines source = header :: body)
    (hheader : Stage.ofProcessor? header = some stage) :
    (∃ p, parse source = .ok p ∧ (∀ line ∈ body, ∃ t, readLine line = (some t, [])) ∧
      p.withoutSpans = ofTokens stage (body.filterMap fun line => (readLine line).1)) ∨
    (∃ ds, parse source = .error ds ∧ (¬ ∀ line ∈ body, ∃ t, readLine line = (some t, [])) ∧
      ds.map Diagnostic.withoutSpan =
        (body.flatMap fun line => (readLine line).2).map fun fault => .bare fault.message) := by
  have houtcome := outcome_parse source
  rw [hlines, ofLines] at houtcome
  simp only [hheader] at houtcome
  rw [← flatMap_faults_eq_nil_iff]
  cases hfaults : body.flatMap fun line => (readLine line).2 with
  | nil =>
      rw [hfaults] at houtcome
      cases hparse : parse source with
      | error ds => rw [hparse] at houtcome; cases houtcome
      | ok p =>
        rw [hparse] at houtcome
        exact .inl ⟨p, rfl, rfl, Except.ok.inj houtcome⟩
  | cons fault faults =>
      rw [hfaults] at houtcome
      cases hparse : parse source with
      | ok p => rw [hparse] at houtcome; cases houtcome
      | error ds =>
        rw [hparse] at houtcome
        exact .inr ⟨ds, rfl, List.cons_ne_nil _ _, Except.error.inj houtcome⟩

/-- A source is read line by line. Without a header there is one diagnostic. After a header each
line is one token or has one fault, by its text alone, and the loop adds the one or the other: if no
line has a fault, the tokens of all of them make the program, in their order, and otherwise the
faults are the diagnostics, in their order. So two sources with the same lines are read as the same,
up to the places. -/
theorem parse_line_by_line (source : Text) :
    (contentLines source = [] → parse source = .error [emptySource]) ∧
    (∀ header body, contentLines source = header :: body → Stage.ofProcessor? header = none →
      ∃ span, parse source = .error [.error (Fault.headerExpected header).message span]) ∧
    (∀ header body stage, contentLines source = header :: body →
      Stage.ofProcessor? header = some stage →
      (∀ line ∈ body, (∃ t, readLine line = (some t, [])) ∨
        ∃ fault, readLine line = (none, [fault])) ∧
      ((∃ p, parse source = .ok p) ↔ ∀ line ∈ body, ∃ t, readLine line = (some t, [])) ∧
      (∀ p, parse source = .ok p → p.tokenCount = (contentLines source).length - 1 ∧
        ∃ tokens : List Token, body.map readLine = (tokens.map fun t => (some t, [])) ∧
          p.withoutSpans = ofTokens stage tokens) ∧
      (∀ ds, parse source = .error ds → ds.map Diagnostic.withoutSpan =
        (body.flatMap fun line => (readLine line).2).map fun fault => .bare fault.message)) ∧
    (∀ (state : Program × List Problem) (line : Excerpt),
      (∃ t : Token, readInto state line = (state.1.push t, state.2) ∧
        readLine line.text = (some t.withoutSpan, [])) ∨
      ∃ p : Problem, readInto state line = (state.1, state.2 ++ [p]) ∧
        readLine line.text = (none, [p.fault])) ∧
    (∀ source', contentLines source' = contentLines source →
      outcome (parse source') = outcome (parse source)) := by
  refine ⟨parse_of_no_lines, fun _ _ => parse_of_no_header, ?_, readInto_exact,
    fun source' hlines => ?_⟩
  · intro header body stage hlines hheader
    refine ⟨fun line _ => readLine_exact line, ?_⟩
    obtain ⟨p, hp, hok, hprogram⟩ | ⟨ds, hds, hfaulty, hdiagnostics⟩ := parse_cases hlines hheader
    · have htokens := map_readLine_of_tokens hok
      refine ⟨iff_of_true ⟨p, hp⟩ hok, fun p' hp' => ?_, fun ds hds => ?_⟩
      · obtain rfl := Except.ok.inj (hp.symm.trans hp')
        refine ⟨?_, _, htokens, hprogram⟩
        have hlength := congrArg List.length htokens
        rw [List.length_map, List.length_map] at hlength
        rw [← tokenCount_withoutSpans, hprogram, tokenCount_ofTokens, hlines, ← hlength]
        rfl
      · rw [hp] at hds
        cases hds
    · refine ⟨iff_of_false ?_ hfaulty, fun p hp => ?_, fun ds' hds' => ?_⟩
      · rintro ⟨p, hp⟩
        rw [hp] at hds
        cases hds
      · rw [hp] at hds
        cases hds
      · obtain rfl := Except.error.inj (hds.symm.trans hds')
        exact hdiagnostics
  · rw [outcome_parse, outcome_parse, hlines]

/-- Two of three lines have faults, and both are reported; without its comment, its empty line and
the blanks around its lines the source has the same outcome. -/
theorem parse_line_by_line_twoFaults :
    contentLines "FRAG ; x\n\nDCL OUT\n  END\r\n 1x: END" = ["FRAG", "DCL OUT", "END", "1x: END"] ∧
    Stage.ofProcessor? "FRAG" = some .fragment ∧
    (∃ ds, parse "FRAG ; x\n\nDCL OUT\n  END\r\n 1x: END" = .error ds ∧
      ds.map Diagnostic.withoutSpan =
        [.bare "expected '[' in register 'OUT'", .bare "invalid instruction label '1x:'"]) ∧
    outcome (parse "FRAG\nDCL OUT\nEND\n1x: END") =
      outcome (parse "FRAG ; x\n\nDCL OUT\n  END\r\n 1x: END") := by
  have hlines : contentLines "FRAG ; x\n\nDCL OUT\n  END\r\n 1x: END" =
      ["FRAG", "DCL OUT", "END", "1x: END"] := by decide +kernel
  have hplain : contentLines "FRAG\nDCL OUT\nEND\n1x: END" =
      ["FRAG", "DCL OUT", "END", "1x: END"] := by decide +kernel
  have herror : ∃ ds, parse "FRAG ; x\n\nDCL OUT\n  END\r\n 1x: END" = .error ds := ⟨_, rfl⟩
  obtain ⟨ds, hds⟩ := herror
  obtain ⟨-, -, hread, -, hsame⟩ := parse_line_by_line "FRAG ; x\n\nDCL OUT\n  END\r\n 1x: END"
  obtain ⟨-, -, -, hfaults⟩ := hread _ _ .fragment hlines rfl
  refine ⟨hlines, rfl, ⟨ds, hds, ?_⟩, hsame _ (hplain.trans hlines.symm)⟩
  rw [hfaults ds hds]
  decide +kernel

end Program

end ShaderBackend
