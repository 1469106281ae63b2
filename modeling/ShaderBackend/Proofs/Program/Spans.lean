import ShaderBackend.Proofs.Program.Inside
import ShaderBackend.Proofs.Program.LineByLine

/-!
The spans of a program and of its diagnostics. A line of a source has a number, and its content, the
part without the comment and the blanks around it, has a place that the lines before it and the
blanks in front of it decide. A token of a program has the place of the content of its line, so
tokens come one after the other; a diagnostic lies inside the content of the line that it is about.
-/

namespace ShaderBackend

/-! ### Where the content of a line stands -/

/-- The line with a number. It starts behind the lines before it and their ends. -/
def lineAt (source : Text) (n : Nat) : Excerpt where
  start := Text.utf8Length (Text.unlines ((List.splitOn '\n' source).take n))
  text := (List.splitOn '\n' source).getD n []

/-- A line without its comment and the blanks around it. -/
def contentAt (source : Text) (n : Nat) : Excerpt where
  start := (lineAt source n).start + Text.utf8Length ((lineAt source n).text.takeWhile isBlank)
  text := Text.trim ((lineAt source n).text.takeWhile (· != ';'))

/-- The numbers of the lines that have content. -/
def contentNumbers (source : Text) : List Nat :=
  (List.range (List.splitOn '\n' source).length).filter fun n => ! (contentAt source n).isEmpty

namespace Excerpt

theorem lines_eq (source : Text) :
    lines source = (List.range (List.splitOn '\n' source).length).map (lineAt source) := by
  refine List.ext_getElem? fun n => ?_
  rw [lines, getElem?_locate, List.getElem?_map]
  by_cases hn : n < (List.splitOn '\n' source).length
  · simp [lineAt, hn]
  · rw [List.getElem?_eq_none (by omega), List.getElem?_eq_none (by simpa using hn)]
    rfl

/-- The content starts behind the blanks of the line, as long as there is any. -/
theorem start_significant {e : Excerpt} (h : e.significant.text ≠ []) :
    e.significant.start = e.start + Text.utf8Length (e.text.takeWhile isBlank) := by
  obtain ⟨blanks, -, hblanks⟩ := Text.exists_trimEnd_append (e.text.takeWhile (· != ';'))
  -- Blanks are trimmed from the end first, so that the start is found in a shorter text.
  have htext : e.text = Text.trimEnd (e.text.takeWhile (· != ';')) ++
      (blanks ++ e.text.dropWhile (· != ';')) := by
    rw [← List.append_assoc, ← hblanks, List.takeWhile_append_dropWhile]
  have hstart := Text.takeWhile_append_of_trimStart_ne_nil
    (s := Text.trimEnd (e.text.takeWhile (· != ';'))) h (blanks ++ e.text.dropWhile (· != ';'))
  rw [← htext] at hstart
  rw [hstart]
  rfl

theorem significantLines_eq (source : Text) :
    significantLines source = (contentNumbers source).map (contentAt source) := by
  rw [significantLines, lines_eq, List.map_map, List.filter_map, contentNumbers]
  refine List.map_congr_left fun n hn => ?_
  have hne : ((lineAt source n).significant).text ≠ [] := by
    simpa [isEmpty] using (List.mem_filter.mp hn).2
  exact congrArg (Excerpt.mk · _) (start_significant hne)

theorem pieceOf_significant (e : Excerpt) : e.significant.PieceOf e :=
  (pieceOf_trim _).trans (pieceOf_before ';' e)

end Excerpt

/-- The first span ends before the second one starts. -/
def Span.Precedes (s t : Span) : Prop :=
  s.start ≤ s.stop ∧ s.stop < t.start

theorem pieceOf_contentAt {source : Text} {n : Nat} (hn : n ∈ contentNumbers source) :
    (contentAt source n).PieceOf ⟨0, source⟩ := by
  have hmem : contentAt source n ∈ Excerpt.significantLines source := by
    rw [Excerpt.significantLines_eq]
    exact List.mem_map_of_mem hn
  obtain ⟨line, hline, hcontent⟩ := List.mem_map.mp (List.mem_filter.mp hmem).1
  rw [← hcontent]
  exact line.pieceOf_significant.trans (Excerpt.pieceOf_of_mem_lines hline)

theorem stop_contentAt_pos {source : Text} {n : Nat} (hn : n ∈ contentNumbers source) :
    0 < (contentAt source n).span.stop := by
  have hne : (contentAt source n).text ≠ [] := by
    simpa [Excerpt.isEmpty] using (List.mem_filter.mp hn).2
  have hlength := mt Text.utf8Length_eq_zero_iff.mp hne
  simp only [Excerpt.span]
  omega

/-- The contents of the lines come one after the other. -/
theorem pairwise_contentNumbers (source : Text) :
    ((contentNumbers source).map fun n => (contentAt source n).span).Pairwise Span.Precedes := by
  have hlines : ((Excerpt.significantLines source).map Excerpt.span).Pairwise Span.Precedes := by
    rw [List.pairwise_map]
    refine List.Pairwise.filter _ (List.pairwise_map.mpr ?_)
    refine (Excerpt.pairwise_locate 0 (List.splitOn '\n' source)).imp fun {a b} hab => ?_
    have hstop := a.pieceOf_significant.stop_le
    have hstart := b.pieceOf_significant.start_le
    exact ⟨Nat.le_add_right _ _, by omega⟩
  rwa [Excerpt.significantLines_eq, List.map_map] at hlines

/-! ### Tokens -/

/-- The token is what the line says, at the place of the line's content. -/
structure Token.ReadAt (source : Text) (n : Nat) (t : Token) : Prop where
  reads : readLine (contentAt source n).text = (some t.withoutSpan, [])
  span_eq : t.span = (contentAt source n).span
  selects : t.span.select? source = some (contentAt source n).text
  stop_le : t.span.stop ≤ maxNumber

theorem Token.readAt_of_readToken {source : Text} (hsize : source.utf8Length ≤ maxNumber) {n : Nat}
    {t : Token} (hn : n ∈ contentNumbers source) (h : (contentAt source n).readToken = .ok t) :
    t.ReadAt source n := by
  have hspan := (Excerpt.reads_readToken _).value h
  have hselect := (pieceOf_contentAt hn).select?
  obtain ⟨-, hstop, -⟩ := Span.boundaries_of_select? hselect
  refine ⟨?_, hspan, hspan ▸ hselect, ?_⟩
  · rw [← saying_readToken, h]
    rfl
  · rw [hspan]
    exact hstop.trans hsize

theorem Token.map_span_eq {source : Text} {numbers : List Nat} {tokens : List Token}
    (h : List.Forall₂ (Token.ReadAt source) numbers tokens) :
    tokens.map Token.span = numbers.map fun n => (contentAt source n).span := by
  induction h with
  | nil => rfl
  | cons ht _ ih => rw [List.map_cons, List.map_cons, ht.span_eq, ih]

/-- The spans of the tokens that are picked come in the order of the tokens. -/
theorem Token.pairwise_filterMap {α : Type} {pick : Token → Option α} {span : α → Span}
    (hpick : ∀ t a, pick t = some a → t.span = span a) {tokens : List Token}
    (h : (tokens.map Token.span).Pairwise Span.Precedes) :
    ((tokens.filterMap pick).map span).Pairwise Span.Precedes := by
  rw [List.pairwise_map] at h ⊢
  rw [List.pairwise_filterMap]
  refine h.imp fun {t t'} htt a ha a' ha' => ?_
  rwa [← hpick t a ha, ← hpick t' a' ha']

/-- In each of its lists, every token of the program stands before the next one. -/
structure Program.Ordered (p : Program) : Prop where
  properties : (p.properties.map (·.span)).Pairwise Span.Precedes
  declarations : (p.declarations.map (·.span)).Pairwise Span.Precedes
  immediates : (p.immediates.map (·.span)).Pairwise Span.Precedes
  instructions : (p.instructions.map (·.span)).Pairwise Span.Precedes

theorem Program.ordered_ofTokens {stage : Stage} {tokens : List Token}
    (h : (tokens.map Token.span).Pairwise Span.Precedes) : (ofTokens stage tokens).Ordered where
  properties := Token.pairwise_filterMap (fun t a ha => by cases t <;> cases ha; rfl) h
  declarations := Token.pairwise_filterMap (fun t a ha => by cases t <;> cases ha; rfl) h
  immediates := Token.pairwise_filterMap (fun t a ha => by cases t <;> cases ha; rfl) h
  instructions := Token.pairwise_filterMap (fun t a ha => by cases t <;> cases ha; rfl) h

/-! ### Diagnostics -/

/-- The span has its two ends between characters, inside a line, and points somewhere. -/
structure Span.Within (s : Span) (source : Text) (line : Span) : Prop where
  start_le_stop : s.start ≤ s.stop
  stop_le_source : s.stop ≤ source.utf8Length
  stop_le : s.stop ≤ maxNumber
  start_boundary : source.IsBoundary s.start
  stop_boundary : source.IsBoundary s.stop
  line_start_le : line.start ≤ s.start
  stop_le_line : s.stop ≤ line.stop
  ne_dummy : s ≠ .dummy

theorem Excerpt.PieceOf.within {source : Text} (hsize : source.utf8Length ≤ maxNumber)
    {piece line : Excerpt} (h : piece.PieceOf line) (hline : line.PieceOf ⟨0, source⟩)
    (hstop : 0 < piece.span.stop) : piece.span.Within source line.span := by
  obtain ⟨hle, hsource, hstart, hend⟩ := Span.boundaries_of_select? (h.trans hline).select?
  refine ⟨hle, hsource, hsource.trans hsize, hstart, hend, h.start_le, h.stop_le, fun hdummy => ?_⟩
  rw [hdummy] at hstop
  exact absurd hstop (Nat.lt_irrefl 0)

/-- The faults of the lines of a source, with the numbers of the lines. The first line with content
has to be a header; if it is none, nothing else is looked at. -/
def lineFaults (source : Text) : List (Nat × Fault) :=
  match contentNumbers source with
  | [] => []
  | header :: body =>
    match Stage.ofProcessor? (contentAt source header).text with
    | none => [(header, .headerExpected (contentAt source header).text)]
    | some _ => body.flatMap fun n => (readLine (contentAt source n).text).2.map (n, ·)

/-- The diagnostic of a fault lies inside the content of the line. Nothing is said of the one about
an immediate without a type, for which there is no text to point at. -/
structure Diagnostic.ReportedAt (source : Text) (place : Nat × Fault) (d : Diagnostic) : Prop where
  message_eq : d.message = place.2.message
  within : d.message ≠ "unknown immediate type ''" →
    d.span.Within source (contentAt source place.1).span

theorem Diagnostic.forall₂_reportedAt {source : Text} (hsize : source.utf8Length ≤ maxNumber)
    {numbers : List Nat} (hnumbers : ∀ n ∈ numbers, n ∈ contentNumbers source)
    (hstart : ∀ n ∈ numbers, 0 < (contentAt source n).span.start) :
    List.Forall₂ (Diagnostic.ReportedAt source)
      (numbers.flatMap fun n => (readLine (contentAt source n).text).2.map (n, ·))
      (((numbers.map (contentAt source)).flatMap (·.readToken.problems)).map
        Problem.diagnostic) := by
  induction numbers with
  | nil => exact .nil
  | cons n numbers ih =>
      obtain ⟨hn, hnumbers⟩ := List.forall_mem_cons.mp hnumbers
      obtain ⟨hpos, hstart⟩ := List.forall_mem_cons.mp hstart
      have hreads := (contentAt source n).reads_readToken
      have hsaying := saying_readToken (contentAt source n)
      simp only [List.map_cons, List.flatMap_cons, ← hsaying]
      rcases hreads.exact with ⟨t, ht⟩ | ⟨p, hp⟩
      · rw [ht]
        exact ih hnumbers hstart
      · obtain ⟨piece, hpiece, hspan⟩ := hreads.problem (p := p) (by simp [hp])
        rw [hp]
        refine .cons ⟨rfl, fun _ => ?_⟩ (ih hnumbers hstart)
        -- The piece may be empty, but it does not stand at the first byte.
        have hstop : 0 < piece.span.stop := calc
          0 < (contentAt source n).span.start := hpos
          _ ≤ piece.span.start := hpiece.start_le
          _ ≤ piece.span.stop := Nat.le_add_right _ _
        change p.span.Within source _
        rw [hspan]
        exact hpiece.within hsize (pieceOf_contentAt hn) hstop

namespace Program

/-- After the header, each line with content is a token of the program. -/
theorem exists_tokens_readAt {source : Text} (hsize : source.utf8Length ≤ maxNumber) {p : Program}
    (h : parse source = .ok p) : ∃ tokens, p = ofTokens p.stage tokens ∧
      List.Forall₂ (Token.ReadAt source) (contentNumbers source).tail tokens := by
  obtain ⟨_, _, stage, tokens, hlines, -, htokens, rfl⟩ := parse_eq_ok h
  rw [Excerpt.significantLines_eq] at hlines
  obtain ⟨header, body, hnumbers, rfl, rfl⟩ := List.map_eq_cons_iff.mp hlines
  have hmem : ∀ n ∈ body, n ∈ contentNumbers source := fun n hn =>
    hnumbers ▸ List.mem_cons_of_mem header hn
  have hread : List.Forall₂ (fun n t => (contentAt source n).readToken = .ok t) body tokens := by
    rwa [← List.forall₂_eq_eq_eq, List.map_map, List.forall₂_map_left_iff,
      List.forall₂_map_right_iff] at htokens
  refine ⟨tokens, rfl, ?_⟩
  rw [hnumbers, List.tail_cons]
  exact ((List.forall₂_and_left _ _).mpr ⟨hmem, hread⟩).imp fun n t ht =>
    Token.readAt_of_readToken hsize ht.1 ht.2

/-- Without a program, there is one diagnostic for each fault of a line. -/
theorem reportedAt_of_parse {source : Text} (hsize : source.utf8Length ≤ maxNumber)
    {ds : List Diagnostic} (h : parse source = .error ds) :
    ds = [emptySource] ∨ List.Forall₂ (Diagnostic.ReportedAt source) (lineFaults source) ds := by
  have horder := pairwise_contentNumbers source
  have hlines := Excerpt.significantLines_eq source
  rw [lineFaults]
  cases hnumbers : contentNumbers source with
  | nil =>
      rw [hnumbers] at hlines
      rw [parse, hlines] at h
      cases h
      exact .inl rfl
  | cons header body =>
      have hheader : header ∈ contentNumbers source := hnumbers ▸ List.mem_cons_self
      have hbody : ∀ n ∈ body, n ∈ contentNumbers source := fun n hn =>
        hnumbers ▸ List.mem_cons_of_mem header hn
      rw [hnumbers] at hlines horder
      rw [List.map_cons] at hlines
      right
      dsimp only
      cases hstage : Stage.ofProcessor? (contentAt source header).text with
      | none =>
        simp only [parse, hlines, hstage] at h
        cases h
        refine .cons ⟨rfl, fun _ => ?_⟩ .nil
        exact (Excerpt.PieceOf.refl _).within hsize (pieceOf_contentAt hheader)
          (stop_contentAt_pos hheader)
      | some stage =>
        -- The header ends before the other lines, so that none of them starts at the first byte.
        have hstart : ∀ n ∈ body, 0 < (contentAt source n).span.start := fun n hn =>
          Nat.zero_lt_of_lt ((List.pairwise_cons.mp horder).1 _ (List.mem_map_of_mem hn)).2
        have hreported := Diagnostic.forall₂_reportedAt hsize hbody hstart
        rw [parse_eq_of_header hlines hstage] at h
        dsimp only
        split at h
        · cases h
        · cases h
          exact hreported

/-- The spans of a program are exact, and so are those of the diagnostics of a source that is no
program. After the header each line with content is one token, with the place of this content; the
diagnostics are those of the faults of the lines, in their order, each inside its line. -/
theorem parse_spans_exact (source : Text) (hsize : source.utf8Length ≤ maxNumber) :
    (∀ p, parse source = .ok p → p.Ordered ∧ ∃ tokens, p = ofTokens p.stage tokens ∧
      List.Forall₂ (Token.ReadAt source) (contentNumbers source).tail tokens) ∧
    (∀ ds, parse source = .error ds → ds = [emptySource] ∨
      List.Forall₂ (Diagnostic.ReportedAt source) (lineFaults source) ds) := by
  refine ⟨fun p hp => ?_, fun ds hds => reportedAt_of_parse hsize hds⟩
  obtain ⟨tokens, htokens, hread⟩ := exists_tokens_readAt hsize hp
  refine ⟨?_, tokens, htokens, hread⟩
  rw [htokens]
  apply ordered_ofTokens
  rw [Token.map_span_eq hread, List.map_tail]
  exact (pairwise_contentNumbers source).tail

/-- Behind a comment with a letter of two bytes, a program with two tokens and a source with one
fault, inside its third line. -/
theorem parse_spans_exact_comment :
    (Text.utf8Length "; \u00e9\nFRAG\n DCL OUT[0] ; x\r\n END" ≤ maxNumber ∧
      ∃ p, parse "; \u00e9\nFRAG\n DCL OUT[0] ; x\r\n END" = .ok p ∧ p.Ordered ∧
        ∃ tokens, p = ofTokens p.stage tokens ∧ List.Forall₂
          (Token.ReadAt "; \u00e9\nFRAG\n DCL OUT[0] ; x\r\n END") [2, 3] tokens) ∧
    (Text.utf8Length "; \u00e9\nFRAG\n DCL OUT[0].yx" ≤ maxNumber ∧
      ∃ ds, parse "; \u00e9\nFRAG\n DCL OUT[0].yx" = .error ds ∧ List.Forall₂
        (Diagnostic.ReportedAt "; \u00e9\nFRAG\n DCL OUT[0].yx")
          [(2, .unorderedMask "yx")] ds) := by
  have hsize : Text.utf8Length "; \u00e9\nFRAG\n DCL OUT[0] ; x\r\n END" ≤ maxNumber := by
    decide +kernel
  have hnumbers : (contentNumbers "; \u00e9\nFRAG\n DCL OUT[0] ; x\r\n END").tail = [2, 3] := by
    decide +kernel
  have hsize' : Text.utf8Length "; \u00e9\nFRAG\n DCL OUT[0].yx" ≤ maxNumber := by decide +kernel
  have hfaults : lineFaults "; \u00e9\nFRAG\n DCL OUT[0].yx" = [(2, .unorderedMask "yx")] := by
    decide +kernel
  have hparse : ∃ p, parse "; \u00e9\nFRAG\n DCL OUT[0] ; x\r\n END" = .ok p := ⟨_, rfl⟩
  have hparse' : ∃ ds, parse "; \u00e9\nFRAG\n DCL OUT[0].yx" = .error ds ∧ ds ≠ [emptySource] :=
    ⟨_, rfl, by decide +kernel⟩
  obtain ⟨p, hp⟩ := hparse
  obtain ⟨ds, hds, hne⟩ := hparse'
  refine ⟨⟨hsize, p, hp, ?_⟩, hsize', ds, hds, ?_⟩
  · exact hnumbers ▸ (parse_spans_exact _ hsize).1 p hp
  · exact hfaults ▸ ((parse_spans_exact _ hsize').2 ds hds).resolve_left hne

end Program

end ShaderBackend
