import ShaderBackend.Proofs.Program.Placement
import ShaderBackend.Proofs.Program.Spans

/-!
The place of a header. A program that is wanted for another stage than its own is refused, and the
report has the span that the name of the processor takes at the start of the source. The header is
the content of the first line that has any; it is what the report points at only if nothing stands
in front of it.
-/

namespace ShaderBackend

/-- The name of a processor starts with a character that is content, wherever it stands. -/
theorem Stage.processor_eq_cons (stage : Stage) :
    ∃ c rest, stage.processor = c :: rest ∧ isBlank c = false ∧ c ≠ '\n' ∧ c ≠ ';' := by
  obtain ⟨hline, hne, htrim, -⟩ := stage.processor_spec
  obtain ⟨c, rest, hcons⟩ := List.exists_cons_of_ne_nil hne
  have htrimmed : Text.Trimmed stage.processor := htrim ▸ Text.trimmed_trim stage.processor
  rw [hcons] at htrimmed hline
  exact ⟨c, rest, hcons, htrimmed.head c rfl, hline c List.mem_cons_self⟩

/-- A source that starts with a character of its content has content at its first byte. -/
theorem contentNumbers_of_cons {c : Char} (hblank : isBlank c = false) (hfeed : c ≠ '\n')
    (hcomment : c ≠ ';') (rest : Text) :
    (contentNumbers (c :: rest)).head? = some 0 ∧ (contentAt (c :: rest) 0).start = 0 := by
  obtain ⟨line, lines, hsplit⟩ :
      ∃ line lines, List.splitOn '\n' (c :: rest) = (c :: line) :: lines := by
    obtain ⟨part, parts, hparts⟩ :=
      List.exists_cons_of_ne_nil (List.splitOnP_ne_nil (· == '\n') rest)
    refine ⟨part, parts, ?_⟩
    rw [List.splitOn, List.splitOnP_cons_eq_if_modifyHead, if_neg (by simpa using hfeed), hparts]
    rfl
  have hline : lineAt (c :: rest) 0 = ⟨0, c :: line⟩ := by
    simp [lineAt, hsplit, Text.unlines]
  have hcontent : (contentAt (c :: rest) 0).isEmpty = false := by
    have htake : (c :: line).takeWhile (· != ';') = c :: line.takeWhile (· != ';') := by
      simp [hcomment]
    simp only [contentAt, Excerpt.isEmpty, hline, htake, Text.trim_cons_of_not_blank hblank,
      List.isEmpty_cons]
  constructor
  · rw [contentNumbers, hsplit, List.length_cons, List.range_succ_eq_map,
      List.filter_cons_of_pos (by simp [hcontent]), List.head?_cons]
  · simp [contentAt, hline, hblank]

namespace Program

/-- The header of a program is the content of the first line that has any. -/
theorem exists_header_of_parse {source : Text} {p : Program} (h : parse source = .ok p) :
    ∃ n, (contentNumbers source).head? = some n ∧
      (contentAt source n).text = p.stage.processor := by
  obtain ⟨_, _, stage, tokens, hlines, hstage, -, rfl⟩ := parse_eq_ok h
  rw [Excerpt.significantLines_eq] at hlines
  obtain ⟨n, body, hnumbers, rfl, -⟩ := List.map_eq_cons_iff.mp hlines
  refine ⟨n, by rw [hnumbers, List.head?_cons], ?_⟩
  have hname : stage.processor = (contentAt source n).text := by
    simpa using List.find?_some hstage
  exact hname.symm

theorem ofSource_of_mismatch {source : Text} {stage : Stage} {p : Program}
    (hparse : parse source = .ok p) (hstage : p.stage ≠ stage) :
    ∃ ds, ofSource source stage = .error (p.stageMismatch stage :: ds) := by
  refine ⟨p.declarationErrors stage ++ if p.instructions.isEmpty then [noInstructions] else [], ?_⟩
  simp only [ofSource, hparse, errors, if_neg hstage, List.cons_append, List.nil_append]

end Program

/-- The span of the keyword at the start of a source selects the keyword exactly when the header
stands there. -/
theorem select?_header_iff {source : Text} {stage : Stage} {n : Nat}
    (hn : (contentNumbers source).head? = some n)
    (htext : (contentAt source n).text = stage.processor) :
    Span.select? source ⟨0, stage.processor.utf8Length⟩ = some stage.processor ↔
      (contentAt source n).start = 0 := by
  constructor
  · intro hselect
    obtain ⟨before, after, hsource, hspan⟩ := Span.select?_eq_some_iff.mp hselect
    obtain ⟨c, rest, hcons, hblank, hfeed, hcomment⟩ := stage.processor_eq_cons
    -- The span starts at the first byte, so the source starts with the keyword.
    obtain rfl : before = [] := Text.utf8Length_eq_zero_iff.mp (congrArg Span.start hspan).symm
    rw [hcons] at hsource
    obtain rfl : source = c :: (rest ++ after) := hsource
    obtain ⟨hfirst, hstart⟩ := contentNumbers_of_cons hblank hfeed hcomment (rest ++ after)
    obtain rfl : 0 = n := Option.some.inj (hfirst.symm.trans hn)
    exact hstart
  · intro hstart
    have hselect := (pieceOf_contentAt (List.mem_of_mem_head? hn)).select?
    rwa [Excerpt.span, hstart, Nat.zero_add, htext] at hselect

/-- A program is refused for any stage but its own. The first diagnostic has the span that the
keyword of the header takes at the start of the source, and selects the keyword exactly when the
header, the content of the first line that has any, starts there. -/
theorem FrontEnd.compile_mismatch_span (f : FrontEnd) (source : Text) (stage : Stage) (p : Program)
    (hparse : Program.parse source = .ok p) (hstage : p.stage ≠ stage) :
    ∃ d ds n, (f.compile source stage).1 = .error (d :: ds) ∧ d = p.stageMismatch stage ∧
      d.span = ⟨0, p.stage.processor.utf8Length⟩ ∧
      (contentNumbers source).head? = some n ∧
      (contentAt source n).span.select? source = some p.stage.processor ∧
      (d.span.select? source = some p.stage.processor ↔ (contentAt source n).start = 0) := by
  obtain ⟨n, hn, htext⟩ := Program.exists_header_of_parse hparse
  obtain ⟨ds, hds⟩ := Program.ofSource_of_mismatch hparse hstage
  refine ⟨p.stageMismatch stage, ds, n, ?_, rfl, rfl, hn, ?_, select?_header_iff hn htext⟩
  · rw [f.compile_fst, hds]
  · rw [← htext]
    exact (pieceOf_contentAt (List.mem_of_mem_head? hn)).select?

/-- With the header at its start, a source is refused at its header. -/
theorem FrontEnd.compile_mismatch_span_headerFirst :
    ∃ p d ds, Program.parse "FRAG ; x\n0: END" = .ok p ∧ p.stage ≠ .vertex ∧
      (FrontEnd.compile {} "FRAG ; x\n0: END" .vertex).1 = .error (d :: ds) ∧
      d.span.select? "FRAG ; x\n0: END" = some p.stage.processor := by
  have hparse : ∃ p, Program.parse "FRAG ; x\n0: END" = .ok p ∧ p.stage ≠ .vertex :=
    ⟨_, rfl, by decide⟩
  have hfirst : (contentNumbers "FRAG ; x\n0: END").head? = some 0 := by decide +kernel
  obtain ⟨p, hp, hstage⟩ := hparse
  obtain ⟨d, ds, n, hds, -, -, hn, -, hiff⟩ :=
    FrontEnd.compile_mismatch_span {} "FRAG ; x\n0: END" .vertex p hp hstage
  obtain rfl : 0 = n := Option.some.inj (hfirst.symm.trans hn)
  exact ⟨p, d, ds, hp, hstage, hds, hiff.mpr (by decide +kernel)⟩

/-- Behind a comment the header is elsewhere, and the span of the report selects no text at all: it
ends inside a letter of two bytes. -/
theorem FrontEnd.compile_mismatch_span_behindComment :
    ∃ p d ds, Program.parse "; a\u00e9\nFRAG\n0: END" = .ok p ∧ p.stage ≠ .vertex ∧
      (FrontEnd.compile {} "; a\u00e9\nFRAG\n0: END" .vertex).1 = .error (d :: ds) ∧
      Span.select? "; a\u00e9\nFRAG\n0: END" ⟨6, 10⟩ = some p.stage.processor ∧
      d.span = ⟨0, 4⟩ ∧ d.span.select? "; a\u00e9\nFRAG\n0: END" = none :=
  ⟨_, _, _, rfl, by decide, rfl, by decide +kernel, rfl, by decide +kernel⟩

end ShaderBackend
