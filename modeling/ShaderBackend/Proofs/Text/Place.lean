import ShaderBackend.Proofs.Text.Excerpt

/-!
Places in a text, in bytes. A span selects the text between two byte positions, provided that no
character stands across one of them. A piece of an excerpt has its characters inside it, and starts
as many bytes further on as the characters before it take; every operation that takes an excerpt
apart gives such pieces, and a piece of the whole source is what its span selects.
-/

namespace ShaderBackend

namespace Text

/-- A byte position at which no character is cut in two. -/
def IsBoundary (t : Text) (n : Nat) : Prop :=
  ∃ before after : Text, t = before ++ after ∧ n = before.utf8Length

/-- The two sides of a byte position, if it is a boundary. -/
def cutBytes? : Nat → Text → Option (Text × Text)
  | 0, t => some ([], t)
  | _ + 1, [] => none
  | n + 1, c :: rest =>
    if c.utf8Size ≤ n + 1 then
      (cutBytes? (n + 1 - c.utf8Size) rest).map fun (before, after) => (c :: before, after)
    else none

@[simp] theorem utf8Length_eq_zero_iff {t : Text} : t.utf8Length = 0 ↔ t = [] := by
  cases t with
  | nil => simp
  | cons c t =>
      have hpos := c.utf8Size_pos
      simp
      omega

theorem cutBytes?_eq_some_iff {n : Nat} {t before after : Text} :
    cutBytes? n t = some (before, after) ↔ t = before ++ after ∧ n = before.utf8Length := by
  induction t generalizing n before with
  | nil =>
      cases n with
      | zero =>
        simp only [cutBytes?, Option.some.injEq, Prod.mk.injEq, List.nil_eq_append_iff]
        constructor
        · rintro ⟨rfl, rfl⟩
          exact ⟨⟨rfl, rfl⟩, rfl⟩
        · rintro ⟨⟨rfl, rfl⟩, -⟩
          exact ⟨rfl, rfl⟩
      | succ n =>
        simp only [cutBytes?, reduceCtorEq, List.nil_eq_append_iff, false_iff]
        rintro ⟨⟨rfl, -⟩, hlength⟩
        simp at hlength
  | cons c t ih =>
      cases n with
      | zero =>
        simp only [cutBytes?, Option.some.injEq, Prod.mk.injEq, eq_comm (a := 0),
          utf8Length_eq_zero_iff]
        constructor
        · rintro ⟨rfl, rfl⟩
          exact ⟨rfl, rfl⟩
        · rintro ⟨htext, rfl⟩
          exact ⟨rfl, htext⟩
      | succ n =>
        rw [cutBytes?, Option.ite_none_right_eq_some, Option.map_eq_some_iff]
        constructor
        · rintro ⟨hle, ⟨s, rest⟩, hcut, heq⟩
          cases heq
          obtain ⟨rfl, hlength⟩ := ih.mp hcut
          rw [utf8Length_cons]
          exact ⟨rfl, by omega⟩
        · -- The bytes are not used up, so the first character is one of those before the cut.
          rintro ⟨htext, hlength⟩
          cases before with
          | nil => simp at hlength
          | cons d s =>
            cases htext
            rw [utf8Length_cons] at hlength
            refine ⟨by omega, (s, after), ih.mpr ⟨rfl, by omega⟩, rfl⟩

theorem utf8Length_unlines_cons (line : Text) (lines : List Text) :
    (unlines (line :: lines)).utf8Length = line.utf8Length + 1 + (unlines lines).utf8Length := by
  have hfeed : '\n'.utf8Size = 1 := by decide
  simp [unlines, hfeed, Nat.add_assoc]

end Text

namespace Span

/-- The text between the two positions of a span, if both are boundaries of the source. -/
def select? (source : Text) (s : Span) : Option Text :=
  if s.start ≤ s.stop then
    (Text.cutBytes? s.start source).bind fun (_, rest) =>
      (Text.cutBytes? (s.stop - s.start) rest).map fun (selected, _) => selected
  else none

theorem select?_eq_some_iff {source t : Text} {s : Span} :
    s.select? source = some t ↔
      ∃ before after : Text, source = before ++ (t ++ after) ∧
        s = ⟨before.utf8Length, before.utf8Length + t.utf8Length⟩ := by
  rw [select?, Option.ite_none_right_eq_some, Option.bind_eq_some_iff]
  simp only [Option.map_eq_some_iff]
  constructor
  · rintro ⟨hle, ⟨before, rest⟩, hbefore, ⟨selected, after⟩, hselected, rfl⟩
    obtain ⟨rfl, hstart⟩ := Text.cutBytes?_eq_some_iff.mp hbefore
    obtain ⟨rfl, hlength⟩ := Text.cutBytes?_eq_some_iff.mp hselected
    refine ⟨before, after, rfl, ?_⟩
    rw [← hstart, ← hlength, Nat.add_sub_cancel' hle]
  · rintro ⟨before, after, rfl, rfl⟩
    refine ⟨Nat.le_add_right _ _, (before, t ++ after), ?_, (t, after), ?_, rfl⟩
    · exact Text.cutBytes?_eq_some_iff.mpr ⟨rfl, rfl⟩
    · exact Text.cutBytes?_eq_some_iff.mpr ⟨rfl, Nat.add_sub_cancel_left _ _⟩

/-- What a span selects lies between two boundaries of the source. -/
theorem boundaries_of_select? {source t : Text} {s : Span} (h : s.select? source = some t) :
    s.start ≤ s.stop ∧ s.stop ≤ source.utf8Length ∧ source.IsBoundary s.start ∧
      source.IsBoundary s.stop := by
  obtain ⟨before, after, rfl, rfl⟩ := select?_eq_some_iff.mp h
  refine ⟨Nat.le_add_right _ _, by simp, ⟨before, t ++ after, rfl, rfl⟩, ?_⟩
  exact ⟨before ++ t, after, by simp, by simp⟩

end Span

namespace Excerpt

/-- The piece stands in the excerpt, at the byte that it says. -/
def PieceOf (piece e : Excerpt) : Prop :=
  ∃ before after : Text, e.text = before ++ (piece.text ++ after) ∧
    piece.start = e.start + before.utf8Length

namespace PieceOf

theorem refl (e : Excerpt) : e.PieceOf e :=
  ⟨[], [], by simp, by simp⟩

theorem trans {a b c : Excerpt} (hab : a.PieceOf b) (hbc : b.PieceOf c) : a.PieceOf c := by
  obtain ⟨before, after, htext, hstart⟩ := hab
  obtain ⟨before', after', htext', hstart'⟩ := hbc
  refine ⟨before' ++ before, after ++ after', ?_, ?_⟩
  · rw [htext', htext]
    simp
  · rw [hstart, hstart', Text.utf8Length_append, Nat.add_assoc]

theorem start_le {piece e : Excerpt} (h : piece.PieceOf e) : e.span.start ≤ piece.span.start := by
  obtain ⟨before, after, -, hstart⟩ := h
  simp only [span]
  omega

theorem stop_le {piece e : Excerpt} (h : piece.PieceOf e) : piece.span.stop ≤ e.span.stop := by
  obtain ⟨before, after, htext, hstart⟩ := h
  simp only [span, htext, hstart, Text.utf8Length_append]
  omega

/-- A piece of the source is what its span selects. -/
theorem select? {piece : Excerpt} {source : Text} (h : piece.PieceOf ⟨0, source⟩) :
    piece.span.select? source = some piece.text := by
  obtain ⟨before, after, htext, hstart⟩ := h
  refine Span.select?_eq_some_iff.mpr ⟨before, after, htext, ?_⟩
  rw [span, hstart, Nat.zero_add]

end PieceOf

theorem pieceOf_splitWhile_fst (p : Char → Bool) (e : Excerpt) : (e.splitWhile p).1.PieceOf e :=
  ⟨[], e.text.dropWhile p, by simp [splitWhile], by simp [splitWhile]⟩

theorem pieceOf_splitWhile_snd (p : Char → Bool) (e : Excerpt) : (e.splitWhile p).2.PieceOf e :=
  ⟨e.text.takeWhile p, [], by simp [splitWhile], rfl⟩

theorem pieceOf_before (c : Char) (e : Excerpt) : (e.before c).PieceOf e :=
  pieceOf_splitWhile_fst _ e

theorem pieceOf_startingAt (c : Char) (e : Excerpt) : (e.startingAt c).PieceOf e :=
  pieceOf_splitWhile_snd _ e

theorem pieceOf_tail (e : Excerpt) : e.tail.PieceOf e := by
  obtain ⟨start, text⟩ := e
  cases text with
  | nil => exact .refl _
  | cons c text => exact ⟨[c], [], by simp [tail], by simp [tail]⟩

theorem pieceOf_dropLast (e : Excerpt) : e.dropLast.PieceOf e := by
  obtain ⟨rest, hrest⟩ := List.dropLast_prefix e.text
  exact ⟨[], rest, hrest.symm, rfl⟩

theorem pieceOf_trimStart (e : Excerpt) : e.trimStart.PieceOf e :=
  pieceOf_splitWhile_snd _ e

theorem pieceOf_trim (e : Excerpt) : e.trim.PieceOf e := by
  have hend : e.trimEnd.PieceOf e := by
    obtain ⟨blanks, -, htext⟩ := Text.exists_trimEnd_append e.text
    exact ⟨[], blanks, htext, rfl⟩
  exact (pieceOf_trimStart e.trimEnd).trans hend

theorem pieceOf_splitWord_fst (e : Excerpt) : e.splitWord.1.PieceOf e :=
  (pieceOf_splitWhile_fst _ e.trimStart).trans (pieceOf_trimStart e)

theorem pieceOf_splitWord_snd (e : Excerpt) : e.splitWord.2.PieceOf e :=
  (pieceOf_trimStart _).trans ((pieceOf_splitWhile_snd _ e.trimStart).trans (pieceOf_trimStart e))

theorem pieceOf_cutAt? {separator : Text} {e left right : Excerpt}
    (h : e.cutAt? separator = some (left, right)) : left.PieceOf e ∧ right.PieceOf e := by
  obtain ⟨⟨s, t⟩, hcut, hsides⟩ := Option.map_eq_some_iff.mp h
  cases hsides
  have htext := Text.cutAt?_eq_some hcut
  refine ⟨⟨[], separator ++ t, htext, rfl⟩, s ++ separator, [], ?_, ?_⟩
  · rw [htext]
    simp
  · simp [Nat.add_assoc]

/-! ### Parts that stand one byte apart -/

/-- Located parts are pieces of the text that is made of them with a separator of one byte. -/
theorem pieceOf_of_mem_locate (separator : Char) (hseparator : separator.utf8Size = 1)
    {start : Nat} {parts : List Text} {e : Excerpt} (h : e ∈ locate start parts) :
    e.PieceOf ⟨start, List.intercalate [separator] parts⟩ := by
  induction parts generalizing start with
  | nil => cases h
  | cons part parts ih =>
      cases parts with
      | nil =>
        obtain rfl : e = ⟨start, part⟩ := by simpa [locate] using h
        rw [List.intercalate_singleton]
        exact .refl _
      | cons part' parts =>
        rcases List.mem_cons.mp h with rfl | h
        · exact ⟨[], separator :: List.intercalate [separator] (part' :: parts),
            by simp [List.intercalate_cons_cons], rfl⟩
        · refine (ih h).trans ⟨part ++ [separator], [], by simp [List.intercalate_cons_cons], ?_⟩
          simp [hseparator, Nat.add_assoc]

theorem le_start_of_mem_locate {start : Nat} {parts : List Text} {e : Excerpt}
    (h : e ∈ locate start parts) : start ≤ e.start :=
  (pieceOf_of_mem_locate '\n' (by decide) h).start_le

/-- A part starts behind the parts before it and the bytes between them. -/
theorem getElem?_locate (start : Nat) (parts : List Text) (n : Nat) :
    (locate start parts)[n]? = parts[n]?.map fun part =>
      ⟨start + Text.utf8Length (Text.unlines (parts.take n)), part⟩ := by
  induction parts generalizing start n with
  | nil => simp [locate]
  | cons part parts ih =>
      cases n with
      | zero => simp [locate, Text.unlines]
      | succ n => simp [locate, ih, Text.utf8Length_unlines_cons, Nat.add_assoc]

/-- Each part ends before the next one starts. -/
theorem pairwise_locate (start : Nat) (parts : List Text) :
    (locate start parts).Pairwise fun a b => a.span.stop < b.span.start := by
  induction parts generalizing start with
  | nil => exact .nil
  | cons part parts ih =>
      refine List.pairwise_cons.mpr ⟨fun e he => ?_, ih _⟩
      have hle := le_start_of_mem_locate he
      simp only [span]
      omega

end Excerpt

namespace Text

theorem intercalate_modifyHead (separator : Text) (c : Char) {parts : List Text} (h : parts ≠ []) :
    List.intercalate separator (parts.modifyHead (c :: ·)) =
      c :: List.intercalate separator parts := by
  obtain ⟨part, parts, rfl⟩ := List.exists_cons_of_ne_nil h
  cases parts with
  | nil => simp [List.intercalate_singleton]
  | cons part' parts => simp [List.intercalate_cons_cons]

/-- The parts between the commas at depth zero, put together again. -/
theorem intercalate_topLevelParts (depth : Int32) (t : Text) :
    List.intercalate [','] (topLevelParts depth t) = t := by
  induction t generalizing depth with
  | nil => rfl
  | cons c t ih =>
      rw [topLevelParts]
      split
      · rename_i hc
        rw [List.intercalate_cons_of_ne_nil (topLevelParts_ne_nil _ t), ih, hc.1]
        rfl
      · rw [intercalate_modifyHead _ _ (topLevelParts_ne_nil _ t), ih]

end Text

namespace Excerpt

theorem pieceOf_of_mem_splitTopLevel {e item : Excerpt} (h : item ∈ e.splitTopLevel) :
    item.PieceOf e := by
  obtain ⟨part, hpart, rfl⟩ := List.mem_map.mp h
  have hpiece := pieceOf_of_mem_locate ',' (by decide) hpart
  rw [Text.intercalate_topLevelParts] at hpiece
  exact (pieceOf_trim part).trans hpiece

theorem pieceOf_of_mem_lines {source : Text} {line : Excerpt} (h : line ∈ lines source) :
    line.PieceOf ⟨0, source⟩ := by
  have hpiece := pieceOf_of_mem_locate '\n' (by decide) h
  rwa [List.intercalate_splitOn] at hpiece

end Excerpt

end ShaderBackend
