import ShaderBackend.Proofs.Text.Place

/-!
Lists that are cut and put together again. Which commas separate the items of a text is said by the
text before each of them alone: those before which as many brackets are closed as opened. The items,
put together with a comma and a space, are cut into the same items, and only blanks are lost between
the text and its items.
-/

namespace ShaderBackend.Text

/-! ### Blanks that do not count -/

/-- The characters of a text that are not blank. -/
def withoutBlanks (t : Text) : Text :=
  t.filter (! isBlank ·)

theorem withoutBlanks_append (s t : Text) :
    withoutBlanks (s ++ t) = withoutBlanks s ++ withoutBlanks t :=
  List.filter_append s t

theorem withoutBlanks_blank {b : Text} (hb : ∀ c ∈ b, isBlank c = true) : withoutBlanks b = [] := by
  rw [withoutBlanks, List.filter_eq_nil_iff]
  intro c hc
  simp [hb c hc]

theorem withoutBlanks_trim (t : Text) : withoutBlanks (trim t) = withoutBlanks t := by
  obtain ⟨b, b', hb, hb', ht⟩ := exists_trim t
  conv => rhs; rw [ht]
  rw [withoutBlanks_append, withoutBlanks_append, withoutBlanks_blank hb, withoutBlanks_blank hb',
    List.nil_append, List.append_nil]

theorem withoutBlanks_intercalate (separator : Text) (parts : List Text) :
    withoutBlanks (List.intercalate separator parts) =
      List.intercalate (withoutBlanks separator) (parts.map withoutBlanks) := by
  induction parts with
  | nil => rfl
  | cons part parts ih =>
      cases parts with
      | nil => simp [List.intercalate_singleton]
      | cons part' parts =>
        rw [List.intercalate_cons_cons, withoutBlanks_append, withoutBlanks_append, ih,
          List.map_cons, List.map_cons, List.map_cons, List.intercalate_cons_cons]

/-- The items have all characters of the text but its blanks. -/
theorem withoutBlanks_intercalate_splitTopLevel (t : Text) :
    withoutBlanks (List.intercalate "," (splitTopLevel t)) = withoutBlanks t := by
  have hparts : (splitTopLevel t).map withoutBlanks = (topLevelParts 0 t).map withoutBlanks := by
    rw [splitTopLevel, List.map_map]
    exact List.map_congr_left fun part _ => withoutBlanks_trim part
  calc
    withoutBlanks (List.intercalate "," (splitTopLevel t))
      = List.intercalate (withoutBlanks ",") ((splitTopLevel t).map withoutBlanks) :=
        withoutBlanks_intercalate _ _
    _ = withoutBlanks (List.intercalate "," (topLevelParts 0 t)) := by
        rw [hparts, withoutBlanks_intercalate]
    _ = withoutBlanks t := congrArg withoutBlanks (intercalate_topLevelParts 0 t)

/-! ### Commas that separate -/

theorem commaFree_of_forall_depth_ne {d : Int32} {t : Text}
    (h : ∀ before after, t = before ++ ',' :: after → d + depth before ≠ 0) : CommaFree d t := by
  induction t generalizing d with
  | nil => trivial
  | cons c t ih =>
      refine ⟨?_, ih fun before after ht => ?_⟩
      · rintro ⟨rfl, rfl⟩
        exact h [] t rfl rfl
      · have hne := h (c :: before) after (by rw [ht]; rfl)
        rwa [depth_cons, ← Int32.add_assoc] at hne

/-- Behind a comma that separates, the items are those of the rest alone. -/
theorem splitTopLevel_append {s : Text} (hs : depth s = 0) (t : Text) :
    splitTopLevel (s ++ ',' :: t) = splitTopLevel s ++ splitTopLevel t := by
  have hd : 0 + depth s = 0 := by rw [hs]; rfl
  rw [splitTopLevel, topLevelParts_append hd, List.map_append, splitTopLevel, splitTopLevel]

theorem splitTopLevel_of_forall_depth_ne {t : Text}
    (h : ∀ before after, t = before ++ ',' :: after → depth before ≠ 0) :
    splitTopLevel t = [trim t] := by
  have hfree : CommaFree 0 t := commaFree_of_forall_depth_ne fun before after ht => by
    rw [Int32.zero_add]
    exact h before after ht
  rw [splitTopLevel, topLevelParts_of_commaFree hfree, List.map_singleton]

/-- A text has at least one item, and its items have no blank at either end. Put together with a
comma and a space they are cut into the same items, and put together with commas they have the
characters of the text but its blanks. A comma separates exactly if the depth before it is zero,
whatever brackets stand there; and every item is found at its bytes in the text. -/
theorem splitTopLevel_rejoined (t : Text) :
    splitTopLevel t ≠ [] ∧ (∀ item ∈ splitTopLevel t, Trimmed item) ∧
      splitTopLevel (List.intercalate ", " (splitTopLevel t)) = splitTopLevel t ∧
      withoutBlanks (List.intercalate "," (splitTopLevel t)) = withoutBlanks t ∧
      (∀ before after, t = before ++ ',' :: after → depth before = 0 →
        splitTopLevel t = splitTopLevel before ++ splitTopLevel after) ∧
      ((∀ before after, t = before ++ ',' :: after → depth before ≠ 0) →
        splitTopLevel t = [trim t]) ∧
      ∀ start, ((⟨start, t⟩ : Excerpt).splitTopLevel.map (·.text) = splitTopLevel t) ∧
        ∀ item ∈ (⟨start, t⟩ : Excerpt).splitTopLevel, item.PieceOf ⟨start, t⟩ := by
  have hitems := items_splitTopLevel t
  have htrimmed : ∀ item ∈ splitTopLevel t, Trimmed item :=
    fun item => trimmed_of_mem_splitTopLevel
  refine ⟨hitems.ne_nil, htrimmed, splitTopLevel_intercalate hitems htrimmed,
    withoutBlanks_intercalate_splitTopLevel t, ?_, splitTopLevel_of_forall_depth_ne,
    fun start => ?_⟩
  · rintro before after rfl hdepth
    exact splitTopLevel_append hdepth after
  · exact ⟨Excerpt.map_text_splitTopLevel _,
      fun item => Excerpt.pieceOf_of_mem_splitTopLevel⟩

/-- A bracket that is closed before it is opened, one that is never closed, and blanks of more than
one byte. -/
def crossedBrackets : Text := "]ä,b[\u3000, (c ,d"

theorem splitTopLevel_rejoined_crossedBrackets :
    splitTopLevel crossedBrackets = ["]ä,b[", "(c ,d"] ∧
      splitTopLevel "]ä,b[, (c ,d" = ["]ä,b[", "(c ,d"] ∧
      withoutBlanks crossedBrackets = "]ä,b[,(c,d" := by
  obtain ⟨-, -, hagain, hblanks, hseparates, -, -⟩ := splitTopLevel_rejoined crossedBrackets
  have hbefore : splitTopLevel "]ä,b[\u3000" = ["]ä,b["] := by decide +kernel
  have hafter : splitTopLevel " (c ,d" = ["(c ,d"] := by decide +kernel
  have hitems : splitTopLevel crossedBrackets = ["]ä,b[", "(c ,d"] := by
    rw [hseparates "]ä,b[\u3000" " (c ,d" (by decide +kernel) (by decide +kernel), hbefore, hafter]
    rfl
  rw [hitems] at hagain hblanks
  exact ⟨hitems, hagain, hblanks.symm⟩

end ShaderBackend.Text
