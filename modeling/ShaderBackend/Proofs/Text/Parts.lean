import ShaderBackend.Proofs.Text.Blank
import ShaderBackend.Text.TopLevel

/-!
Cutting a text into parts undoes putting the parts together. For each of the three ways in which a
program is cut (lines at line feeds, words at blanks, list items at the commas outside brackets)
the parts that come out are described, and parts of that description are found again in the text
that is made of them.
-/

namespace ShaderBackend.Text

/-! ### Parts between separators -/

/-- No part holds a separator, and every part comes from the text. -/
theorem mem_splitOnP {p : Char → Bool} {t part : Text} (h : part ∈ t.splitOnP p) :
    (∀ c ∈ part, p c = false) ∧ part ⊆ t := by
  induction t generalizing part with
  | nil =>
      simp only [List.splitOnP_nil, List.mem_singleton] at h
      simp [h]
  | cons c t ih =>
      rw [List.splitOnP_cons_eq_if_modifyHead] at h
      split at h
      · rcases List.mem_cons.mp h with rfl | h
        · simp
        · exact ⟨(ih h).1, fun d hd => List.mem_cons_of_mem c ((ih h).2 hd)⟩
      · rename_i hc
        cases hparts : t.splitOnP p with
        | nil => exact absurd hparts (List.splitOnP_ne_nil p t)
        | cons first parts =>
          rw [hparts] at h
          rcases List.mem_cons.mp h with rfl | h
          · have hfirst : (∀ c ∈ first, p c = false) ∧ first ⊆ t := ih (by simp [hparts])
            refine ⟨fun d hd => ?_, fun d hd => ?_⟩
            · rcases List.mem_cons.mp hd with rfl | hd
              · simpa using hc
              · exact hfirst.1 d hd
            · rcases List.mem_cons.mp hd with rfl | hd
              · simp
              · exact List.mem_cons_of_mem c (hfirst.2 hd)
          · have hpart : (∀ c ∈ part, p c = false) ∧ part ⊆ t := ih (by simp [hparts, h])
            exact ⟨hpart.1, fun d hd => List.mem_cons_of_mem c (hpart.2 hd)⟩

/-- The lines of a text come back from it, with an empty one after the last line feed. -/
theorem splitOn_unlines {lines : List Text} (h : ∀ line ∈ lines, '\n' ∉ line) :
    List.splitOn '\n' (unlines lines) = lines ++ [[]] := by
  induction lines with
  | nil => rfl
  | cons line lines ih =>
      have hlines : ∀ l ∈ lines, '\n' ∉ l := fun l hl => h l (by simp [hl])
      rw [unlines, List.flatMap_cons, List.append_assoc, List.singleton_append,
        List.splitOn_append_cons_self_of_not_mem (h line (by simp)), List.cons_append]
      exact congrArg (line :: ·) (ih hlines)

/-- What stands before the first occurrence of a character, and what stands after it, are the text's
own. -/
theorem eq_of_append_cons_eq {c : Char} {s s' t t' : Text} (hs : c ∉ s) (hs' : c ∉ s')
    (h : s ++ c :: t = s' ++ c :: t') : s = s' ∧ t = t' := by
  have hp : ∀ {s : Text}, c ∉ s → ∀ d ∈ s, (d != c) = true := by
    intro s hs d hd
    rw [bne_iff_ne]
    rintro rfl
    exact hs hd
  have htake := congrArg (List.takeWhile (· != c)) h
  rw [List.takeWhile_append_of_pos (hp hs), List.takeWhile_append_of_pos (hp hs')] at htake
  obtain rfl : s = s' := by simpa using htake
  exact ⟨rfl, by simpa using h⟩

/-- A cut at a text leaves what stands before and after it. -/
theorem cutAt?_eq_some {separator t left right : Text}
    (h : cutAt? separator t = some (left, right)) : t = left ++ (separator ++ right) := by
  induction t generalizing left with
  | nil => cases h
  | cons c t ih =>
      rw [cutAt?] at h
      split at h
      · rename_i after hafter
        cases h
        exact (List.isPrefixOf?_eq_some_iff_append_eq.mp hafter).symm
      · obtain ⟨⟨before, after⟩, hcut, heq⟩ := Option.map_eq_some_iff.mp h
        cases heq
        rw [ih hcut]
        rfl

/-- Lines up to a marker, and what follows it, are the text's own. -/
theorem eq_of_unlines_append_eq {marker t t' : Text} {lines lines' : List Text}
    (hmarker : '\n' ∉ marker) (hlines : ∀ line ∈ lines, '\n' ∉ line ∧ line ≠ marker)
    (hlines' : ∀ line ∈ lines', '\n' ∉ line ∧ line ≠ marker)
    (h : unlines (lines ++ [marker]) ++ t = unlines (lines' ++ [marker]) ++ t') :
    lines = lines' ∧ t = t' := by
  -- The first lines agree. If one of them is the marker, so is the other, as no line equals it.
  have hcons : ∀ line lines (t : Text),
      unlines (line :: lines) ++ t = line ++ '\n' :: (unlines lines ++ t) := by
    intro line lines t
    simp [unlines]
  induction lines generalizing lines' with
  | nil =>
      cases lines' with
      | nil =>
        rw [List.nil_append, hcons, hcons] at h
        exact ⟨rfl, (eq_of_append_cons_eq hmarker hmarker h).2⟩
      | cons line' lines' =>
        obtain ⟨hline', hne⟩ := hlines' line' (by simp)
        rw [List.nil_append, List.cons_append, hcons, hcons] at h
        exact absurd (eq_of_append_cons_eq hmarker hline' h).1.symm hne
  | cons line lines ih =>
      obtain ⟨hline, hne⟩ := hlines line (by simp)
      cases lines' with
      | nil =>
        rw [List.nil_append, List.cons_append, hcons, hcons] at h
        exact absurd (eq_of_append_cons_eq hline hmarker h).1 hne
      | cons line' lines' =>
        rw [List.cons_append, List.cons_append, hcons, hcons] at h
        obtain ⟨rfl, hrest⟩ := eq_of_append_cons_eq hline (hlines' line' (by simp)).1 h
        obtain ⟨rfl, rfl⟩ := ih (fun l hl => hlines l (by simp [hl]))
          (fun l hl => hlines' l (by simp [hl])) hrest
        exact ⟨rfl, rfl⟩

theorem cut?_append {c : Char} {s : Text} (hs : c ∉ s) (t : Text) :
    cut? c (s ++ c :: t) = some (s, t) := by
  induction s with
  | nil => simp [cut?]
  | cons d s ih =>
      obtain ⟨hd, hs⟩ : c ≠ d ∧ c ∉ s := by simpa using hs
      rw [List.cons_append, cut?, ih hs]
      simp [Ne.symm hd]

/-! ### Words -/

theorem words_append {c : Char} (hc : isBlank c = true) (s t : Text) :
    words (s ++ c :: t) = words s ++ words t := by
  rw [words, List.splitOnP_append_cons s t hc, List.filter_append, words, words]

theorem words_of_forall_not {t : Text} (hne : t ≠ []) (h : ∀ c ∈ t, isBlank c = false) :
    words t = [t] := by
  rw [words, List.splitOnP_eq_singleton h]
  simp [hne]

theorem words_pair {s t : Text} (hs : s ≠ []) (ht : t ≠ []) (hsb : ∀ c ∈ s, isBlank c = false)
    (htb : ∀ c ∈ t, isBlank c = false) : words (s ++ ' ' :: t) = [s, t] := by
  rw [words_append (by decide), words_of_forall_not hs hsb, words_of_forall_not ht htb]
  rfl

/-- A word is not empty, holds no blank and comes from the text. -/
theorem mem_words {t word : Text} (h : word ∈ words t) :
    word ≠ [] ∧ (∀ c ∈ word, isBlank c = false) ∧ word ⊆ t := by
  obtain ⟨hmem, hne⟩ := List.mem_filter.mp h
  exact ⟨by simpa using hne, mem_splitOnP hmem⟩

theorem words_cons_of_blank {c : Char} (hc : isBlank c = true) (t : Text) :
    words (c :: t) = words t :=
  words_append hc [] t

theorem words_trimStart (t : Text) : words (trimStart t) = words t := by
  induction t with
  | nil => rfl
  | cons c t ih =>
      by_cases hc : isBlank c = true
      · rw [trimStart_cons_of_blank hc, words_cons_of_blank hc, ih]
      · rw [trimStart_of_head (by simpa using hc)]

theorem words_append_blank (t : Text) {b : Text} (hb : ∀ c ∈ b, isBlank c = true) :
    words (t ++ b) = words t := by
  induction b generalizing t with
  | nil => rw [List.append_nil]
  | cons c b ih =>
      have hnone : words b = [] := ih [] fun d hd => hb d (by simp [hd])
      rw [words_append (hb c (by simp)), hnone, List.append_nil]

theorem words_trimEnd (t : Text) : words (trimEnd t) = words t := by
  obtain ⟨b, hb, ht⟩ := exists_trimEnd_append t
  conv => rhs; rw [ht]
  rw [words_append_blank _ hb]

/-! ### Items between commas outside brackets -/

/-- The nesting depth after a text that starts at depth zero. -/
def depth : Text → Int32
  | [] => 0
  | c :: rest => nesting c + depth rest

@[simp] theorem depth_nil : depth [] = 0 := rfl

@[simp] theorem depth_cons (c : Char) (t : Text) : depth (c :: t) = nesting c + depth t := rfl

@[simp] theorem depth_append (s t : Text) : depth (s ++ t) = depth s + depth t := by
  induction s with
  | nil => simp
  | cons c s ih => rw [List.cons_append, depth_cons, depth_cons, ih, Int32.add_assoc]

/-- From a given depth on, no comma stands at depth zero. -/
def CommaFree (d : Int32) : Text → Prop
  | [] => True
  | c :: rest => ¬ (c = ',' ∧ d = 0) ∧ CommaFree (d + nesting c) rest

theorem commaFree_append {d : Int32} {s t : Text} :
    CommaFree d (s ++ t) ↔ CommaFree d s ∧ CommaFree (d + depth s) t := by
  induction s generalizing d with
  | nil => simp [CommaFree]
  | cons c s ih =>
      rw [List.cons_append, CommaFree, ih, CommaFree, depth_cons, and_assoc, Int32.add_assoc]

theorem commaFree_of_not_mem {d : Int32} {t : Text} (h : ',' ∉ t) : CommaFree d t := by
  induction t generalizing d with
  | nil => trivial
  | cons c t ih =>
      refine ⟨?_, ih fun ht => h (by simp [ht])⟩
      rintro ⟨rfl, -⟩
      simp at h

theorem depth_of_plain {t : Text} (h : ∀ c ∈ t, nesting c = 0) : depth t = 0 := by
  induction t with
  | nil => rfl
  | cons c t ih => rw [depth_cons, h c (by simp), ih fun d hd => h d (by simp [hd])]; rfl

/-- A class of characters without brackets does not change the depth. -/
theorem nesting_of_class {p : Char → Bool}
    (hp : ∀ d ∈ ['[', '(', '\x7b', ']', ')', '\x7d'], p d = false) {c : Char} (hc : p c = true) :
    nesting c = 0 := by
  have hne : ∀ d ∈ ['[', '(', '\x7b', ']', ')', '\x7d'], c ≠ d :=
    fun d hd => ne_of_class hc (hp d hd)
  simp only [List.forall_mem_cons] at hne
  simp [nesting, hne]

theorem plain_of_blank {c : Char} (h : isBlank c = true) : c ≠ ',' ∧ nesting c = 0 :=
  ⟨ne_of_class h (by decide), nesting_of_class (by decide) h⟩

theorem commaFree_blank {d : Int32} {b : Text} (hb : ∀ c ∈ b, isBlank c = true) : CommaFree d b :=
  commaFree_of_not_mem fun h => (plain_of_blank (hb _ h)).1 rfl

theorem depth_blank {b : Text} (hb : ∀ c ∈ b, isBlank c = true) : depth b = 0 :=
  depth_of_plain fun c hc => (plain_of_blank (hb c hc)).2

theorem topLevelParts_ne_nil (d : Int32) (t : Text) : topLevelParts d t ≠ [] := by
  induction t generalizing d with
  | nil => simp [topLevelParts]
  | cons c t ih =>
      rw [topLevelParts]
      split
      · simp
      · rw [Ne, List.modifyHead_eq_nil_iff]
        exact ih _

theorem modifyHead_append (f : Text → Text) {parts : List Text} (h : parts ≠ [])
    (more : List Text) : (parts ++ more).modifyHead f = parts.modifyHead f ++ more := by
  obtain ⟨part, parts, rfl⟩ := List.exists_cons_of_ne_nil h
  rfl

theorem topLevelParts_of_commaFree {d : Int32} {t : Text} (h : CommaFree d t) :
    topLevelParts d t = [t] := by
  induction t generalizing d with
  | nil => rfl
  | cons c t ih =>
      rw [topLevelParts, if_neg h.1, ih h.2]
      rfl

/-- A comma at depth zero parts what stands before it from what stands after it. -/
theorem topLevelParts_append {d : Int32} {s : Text} (hd : d + depth s = 0) (t : Text) :
    topLevelParts d (s ++ ',' :: t) = topLevelParts d s ++ topLevelParts 0 t := by
  induction s generalizing d with
  | nil =>
      obtain rfl : d = 0 := by simpa using hd
      simp [topLevelParts]
  | cons c s ih =>
      have hd' : d + nesting c + depth s = 0 := by rw [← hd, depth_cons, Int32.add_assoc]
      rw [List.cons_append, topLevelParts, topLevelParts]
      split
      · rename_i hc
        have hcomma : nesting c = 0 := by rw [hc.1]; rfl
        rw [hcomma, Int32.add_zero] at hd'
        rw [ih hd', List.cons_append]
      · rw [ih hd', modifyHead_append _ (topLevelParts_ne_nil _ s)]

theorem topLevelParts_append_comma {d : Int32} {s : Text} (hs : CommaFree d s)
    (hd : d + depth s = 0) (t : Text) :
    topLevelParts d (s ++ ',' :: t) = s :: topLevelParts 0 t := by
  rw [topLevelParts_append hd, topLevelParts_of_commaFree hs]
  rfl

/-- The items of a list: none has a comma outside brackets, and only the last one can leave a
bracket open, or close one that was never opened. -/
inductive Items : List Text → Prop
  | last (t : Text) (h : CommaFree 0 t) : Items [t]
  | cons (t : Text) (ts : List Text) (h : CommaFree 0 t) (hd : depth t = 0) (hts : Items ts) :
      Items (t :: ts)

theorem Items.ne_nil {ts : List Text} (h : Items ts) : ts ≠ [] := by
  cases h with
  | last => simp
  | cons => simp

theorem Items.tail {t : Text} {ts : List Text} (h : Items (t :: ts)) : ts = [] ∨ Items ts := by
  cases h with
  | last => exact .inl rfl
  | cons _ _ _ _ hts => exact .inr hts

/-- What a cut from any depth on gives: a first part that starts at that depth, and items. -/
theorem exists_topLevelParts (d : Int32) (t : Text) :
    ∃ part parts, topLevelParts d t = part :: parts ∧ CommaFree d part ∧
      (parts = [] ∨ d + depth part = 0 ∧ Items parts) := by
  induction t generalizing d with
  | nil => exact ⟨[], [], rfl, trivial, .inl rfl⟩
  | cons c t ih =>
      rw [topLevelParts]
      split
      · rename_i hc
        obtain ⟨part, parts, heq, hpart, hparts⟩ := ih 0
        refine ⟨[], topLevelParts d t, rfl, trivial, .inr ⟨by simp [hc.2], ?_⟩⟩
        rw [hc.2, heq]
        rcases hparts with rfl | ⟨hdepth, hitems⟩
        · exact .last part hpart
        · exact .cons part parts hpart (by simpa using hdepth) hitems
      · rename_i hc
        -- Behind a bracket the rest is cut at another depth, so the induction is over every depth.
        obtain ⟨part, parts, heq, hpart, hparts⟩ := ih (d + nesting c)
        refine ⟨c :: part, parts, by rw [heq]; rfl, ⟨hc, hpart⟩, ?_⟩
        rcases hparts with rfl | ⟨hdepth, hitems⟩
        · exact .inl rfl
        · exact .inr ⟨by rw [← hdepth, depth_cons, Int32.add_assoc], hitems⟩

theorem items_topLevelParts (t : Text) : Items (topLevelParts 0 t) := by
  obtain ⟨part, parts, heq, hpart, hparts⟩ := exists_topLevelParts 0 t
  rw [heq]
  rcases hparts with rfl | ⟨hdepth, hitems⟩
  · exact .last part hpart
  · exact .cons part parts hpart (by simpa using hdepth) hitems

/-- A text is blanks, its trimmed form and blanks. -/
theorem exists_trim (t : Text) :
    ∃ b b' : Text, (∀ c ∈ b, isBlank c = true) ∧ (∀ c ∈ b', isBlank c = true) ∧
      t = b ++ trim t ++ b' := by
  obtain ⟨b', hb', ht⟩ := exists_trimEnd_append t
  refine ⟨(trimEnd t).takeWhile isBlank, b', fun c hc => List.mem_takeWhile_imp hc, hb', ?_⟩
  rw [trim, trimStart, List.takeWhile_append_dropWhile, ← ht]

theorem commaFree_trim {d : Int32} {t : Text} (h : CommaFree d t) : CommaFree d (trim t) := by
  obtain ⟨b, b', hb, hb', ht⟩ := exists_trim t
  rw [ht, commaFree_append, commaFree_append, depth_blank hb] at h
  simpa using h.1.2

theorem depth_trim (t : Text) : depth (trim t) = depth t := by
  obtain ⟨b, b', hb, hb', ht⟩ := exists_trim t
  conv => rhs; rw [ht]
  simp [depth_blank hb, depth_blank hb']

theorem Items.map_trim {ts : List Text} (h : Items ts) : Items (ts.map trim) := by
  induction h with
  | last t h => exact .last _ (commaFree_trim h)
  | cons t ts h hd _ ih => exact .cons _ _ (commaFree_trim h) (by rw [depth_trim, hd]) ih

theorem items_splitTopLevel (t : Text) : Items (splitTopLevel t) :=
  (items_topLevelParts t).map_trim

theorem trimmed_of_mem_splitTopLevel {t item : Text} (h : item ∈ splitTopLevel t) :
    Trimmed item := by
  obtain ⟨part, -, rfl⟩ := List.mem_map.mp h
  exact trimmed_trim part

theorem mem_topLevelParts_subset {d : Int32} {t part : Text} (h : part ∈ topLevelParts d t) :
    part ⊆ t := by
  induction t generalizing d part with
  | nil =>
      simp only [topLevelParts, List.mem_singleton] at h
      simp [h]
  | cons c t ih =>
      rw [topLevelParts] at h
      split at h
      · rcases List.mem_cons.mp h with rfl | h
        · simp
        · exact fun x hx => List.mem_cons_of_mem c (ih h hx)
      · cases hparts : topLevelParts (d + nesting c) t with
        | nil => exact absurd hparts (topLevelParts_ne_nil _ t)
        | cons first parts =>
          rw [hparts] at h
          rcases List.mem_cons.mp h with rfl | h
          · have hfirst : first ⊆ t := ih (d := d + nesting c) (by simp [hparts])
            exact List.cons_subset_cons c hfirst
          · have hpart : part ⊆ t := ih (d := d + nesting c) (by simp [hparts, h])
            exact fun x hx => List.mem_cons_of_mem c (hpart hx)

theorem mem_splitTopLevel_subset {t item : Text} (h : item ∈ splitTopLevel t) : item ⊆ t := by
  obtain ⟨part, hpart, rfl⟩ := List.mem_map.mp h
  exact fun c hc => mem_topLevelParts_subset hpart (trim_subset part hc)

theorem eq_of_topLevelParts_eq_singleton {d : Int32} {t part : Text}
    (h : topLevelParts d t = [part]) : part = t := by
  induction t generalizing d part with
  | nil => simpa [topLevelParts] using h.symm
  | cons c t ih =>
      rw [topLevelParts] at h
      split at h
      · exact absurd (List.cons.inj h).2 (topLevelParts_ne_nil d t)
      · cases hparts : topLevelParts (d + nesting c) t with
        | nil => exact absurd hparts (topLevelParts_ne_nil _ t)
        | cons first parts =>
          rw [hparts] at h
          obtain ⟨rfl, rfl⟩ := List.cons.inj h
          rw [ih hparts]

/-- Only a blank text is a list of one empty item. -/
theorem trim_eq_nil_of_splitTopLevel {t : Text} (h : splitTopLevel t = [[]]) : trim t = [] := by
  obtain ⟨part, hpart, htrim⟩ := List.map_eq_singleton_iff.mp h
  rw [← eq_of_topLevelParts_eq_singleton hpart, htrim]

/-- Items with blanks before them, joined by commas, come back. The blanks carry the induction: each
comma is followed by one. -/
theorem map_trim_topLevelParts_intercalate {ts : List Text} (h : Items ts)
    (htrim : ∀ t ∈ ts, Trimmed t) {b : Text} (hb : ∀ c ∈ b, isBlank c = true) :
    (topLevelParts 0 (b ++ List.intercalate ", " ts)).map trim = ts := by
  induction h generalizing b with
  | last t h =>
      have hfree : CommaFree 0 (b ++ t) :=
        commaFree_append.mpr ⟨commaFree_blank hb, by simpa [depth_blank hb] using h⟩
      rw [List.intercalate_singleton, topLevelParts_of_commaFree hfree, List.map_singleton,
        trim_blank_append hb, trim_of_trimmed (htrim t (by simp))]
  | cons t ts h hd hts ih =>
      obtain ⟨t', ts', rfl⟩ := List.exists_cons_of_ne_nil hts.ne_nil
      have hfree : CommaFree 0 (b ++ t) :=
        commaFree_append.mpr ⟨commaFree_blank hb, by simpa [depth_blank hb] using h⟩
      have hdepth : 0 + depth (b ++ t) = 0 := by simp [depth_blank hb, hd]
      have htext : b ++ List.intercalate ", " (t :: t' :: ts') =
          (b ++ t) ++ ',' :: ([' '] ++ List.intercalate ", " (t' :: ts')) := by
        simp [List.intercalate_cons_cons]
      rw [htext, topLevelParts_append_comma hfree hdepth, List.map_cons,
        ih (fun x hx => htrim x (by simp [hx])) (by decide), trim_blank_append hb,
        trim_of_trimmed (htrim t (by simp))]

theorem splitTopLevel_intercalate {ts : List Text} (h : Items ts) (htrim : ∀ t ∈ ts, Trimmed t) :
    splitTopLevel (List.intercalate ", " ts) = ts :=
  map_trim_topLevelParts_intercalate h htrim (b := []) (by simp)

theorem map_trim_modifyHead_blank {c : Char} (hc : isBlank c = true) {parts : List Text}
    (h : parts ≠ []) : (parts.modifyHead (c :: ·)).map trim = parts.map trim := by
  obtain ⟨part, parts, rfl⟩ := List.exists_cons_of_ne_nil h
  simpa using trim_cons_of_blank hc part

/-- Blanks before a list belong to no item. -/
theorem splitTopLevel_trimStart (t : Text) : splitTopLevel (trimStart t) = splitTopLevel t := by
  induction t with
  | nil => rfl
  | cons c t ih =>
      by_cases hc : isBlank c = true
      · have hplain := plain_of_blank hc
        rw [trimStart_cons_of_blank hc, ih, splitTopLevel, splitTopLevel, topLevelParts,
          if_neg fun h => hplain.1 h.1, hplain.2,
          map_trim_modifyHead_blank hc (topLevelParts_ne_nil _ t)]
        rfl
      · rw [trimStart_of_head (by simpa using hc)]

theorem trimEnd_cons_trimEnd (c : Char) (t : Text) :
    trimEnd (c :: trimEnd t) = trimEnd (c :: t) := by
  by_cases hc : isBlank c = true
  · rw [trimEnd_cons_of_blank hc, trimEnd_cons_of_blank hc, trimEnd_trimEnd]
  · rw [trimEnd_cons_of_not_blank (by simpa using hc),
      trimEnd_cons_of_not_blank (by simpa using hc), trimEnd_trimEnd]

theorem map_trimEnd_modifyHead (c : Char) (parts : List Text) :
    ((parts.map trimEnd).modifyHead (c :: ·)).map trimEnd =
      (parts.modifyHead (c :: ·)).map trimEnd := by
  cases parts with
  | nil => rfl
  | cons part parts => simp [trimEnd_cons_trimEnd, trimEnd_trimEnd]

theorem map_trimEnd_topLevelParts_append {b : Text} (hb : ∀ c ∈ b, isBlank c = true) (d : Int32)
    (t : Text) :
    (topLevelParts d (t ++ b)).map trimEnd = (topLevelParts d t).map trimEnd := by
  induction t generalizing d with
  | nil => simp [topLevelParts_of_commaFree (commaFree_blank hb), topLevelParts, trimEnd_blank hb]
  | cons c t ih =>
      rw [List.cons_append, topLevelParts, topLevelParts]
      split
      · simp only [List.map_cons, ih]
      · rw [← map_trimEnd_modifyHead, ih, map_trimEnd_modifyHead]

/-- Blanks after a list belong to no item. -/
theorem splitTopLevel_trimEnd (t : Text) : splitTopLevel (trimEnd t) = splitTopLevel t := by
  obtain ⟨b, hb, ht⟩ := exists_trimEnd_append t
  -- The blanks end up in the last part, and the parts differ until each is trimmed at its end.
  have hends := map_trimEnd_topLevelParts_append hb 0 (trimEnd t)
  rw [← ht] at hends
  have hstarts := congrArg (List.map trimStart) hends
  rw [List.map_map, List.map_map] at hstarts
  exact hstarts.symm

theorem splitTopLevel_trim (t : Text) : splitTopLevel (trim t) = splitTopLevel t := by
  rw [trim, splitTopLevel_trimStart, splitTopLevel_trimEnd]

theorem not_mem_intercalate {c : Char} {separator : Text} (hseparator : c ∉ separator)
    {ts : List Text} (h : ∀ t ∈ ts, c ∉ t) : c ∉ List.intercalate separator ts := by
  induction ts with
  | nil => simp [List.intercalate_nil]
  | cons t ts ih =>
      cases ts with
      | nil => exact List.intercalate_singleton ▸ h t (by simp)
      | cons t' ts =>
          have hrest := ih fun x hx => h x (by simp [hx])
          rw [List.intercalate_cons_cons, List.mem_append, List.mem_append]
          simp [h t (by simp), hseparator, hrest]

/-- The words of texts with blanks between them are the words of each. -/
theorem words_intercalate (ts : List Text) :
    words (List.intercalate " " ts) = ts.flatMap words := by
  induction ts with
  | nil => rfl
  | cons t ts ih =>
      cases ts with
      | nil => simp [List.intercalate_singleton]
      | cons t' ts =>
          have htext : List.intercalate " " (t :: t' :: ts) =
              t ++ ' ' :: List.intercalate " " (t' :: ts) := by
            simp [List.intercalate_cons_cons]
          rw [htext, words_append (by decide), ih]
          rfl

/-! ### Values between commas -/

theorem splitValues_intercalate {values : List Text} (hne : values ≠ [])
    (h : ∀ v ∈ values, Trimmed v ∧ ',' ∉ v) {b : Text} (hb : ∀ c ∈ b, isBlank c = true) :
    (List.splitOn ',' (b ++ List.intercalate ", " values)).map trim = values := by
  have hplain : ∀ v ∈ values, ∀ b : Text, (∀ c ∈ b, isBlank c = true) →
      ∀ c ∈ b ++ v, (c == ',') = false := by
    intro v hv b hb c hc
    rw [beq_eq_false_iff_ne]
    rcases List.mem_append.mp hc with hc | hc
    · exact (plain_of_blank (hb c hc)).1
    · rintro rfl
      exact (h v hv).2 hc
  induction values generalizing b with
  | nil => exact absurd rfl hne
  | cons v values ih =>
      have hv := hplain v (by simp) b hb
      have htrim : trim (b ++ v) = v := by
        rw [trim_blank_append hb, trim_of_trimmed (h v (by simp)).1]
      cases values with
      | nil => rw [List.intercalate_singleton, List.splitOn, List.splitOnP_eq_singleton hv,
          List.map_singleton, htrim]
      | cons v' values =>
        have htext : b ++ List.intercalate ", " (v :: v' :: values) =
            (b ++ v) ++ ',' :: ([' '] ++ List.intercalate ", " (v' :: values)) := by
          simp [List.intercalate_cons_cons]
        have hrest := ih (by simp) (fun x hx => h x (by simp [hx])) (b := [' ']) (by decide)
          fun x hx => hplain x (by simp [hx])
        rw [List.splitOn] at hrest
        rw [htext, List.splitOn, List.splitOnP_append_cons_of_forall_mem hv _ (by simp),
          List.map_cons, htrim, hrest]

end ShaderBackend.Text
