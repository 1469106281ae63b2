import ShaderBackend.Proofs.Text.Parts

/-!
What the operations on excerpts do to the characters, apart from where they stand.
-/

namespace ShaderBackend.Excerpt

@[simp] theorem text_before (c : Char) (e : Excerpt) :
    (e.before c).text = e.text.takeWhile (· != c) := rfl

@[simp] theorem text_startingAt (c : Char) (e : Excerpt) :
    (e.startingAt c).text = e.text.dropWhile (· != c) := rfl

@[simp] theorem text_tail (e : Excerpt) : e.tail.text = e.text.tail := by
  obtain ⟨start, text⟩ := e
  cases text with
  | nil => rfl
  | cons c text => rfl

@[simp] theorem text_dropLast (e : Excerpt) : e.dropLast.text = e.text.dropLast := rfl

@[simp] theorem text_splitWord_fst (e : Excerpt) :
    e.splitWord.1.text = (Text.trimStart e.text).takeWhile (! isBlank ·) := rfl

@[simp] theorem text_splitWord_snd (e : Excerpt) :
    e.splitWord.2.text = Text.trimStart ((Text.trimStart e.text).dropWhile (! isBlank ·)) := rfl

/-- A text is cut at the first occurrence of a character. -/
theorem cut_at {c : Char} {e : Excerpt} {s t : Text} (h : e.text = s ++ c :: t) (hs : c ∉ s) :
    (e.before c).text = s ∧ (e.startingAt c).text = c :: t := by
  have hplain : ∀ d ∈ s, (d != c) = true := by
    intro d hd
    have hne : d ≠ c := by
      rintro rfl
      exact hs hd
    simpa using hne
  constructor
  · rw [text_before, h, List.takeWhile_append_of_pos hplain]
    simp
  · rw [text_startingAt, h, List.dropWhile_append_of_pos hplain]
    simp

/-- Where a character is found, it stands between the two sides of the cut. -/
theorem text_eq_of_startingAt {c : Char} {e : Excerpt} (h : (e.startingAt c).isEmpty = false) :
    e.text = (e.before c).text ++ c :: (e.startingAt c).tail.text := by
  have hne : e.text.dropWhile (· != c) ≠ [] := by simpa [isEmpty] using h
  obtain ⟨d, rest, hcons⟩ := List.exists_cons_of_ne_nil hne
  obtain rfl : d = c := by simpa [hcons] using List.head?_dropWhile_not (· != c) e.text
  have htail : (e.startingAt d).tail.text = rest := by
    rw [text_tail, text_startingAt, hcons, List.tail_cons]
  rw [htail, ← hcons, text_before, List.takeWhile_append_dropWhile]

theorem cut_nowhere {c : Char} {e : Excerpt} (h : c ∉ e.text) :
    (e.before c).text = e.text ∧ (e.startingAt c).text = [] := by
  have hplain : ∀ d ∈ e.text, (d != c) = true := by
    intro d hd
    have hne : d ≠ c := by
      rintro rfl
      exact h hd
    simpa using hne
  exact ⟨List.takeWhile_eq_self_iff.mpr hplain, List.dropWhile_eq_nil_iff.mpr hplain⟩

theorem map_text_locate (start : Nat) (parts : List Text) :
    (locate start parts).map (·.text) = parts := by
  induction parts generalizing start with
  | nil => rfl
  | cons part parts ih => simp [locate, ih]

theorem map_text_lines (source : Text) : (lines source).map (·.text) = List.splitOn '\n' source :=
  map_text_locate 0 _

theorem map_text_splitTopLevel (e : Excerpt) :
    e.splitTopLevel.map (·.text) = Text.splitTopLevel e.text := by
  have h := congrArg (List.map Text.trim)
    (map_text_locate e.start (Text.topLevelParts 0 e.text))
  rw [List.map_map] at h
  rw [splitTopLevel, List.map_map, Text.splitTopLevel, ← h]
  rfl

theorem rest_subset (e : Excerpt) : e.splitWord.2.text ⊆ e.text := by
  intro c hc
  have hrest := Text.trimStart_subset _ hc
  exact Text.trimStart_subset e.text ((List.dropWhile_sublist _).subset hrest)

/-- A word without blanks, with nothing or a blank after it, is split off as the first word. -/
theorem splitWord_of_text {e : Excerpt} {word rest : Text} (h : e.text = word ++ rest)
    (hne : word ≠ []) (hword : ∀ c ∈ word, isBlank c = false)
    (hrest : ∀ c ∈ rest.head?, isBlank c = true) :
    e.splitWord.1.text = word ∧ e.splitWord.2.text = Text.trimStart rest := by
  have hstart : Text.trimStart (word ++ rest) = word ++ rest := by
    apply Text.trimStart_of_head
    obtain ⟨c, word, rfl⟩ := List.exists_cons_of_ne_nil hne
    simpa using hword c (by simp)
  have hall : ∀ c ∈ word, (! isBlank c) = true := fun c hc => by simp [hword c hc]
  have htake : rest.takeWhile (! isBlank ·) = [] := by
    cases rest with
    | nil => rfl
    | cons c rest => simp [hrest c (by simp)]
  have hdrop : rest.dropWhile (! isBlank ·) = rest := by
    cases rest with
    | nil => rfl
    | cons c rest => simp [hrest c (by simp)]
  constructor
  · rw [text_splitWord_fst, h, hstart, List.takeWhile_append_of_pos hall, htake, List.append_nil]
  · rw [text_splitWord_snd, h, hstart, List.dropWhile_append_of_pos hall, hdrop]

end ShaderBackend.Excerpt
