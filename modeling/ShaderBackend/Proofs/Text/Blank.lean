import Mathlib.Data.List.DropRight
import ShaderBackend.Text.Blank

/-!
Removing blanks. A text is trimmed when no blank stands at either end of it; trimming gives such a
text, changes no trimmed text, and does not see the blanks that were put around one.
-/

namespace ShaderBackend.Text

/-- A statement about the characters of a text is decided on these characters, before the instance
that goes through all characters is tried. -/
instance (priority := 2000) decidableForallMem (t : List Char) (P : Char → Prop)
    [DecidablePred P] : Decidable (∀ c ∈ t, P c) :=
  List.decidableBAll P t

theorem ne_of_class {p : Char → Bool} {c d : Char} (hc : p c = true) (hd : p d = false) :
    c ≠ d := by
  rintro rfl
  rw [hc] at hd
  cases hd

/-- No blank stands at either end. -/
structure Trimmed (t : Text) : Prop where
  head : ∀ c ∈ t.head?, isBlank c = false
  last : ∀ c ∈ t.getLast?, isBlank c = false

@[simp] theorem trimStart_nil : trimStart [] = [] := rfl

@[simp] theorem trimEnd_nil : trimEnd [] = [] := rfl

theorem dropEndWhile_eq_rdropWhile (p : Char → Bool) (t : Text) :
    dropEndWhile p t = t.rdropWhile p := rfl

theorem trimStart_subset (t : Text) : trimStart t ⊆ t :=
  (List.dropWhile_sublist _).subset

theorem trimEnd_subset (t : Text) : trimEnd t ⊆ t :=
  (List.rdropWhile_prefix isBlank t).subset

theorem trim_subset (t : Text) : trim t ⊆ t :=
  fun _ hc => trimEnd_subset t (trimStart_subset _ hc)

theorem trimStart_of_head {t : Text} (h : ∀ c ∈ t.head?, isBlank c = false) :
    trimStart t = t := by
  cases t with
  | nil => rfl
  | cons c t => simp [trimStart, h c (by simp)]

theorem dropEndWhile_of_last {p : Char → Bool} {t : Text} (h : ∀ c ∈ t.getLast?, p c = false) :
    dropEndWhile p t = t := by
  rw [dropEndWhile_eq_rdropWhile, List.rdropWhile_eq_self_iff]
  intro hne
  simp [h _ (List.getLast?_eq_some_getLast hne)]

theorem trimEnd_of_last {t : Text} (h : ∀ c ∈ t.getLast?, isBlank c = false) :
    trimEnd t = t :=
  dropEndWhile_of_last h

theorem trim_of_trimmed {t : Text} (h : Trimmed t) : trim t = t := by
  rw [trim, trimEnd_of_last h.last, trimStart_of_head h.head]

theorem head_trimStart (t : Text) : ∀ c ∈ (trimStart t).head?, isBlank c = false := by
  intro c hc
  have h := List.head?_dropWhile_not isBlank t
  rw [trimStart] at hc
  rw [Option.mem_def.mp hc] at h
  simpa using h

theorem last_trimEnd (t : Text) : ∀ c ∈ (trimEnd t).getLast?, isBlank c = false := by
  intro c hc
  rw [trimEnd, dropEndWhile, List.getLast?_reverse] at hc
  exact head_trimStart t.reverse c hc

/-- A text is its trimmed form and blanks after it. -/
theorem exists_trimEnd_append (t : Text) :
    ∃ b : Text, (∀ c ∈ b, isBlank c = true) ∧ t = trimEnd t ++ b :=
  ⟨t.rtakeWhile isBlank, fun _ hc => List.mem_rtakeWhile_imp hc,
    List.rdropWhile_append_rtakeWhile.symm⟩

theorem trimStart_cons_of_blank {c : Char} (hc : isBlank c = true) (t : Text) :
    trimStart (c :: t) = trimStart t := by
  simp [trimStart, hc]

theorem trimStart_blank_append {b : Text} (hb : ∀ c ∈ b, isBlank c = true) (t : Text) :
    trimStart (b ++ t) = trimStart t := by
  rw [trimStart, List.dropWhile_append_of_pos hb, trimStart]

theorem trimStart_append_of_head (s : Text) {t : Text} (ht : ∀ c ∈ t.head?, isBlank c = false) :
    trimStart (s ++ t) = trimStart s ++ t := by
  induction s with
  | nil => exact trimStart_of_head ht
  | cons c s ih =>
      by_cases hc : isBlank c = true
      · rw [List.cons_append, trimStart_cons_of_blank hc, trimStart_cons_of_blank hc, ih]
      · have hc' : isBlank c = false := by simpa using hc
        rw [trimStart_of_head (t := c :: s) (by simpa using hc')]
        exact trimStart_of_head (by simpa using hc')

/-- The blanks at the start of a text that is not all blank, whatever stands after it. -/
theorem takeWhile_append_of_trimStart_ne_nil {s : Text} (hs : trimStart s ≠ []) (t : Text) :
    (s ++ t).takeWhile isBlank = s.takeWhile isBlank := by
  induction s with
  | nil => exact absurd rfl hs
  | cons c s ih =>
      by_cases hc : isBlank c = true
      · rw [trimStart_cons_of_blank hc] at hs
        simp [hc, ih hs]
      · simp [hc]

theorem dropEndWhile_append_of_pos {p : Char → Bool} (t : Text) {b : Text}
    (hb : ∀ c ∈ b, p c = true) : dropEndWhile p (t ++ b) = dropEndWhile p t := by
  have hrev : ∀ c ∈ b.reverse, p c = true := fun c hc => hb c (by simpa using hc)
  rw [dropEndWhile, List.reverse_append, List.dropWhile_append_of_pos hrev, dropEndWhile]

theorem trimEnd_append_blank (t : Text) {b : Text} (hb : ∀ c ∈ b, isBlank c = true) :
    trimEnd (t ++ b) = trimEnd t :=
  dropEndWhile_append_of_pos t hb

/-- What stands between marks is left when the marks go from the two ends. -/
theorem dropEndWhile_dropWhile_between {p q : Char → Bool} {a b t : Text}
    (ha : ∀ c ∈ a, p c = true) (hb : ∀ c ∈ b, q c = true) (hhead : ∀ c ∈ t.head?, p c = false)
    (hlast : ∀ c ∈ t.getLast?, q c = false) :
    dropEndWhile q ((a ++ t ++ b).dropWhile p) = t := by
  rw [List.append_assoc, List.dropWhile_append_of_pos ha]
  cases t with
  | nil =>
      have hrest : ∀ c ∈ b.dropWhile p, q c = true :=
        fun c hc => hb c ((List.dropWhile_sublist p).subset hc)
      exact dropEndWhile_append_of_pos [] hrest
  | cons c t =>
      have hc : p c = false := hhead c (by simp)
      rw [List.cons_append, List.dropWhile_cons_of_neg (by simp [hc]), ← List.cons_append,
        dropEndWhile_append_of_pos _ hb, dropEndWhile_of_last hlast]

theorem trimEnd_blank {b : Text} (hb : ∀ c ∈ b, isBlank c = true) : trimEnd b = [] :=
  List.rdropWhile_eq_nil_iff.mpr hb

theorem trimEnd_trimEnd (t : Text) : trimEnd (trimEnd t) = trimEnd t :=
  List.rdropWhile_idempotent isBlank t

/-- Blanks at the end of a text go, whatever stands before it, unless the text is all blank. -/
theorem trimEnd_append {s t : Text} (h : trimEnd t ≠ []) : trimEnd (s ++ t) = s ++ trimEnd t := by
  obtain ⟨b, hb, ht⟩ := exists_trimEnd_append t
  have hlast : ∀ c ∈ (s ++ trimEnd t).getLast?, isBlank c = false := by
    intro c hc
    apply last_trimEnd t c
    rwa [List.getLast?_append, List.getLast?_eq_some_getLast h, Option.some_or,
      ← List.getLast?_eq_some_getLast h] at hc
  calc
    trimEnd (s ++ t) = trimEnd (s ++ trimEnd t ++ b) := by
      rw [List.append_assoc, ← ht]
    _ = trimEnd (s ++ trimEnd t) := trimEnd_append_blank _ hb
    _ = s ++ trimEnd t := trimEnd_of_last hlast

/-- Blanks at the end of a text go, whatever stands before it without a blank at its end. -/
theorem trimEnd_append_of_last {s : Text} (hs : ∀ c ∈ s.getLast?, isBlank c = false) (t : Text) :
    trimEnd (s ++ t) = s ++ trimEnd t := by
  by_cases h : trimEnd t = []
  · have hblank : ∀ c ∈ t, isBlank c = true := List.rdropWhile_eq_nil_iff.mp h
    rw [trimEnd_append_blank s hblank, h, trimEnd_of_last hs, List.append_nil]
  · exact trimEnd_append h

theorem trimEnd_cons_of_blank {c : Char} (hc : isBlank c = true) (t : Text) :
    trimEnd (c :: t) = if trimEnd t = [] then [] else c :: trimEnd t := by
  split
  · rename_i h
    have hblank : ∀ d ∈ t, isBlank d = true := List.rdropWhile_eq_nil_iff.mp h
    exact trimEnd_blank (by simpa using ⟨hc, hblank⟩)
  · rename_i h
    exact trimEnd_append (s := [c]) h

theorem trimEnd_cons_of_not_blank {c : Char} (hc : isBlank c = false) (t : Text) :
    trimEnd (c :: t) = c :: trimEnd t :=
  trimEnd_append_of_last (s := [c]) (by simpa using hc) t

/-- Blanks go from the two ends in either order. -/
theorem trim_eq_trimEnd_trimStart (t : Text) : trim t = trimEnd (trimStart t) := by
  induction t with
  | nil => rfl
  | cons c t ih =>
      by_cases hc : isBlank c = true
      · rw [trimStart_cons_of_blank hc, ← ih, trim, trimEnd_cons_of_blank hc]
        split
        · rename_i h
          rw [trim, h, trimStart_nil]
        · exact trimStart_cons_of_blank hc _
      · have hc' : isBlank c = false := by simpa using hc
        rw [trimStart_of_head (t := c :: t) (by simpa using hc'), trim,
          trimEnd_cons_of_not_blank hc']
        exact trimStart_of_head (by simpa using hc')

theorem trimmed_trim (t : Text) : Trimmed (trim t) :=
  ⟨head_trimStart _, trim_eq_trimEnd_trimStart t ▸ last_trimEnd _⟩

@[simp] theorem trim_trim (t : Text) : trim (trim t) = trim t :=
  trim_of_trimmed (trimmed_trim t)

theorem trim_cons_of_not_blank {c : Char} (hc : isBlank c = false) (t : Text) :
    trim (c :: t) = c :: trimEnd t := by
  rw [trim, trimEnd_cons_of_not_blank hc, trimStart_of_head (by simpa using hc)]

theorem trim_cons_of_blank {c : Char} (hc : isBlank c = true) (t : Text) :
    trim (c :: t) = trim t := by
  rw [trim_eq_trimEnd_trimStart, trimStart_cons_of_blank hc, ← trim_eq_trimEnd_trimStart]

theorem trim_blank_append {b : Text} (hb : ∀ c ∈ b, isBlank c = true) (t : Text) :
    trim (b ++ t) = trim t := by
  rw [trim_eq_trimEnd_trimStart, trimStart_blank_append hb, ← trim_eq_trimEnd_trimStart]

end ShaderBackend.Text
