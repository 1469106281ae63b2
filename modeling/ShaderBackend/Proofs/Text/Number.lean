import ShaderBackend.Program.Basic
import ShaderBackend.Proofs.Text.Blank

/-!
Numbers as text. The digits of a number, decimal or hexadecimal, read back as the number, and no
other character stands among them.
-/

namespace ShaderBackend.Text

theorem isDigit_of_mem_decimal {n : Nat} {c : Char} (h : c ∈ decimal n) : c.isDigit = true :=
  Nat.isDigit_of_mem_toDigits (by decide) (by decide) h

theorem decimal_ne_nil (n : Nat) : decimal n ≠ [] :=
  Nat.toDigits_ne_nil

theorem toNat_of_isDigit {c : Char} (h : c.isDigit = true) : 48 ≤ c.toNat ∧ c.toNat ≤ 57 := by
  simp only [Char.isDigit, Bool.and_eq_true, decide_eq_true_eq] at h
  exact ⟨UInt32.le_iff_toNat_le.mp h.1, UInt32.le_iff_toNat_le.mp h.2⟩

theorem not_isBlank_of_isDigit {c : Char} (h : c.isDigit = true) : isBlank c = false := by
  have hc := toNat_of_isDigit h
  simp only [isBlank, Bool.or_eq_false_iff, Bool.and_eq_false_iff, decide_eq_false_iff_not,
    beq_eq_false_iff_ne]
  omega

theorem digitValue?_of_isDigit {c : Char} (h : c.isDigit = true) :
    digitValue? c = some (c.toNat - '0'.toNat) := by
  have hc := toNat_of_isDigit h
  have hrange : '0' ≤ c ∧ c ≤ '9' :=
    ⟨UInt32.le_iff_toNat_le.mpr hc.1, UInt32.le_iff_toNat_le.mpr hc.2⟩
  rw [digitValue?, if_pos hrange]

/-- Digits are read as the number they spell, after what was read before them. -/
theorem readDigits?_of_forall_isDigit {t : Text} (h : ∀ c ∈ t, c.isDigit = true) (value : Nat) :
    readDigits? 10 value t = some (Nat.ofDigitChars 10 t value) := by
  induction t generalizing value with
  | nil => rfl
  | cons c t ih =>
      have hc := toNat_of_isDigit (h c (by simp))
      have hlt : c.toNat - '0'.toNat < 10 := by
        change c.toNat - 48 < 10
        omega
      rw [readDigits?, digitValue?_of_isDigit (h c (by simp))]
      simp only [if_pos hlt]
      rw [ih fun d hd => h d (by simp [hd]), Nat.ofDigitChars_cons, Nat.mul_comm]

theorem dropPlus_of_forall_isDigit {t : Text} (h : ∀ c ∈ t, c.isDigit = true) :
    dropPlus t = t := by
  cases t with
  | nil => rfl
  | cons c t =>
      have hne : c ≠ '+' := ne_of_class (h c (by simp)) (by decide)
      unfold dropPlus
      split
      · rename_i heq
        exact absurd (List.cons.inj heq).1 hne
      · rfl

theorem readNumber?_of_forall_isDigit {t : Text} (hne : t ≠ [])
    (h : ∀ c ∈ t, c.isDigit = true) :
    readNumber? 10 t =
      if Nat.ofDigitChars 10 t 0 ≤ maxNumber then some (Nat.ofDigitChars 10 t 0) else none := by
  obtain ⟨c, t, rfl⟩ := List.exists_cons_of_ne_nil hne
  simp only [readNumber?, dropPlus_of_forall_isDigit h, readDigits?_of_forall_isDigit h]
  have hbound : Nat.ofDigitChars 10 (c :: t) 0 < 0x100000000 ↔
      Nat.ofDigitChars 10 (c :: t) 0 ≤ maxNumber := Nat.lt_succ_iff
  simp only [hbound]

theorem readNumber?_decimal {n : Nat} (h : n ≤ maxNumber) :
    readNumber? 10 (decimal n) = some n := by
  rw [readNumber?_of_forall_isDigit (decimal_ne_nil n) fun c hc => isDigit_of_mem_decimal hc,
    decimal, Nat.ofDigitChars_ten_toDigits, if_pos h]

theorem le_maxNumber_of_readNumber? {base n : Nat} {t : Text} (h : readNumber? base t = some n) :
    n ≤ maxNumber := by
  unfold readNumber? at h
  split at h
  · cases h
  · split at h
    · split at h
      · rename_i hlt
        cases h
        simpa [maxNumber] using Nat.le_of_lt_succ hlt
      · cases h
    · cases h

theorem decimal_inj {m n : Nat} : decimal m = decimal n ↔ m = n := by
  refine ⟨fun h => ?_, congrArg decimal⟩
  have hvalue := congrArg (Nat.ofDigitChars 10 · 0) h
  simpa only [decimal, Nat.ofDigitChars_ten_toDigits] using hvalue

/-! ### Which texts are numbers -/

theorem isDigit_of_digitValue? {c : Char} {digit : Nat} (h : digitValue? c = some digit)
    (hlt : digit < 10) : c.isDigit = true ∧ digit = c.toNat - '0'.toNat := by
  unfold digitValue? at h
  split at h
  · rename_i hrange
    cases h
    have hfirst := UInt32.le_iff_toNat_le.mp hrange.1
    have hlast := UInt32.le_iff_toNat_le.mp hrange.2
    refine ⟨?_, rfl⟩
    simp only [Char.isDigit, Bool.and_eq_true, decide_eq_true_eq]
    exact ⟨UInt32.le_iff_toNat_le.mpr hfirst, UInt32.le_iff_toNat_le.mpr hlast⟩
  · -- The letters stand for ten and more.
    split at h
    · cases h
      omega
    · split at h
      · cases h
        omega
      · cases h

/-- Exactly the digits are read, as the number that they spell after what was read before them. -/
theorem readDigits?_eq_some_iff {t : Text} {value n : Nat} :
    readDigits? 10 value t = some n ↔
      (∀ c ∈ t, c.isDigit = true) ∧ Nat.ofDigitChars 10 t value = n := by
  constructor
  · intro h
    have hdigits : ∀ c ∈ t, c.isDigit = true := by
      induction t generalizing value with
      | nil => simp
      | cons c t ih =>
          rw [readDigits?] at h
          split at h
          · rename_i digit hdigit
            split at h
            · rename_i hlt
              exact List.forall_mem_cons.mpr ⟨(isDigit_of_digitValue? hdigit hlt).1, ih h⟩
            · cases h
          · cases h
    rw [readDigits?_of_forall_isDigit hdigits, Option.some.injEq] at h
    exact ⟨hdigits, h⟩
  · rintro ⟨hdigits, rfl⟩
    exact readDigits?_of_forall_isDigit hdigits value

/-- A number that is read is nonempty digits, after a plus sign or not, of a 32-bit value. -/
theorem readNumber?_eq_some_iff {t : Text} {n : Nat} :
    readNumber? 10 t = some n ↔
      ∃ digits : Text, (t = digits ∨ t = '+' :: digits) ∧ digits ≠ [] ∧
        (∀ c ∈ digits, c.isDigit = true) ∧ Nat.ofDigitChars 10 digits 0 = n ∧ n ≤ maxNumber := by
  constructor
  · intro h
    have hle := le_maxNumber_of_readNumber? h
    have hplus : t = dropPlus t ∨ t = '+' :: dropPlus t := by
      unfold dropPlus
      split <;> simp
    refine ⟨dropPlus t, hplus, ?_⟩
    unfold readNumber? at h
    split at h
    · cases h
    · rename_i digits hne
      split at h
      · rename_i value hvalue
        obtain ⟨hdigits, rfl⟩ := readDigits?_eq_some_iff.mp hvalue
        rw [Option.ite_none_right_eq_some] at h
        exact ⟨hne, hdigits, Option.some.inj h.2, hle⟩
      · cases h
  · rintro ⟨digits, ht, hne, hdigits, rfl, hle⟩
    have hread := readNumber?_of_forall_isDigit hne hdigits
    rw [if_pos hle] at hread
    rcases ht with rfl | rfl
    · exact hread
    · -- The sign is dropped once, and digits have none to drop.
      have hdrop : dropPlus ('+' :: digits) = dropPlus digits :=
        (dropPlus_of_forall_isDigit hdigits).symm
      rw [← hread, readNumber?, readNumber?, hdrop]

/-! ### Digits of any base up to sixteen -/

theorem digitValue?_digitChar : ∀ d < 16, digitValue? (Nat.digitChar d) = some d := by
  decide

theorem readDigits?_append (base value : Nat) (s t : Text) :
    readDigits? base value (s ++ t) =
      (readDigits? base value s).bind fun value => readDigits? base value t := by
  induction s generalizing value with
  | nil => rfl
  | cons c s ih =>
      rw [List.cons_append, readDigits?, readDigits?]
      cases digitValue? c with
      | none => rfl
      | some digit =>
        dsimp only
        split
        · exact ih _
        · rfl

theorem readDigits?_toDigits {base : Nat} (h : 1 < base) (hle : base ≤ 16) (n : Nat) :
    readDigits? base 0 (Nat.toDigits base n) = some n := by
  induction n using Nat.strongRecOn with
  | ind n ih =>
      have hdigit : ∀ value d, d < base →
          readDigits? base value [Nat.digitChar d] = some (value * base + d) := by
        intro value d hd
        simp only [readDigits?, digitValue?_digitChar d (by omega), if_pos hd]
      rw [Nat.toDigits_eq_if h]
      split
      · rename_i hn
        rw [hdigit 0 n hn, Nat.zero_mul, Nat.zero_add]
      · -- The last digit is the remainder, and the digits before it are those of the quotient.
        rename_i hn
        have hdiv : n / base < n := Nat.div_lt_self (by omega) h
        rw [readDigits?_append, ih (n / base) hdiv, Option.bind_some,
          hdigit _ _ (Nat.mod_lt n (by omega)), Nat.div_add_mod']

/-- Zeros in front of a number do not change it. -/
theorem readDigits?_padLeft {base : Nat} (h : 0 < base) (width : Nat) (t : Text) :
    readDigits? base 0 (padLeft '0' width t) = readDigits? base 0 t := by
  rw [padLeft]
  generalize width - t.length = k
  have hzero : digitValue? '0' = some 0 := by decide
  induction k with
  | zero => rfl
  | succ k ih =>
      rw [List.replicate_succ, List.cons_append, readDigits?, hzero]
      simpa [h] using ih

theorem hexadecimal_inj {digits m n : Nat} :
    hexadecimal digits m = hexadecimal digits n ↔ m = n := by
  refine ⟨fun h => ?_, congrArg (hexadecimal digits)⟩
  have hvalue := congrArg (readDigits? 16 0) (List.append_cancel_left h)
  simpa only [readDigits?_padLeft (Nat.zero_lt_succ 15),
    readDigits?_toDigits (Nat.one_lt_succ_succ 14) (Nat.le_refl 16), Option.some.injEq] using hvalue

/-- What is read as a number has digits only. -/
theorem digitValue?_ne_none_of_readDigits? {base value n : Nat} {t : Text}
    (h : readDigits? base value t = some n) {c : Char} (hc : c ∈ t) : digitValue? c ≠ none := by
  induction t generalizing value with
  | nil => cases hc
  | cons d t ih =>
      rw [readDigits?] at h
      cases hd : digitValue? d with
      | none => simp [hd] at h
      | some digit =>
        simp only [hd, Option.ite_none_right_eq_some] at h
        rcases List.mem_cons.mp hc with rfl | hc
        · simp [hd]
        · exact ih h.2 hc

theorem not_mem_hexadecimal {c : Char} (hx : c ≠ 'x') (hc : digitValue? c = none)
    (digits n : Nat) : c ∉ hexadecimal digits n := by
  have hzero : c ≠ '0' := by
    rintro rfl
    cases hc
  have hread := (readDigits?_padLeft (Nat.zero_lt_succ 15) digits (Nat.toDigits 16 n)).trans
    (readDigits?_toDigits (Nat.one_lt_succ_succ 14) (Nat.le_refl 16) n)
  rw [hexadecimal, List.mem_append, not_or]
  exact ⟨by simp [hx, hzero], fun hmem => digitValue?_ne_none_of_readDigits? hread hmem hc⟩

end ShaderBackend.Text
