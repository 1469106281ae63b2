import Mathlib.Tactic.IntervalCases
import ShaderBackend.Program.Printer
import ShaderBackend.Proofs.Program.WellFormed

/-!
Reading what was printed. The printed form of a well-formed token is a line that reads back as that
token. There is one exception, of a system value whose semantic is spelled like an attribute: its
index zero is not printed, and the name alone reads back as an attribute.
-/

namespace ShaderBackend

/-! ### Characters -/

theorem isBlank_of_isUpperOrUnderscore {c : Char} (h : isUpperOrUnderscore c = true) :
    isBlank c = false := by
  have hc : (65 ≤ c.toNat ∧ c.toNat ≤ 90) ∨ c.toNat = 95 := by
    simp only [isUpperOrUnderscore, Bool.or_eq_true, beq_iff_eq] at h
    rcases h with h | rfl
    · obtain ⟨hfirst, hlast⟩ : c.val ≥ 'A'.val ∧ c.val ≤ 'Z'.val := of_decide_eq_true h
      exact .inl ⟨UInt32.le_iff_toNat_le.mp hfirst, UInt32.le_iff_toNat_le.mp hlast⟩
    · exact .inr rfl
  simp only [isBlank, Bool.or_eq_false_iff, Bool.and_eq_false_iff, decide_eq_false_iff_not,
    beq_eq_false_iff_ne]
  omega

theorem isSemanticName_forall {t : Text} (h : isSemanticName t = true) :
    t ≠ [] ∧ ∀ c ∈ t, isUpperOrUnderscore c = true := by
  simpa [isSemanticName] using h

theorem isOpcode_forall {t : Text} (h : isOpcode t = true) :
    t ≠ [] ∧ ∀ c ∈ t, isUpperOrUnderscore c = true ∨ c.isDigit = true := by
  simpa [isOpcode] using h

theorem isOpcode_isWord {t : Text} (h : isOpcode t = true) : t.IsWord := by
  obtain ⟨hne, hall⟩ := isOpcode_forall h
  refine ⟨hne, fun c hc => ?_⟩
  rcases hall c hc with hc | hc
  · exact isBlank_of_isUpperOrUnderscore hc
  · exact Text.not_isBlank_of_isDigit hc

theorem Text.isWord_decimal (n : Nat) : (decimal n).IsWord :=
  ⟨decimal_ne_nil n, fun _ hc => not_isBlank_of_isDigit (isDigit_of_mem_decimal hc)⟩

theorem isLabel_decimal (n : Nat) : isLabel (Text.decimal n) = true := by
  simp only [isLabel, Bool.and_eq_true, Bool.not_eq_true', List.isEmpty_eq_false_iff,
    List.all_eq_true]
  exact ⟨Text.decimal_ne_nil n, fun c hc => Text.isDigit_of_mem_decimal hc⟩

theorem Text.IsWord.trimmed {t : Text} (h : t.IsWord) : t.Trimmed :=
  ⟨fun c hc => h.not_blank c (List.mem_of_mem_head? hc),
    fun c hc => h.not_blank c (List.mem_of_mem_getLast? hc)⟩

namespace Excerpt

/-- The first word of a line is split off together with the blank after it. -/
theorem splitWord_line {e : Excerpt} {word body : Text}
    (h : e.text = Text.trim (word ++ ' ' :: body)) (hword : word.IsWord)
    (hbody : ∃ c ∈ body.head?, isBlank c = false) :
    e.splitWord.1.text = word ∧ e.splitWord.2.text = Text.trim body := by
  obtain ⟨c, hc, hblank⟩ := hbody
  obtain ⟨rest, rfl⟩ : ∃ rest, body = c :: rest := List.head?_eq_some_iff.mp hc
  have hend : Text.trimEnd (c :: rest) = c :: Text.trimEnd rest :=
    Text.trimEnd_cons_of_not_blank hblank rest
  have htrim := Text.trim_cons_of_not_blank hblank rest
  have hline : Text.trim (word ++ ' ' :: c :: rest) = word ++ ' ' :: Text.trim (c :: rest) := by
    have hhead : ∀ d ∈ (word ++ ' ' :: c :: rest).head?, isBlank d = false := by
      obtain ⟨d, word, rfl⟩ := List.exists_cons_of_ne_nil hword.ne_nil
      simpa using hword.not_blank d (by simp)
    rw [Text.trim_eq_trimEnd_trimStart, Text.trimStart_of_head hhead, htrim, ← hend,
      ← List.singleton_append, ← List.append_assoc,
      Text.trimEnd_append (by rw [hend]; exact List.cons_ne_nil _ _), List.append_assoc,
      List.singleton_append]
  rw [hline] at h
  have hsplit := splitWord_of_text h hword.ne_nil hword.not_blank (by
    intro d hd
    obtain rfl : ' ' = d := by simpa using hd
    decide)
  rw [Text.trimStart_cons_of_blank (by decide), htrim,
    Text.trimStart_of_head (by simpa using hblank), ← htrim] at hsplit
  exact hsplit

/-! ### Registers -/

theorem readNumber_decimal {e : Excerpt} {n : Nat} (h : e.text = Text.decimal n)
    (hn : n ≤ maxNumber) : e.readNumber = .ok n := by
  rw [readNumber, h, Text.trim_of_trimmed (Text.isWord_decimal n).trimmed,
    Text.readNumber?_decimal hn]

theorem cutAt?_dots_none {s : Text} (hs : '.' ∉ s) : Text.cutAt? ".." s = none := by
  induction s with
  | nil => rfl
  | cons c s ih =>
      have hc : c ≠ '.' := by
        rintro rfl
        simp at hs
      have hprefix : List.isPrefixOf? "..".toList (c :: s) = none := by
        simp [List.isPrefixOf?, hc.symm]
      rw [Text.cutAt?, hprefix, ih fun h => hs (by simp [h])]
      rfl

theorem cutAt?_dots {s : Text} (hs : '.' ∉ s) (t : Text) :
    Text.cutAt? ".." (s ++ '.' :: '.' :: t) = some (s, t) := by
  induction s with
  | nil => rfl
  | cons c s ih =>
      have hc : c ≠ '.' := by
        rintro rfl
        simp at hs
      have hprefix : List.isPrefixOf? "..".toList (c :: (s ++ '.' :: '.' :: t)) = none := by
        simp [List.isPrefixOf?, hc.symm]
      rw [List.cons_append, Text.cutAt?, hprefix, ih fun h => hs (by simp [h])]
      rfl

theorem not_mem_decimal {n : Nat} {c : Char} (hc : c.isDigit = false) : c ∉ Text.decimal n := by
  intro h
  exact Text.ne_of_class (Text.isDigit_of_mem_decimal h) hc rfl

/-- What stands between the brackets of a printed range. -/
def rangeDigits (r : Register) : Text :=
  if r.first = r.last then Text.decimal r.first
  else Text.decimal r.first ++ '.' :: '.' :: Text.decimal r.last

theorem readRange_printed {e : Excerpt} {r : Register} (hr : r.WellFormed)
    (h : e.text = rangeDigits r) : e.readRange = .ok (r.first, r.last) := by
  have hfirst : r.first ≤ maxNumber := hr.first_le_last.trans hr.last_le
  have hdot : '.' ∉ Text.decimal r.first := not_mem_decimal (by decide)
  unfold rangeDigits at h
  split at h
  · rename_i heq
    have hcut : e.cutAt? ".." = none := by rw [cutAt?, h, cutAt?_dots_none hdot]; rfl
    rw [readRange, hcut]
    simp only [readNumber_decimal h hfirst, Reading.ok_bind, ← heq]
    rfl
  · obtain ⟨left, right, hcut, hleft, hright⟩ : ∃ left right, e.cutAt? ".." = some (left, right) ∧
        left.text = Text.decimal r.first ∧ right.text = Text.decimal r.last := by
      rw [cutAt?, h, cutAt?_dots hdot]
      exact ⟨_, _, rfl, rfl, rfl⟩
    rw [readRange, hcut]
    simp only [readNumber_decimal hleft hfirst, readNumber_decimal hright hr.last_le,
      Reading.ok_bind]
    rfl

theorem readGroups_nil {e : Excerpt} (h : e.text.head? ≠ some '[') (fuel : Nat) :
    e.readGroups fuel = .ok ([], e) := by
  cases fuel with
  | zero => rfl
  | succ fuel => rw [readGroups, if_neg h]

/-- One bracketed group is read off, and the reading goes on behind it. -/
theorem readGroups_cons {e : Excerpt} {inner rest : Text}
    (h : e.text = '[' :: (inner ++ ']' :: rest)) (hinner : ']' ∉ inner) (fuel : Nat) :
    ∃ group after : Excerpt, group.text = inner ∧ after.text = rest ∧
      e.readGroups (fuel + 1) =
        after.readGroups fuel >>= fun (groups, rest) => .ok (group :: groups, rest) := by
  have htail : e.tail.text = inner ++ ']' :: rest := by rw [text_tail, h, List.tail_cons]
  obtain ⟨hgroup, hclose⟩ := cut_at htail hinner
  refine ⟨e.tail.before ']', (e.tail.startingAt ']').tail, hgroup, ?_, ?_⟩
  · rw [text_tail, hclose, List.tail_cons]
  · have hhead : e.text.head? = some '[' := by rw [h]; rfl
    have hopen : (e.tail.startingAt ']').isEmpty = false := by rw [isEmpty, hclose]; rfl
    rw [readGroups, if_pos hhead]
    simp only [hopen, Bool.false_eq_true, if_false]
    rfl

theorem readComponents_maskText (whole : Excerpt) {k : Nat} (hpos : 0 < k) (hlt : k < 15) :
    maskText (.ofNat k) = '.' :: (maskText (.ofNat k)).tail ∧
      whole.readComponents 0 (maskText (.ofNat k)).tail = .ok (.ofNat k) := by
  interval_cases k <;> exact ⟨rfl, rfl⟩

theorem readSuffix_printed {e : Excerpt} {mask : UInt8} (hne : mask ≠ 0) (hlt : mask.toNat < 16)
    (h : e.text = maskText mask) : e.readSuffix = .ok mask := by
  obtain ⟨k, hk, rfl⟩ : ∃ k < 16, mask = .ofNat k := ⟨mask.toNat, hlt, by simp⟩
  by_cases hfull : k = 15
  · subst hfull
    have hnil : e.text = [] := h
    rw [readSuffix, hnil]
    rfl
  · have hpos : 0 < k := Nat.pos_of_ne_zero (by rintro rfl; exact hne rfl)
    obtain ⟨hdot, hread⟩ := readComponents_maskText e.tail hpos (by omega)
    have hmask : e.tail.readMask = .ok (.ofNat k) := by
      rw [readMask, text_tail, h, hread, Reading.ok_bind, if_neg hne]
      rfl
    unfold readSuffix
    rw [h, hdot]
    exact hmask

theorem bracket_not_mem_fileName (file : RegisterFile) : '[' ∉ file.name := by
  cases file <;> decide

theorem register_render_eq (r : Register) :
    r.render = r.file.name ++ ((r.dimension.map bracketed).getD [] ++
      '[' :: (rangeDigits r ++ ']' :: maskText r.mask)) := by
  unfold Register.render Register.rangeText rangeDigits
  split
  · simp [bracketed]
  · simp

/-- The printed groups are read back as the dimension, if there is one, and the range. -/
theorem readGroups_printed (whole : Excerpt) {e : Excerpt} {r : Register} (hr : r.WellFormed)
    (h : e.text = (r.dimension.map bracketed).getD [] ++
      '[' :: (rangeDigits r ++ ']' :: maskText r.mask)) :
    ∃ groups range suffix, e.readGroups e.text.length = .ok (groups, suffix) ∧
      whole.splitGroups groups = .ok (r.dimension, range) ∧
      range.text = rangeDigits r ∧ suffix.text = maskText r.mask := by
  have hrange : ']' ∉ rangeDigits r := by
    unfold rangeDigits
    split
    · exact not_mem_decimal (by decide)
    · simp [not_mem_decimal (n := r.first) (c := ']') (by decide),
        not_mem_decimal (n := r.last) (c := ']') (by decide)]
  have hmask : (maskText r.mask).head? ≠ some '[' := by
    unfold maskText
    split
    · simp
    · simp
  cases hdim : r.dimension with
  | none =>
      rw [hdim] at h
      have hlength : e.text.length = (rangeDigits r ++ ']' :: maskText r.mask).length + 1 := by
        rw [h]
        rfl
      obtain ⟨range, suffix, hr', hs, hread⟩ := readGroups_cons h hrange
        (rangeDigits r ++ ']' :: maskText r.mask).length
      have hend : suffix.text.head? ≠ some '[' := by rw [hs]; exact hmask
      rw [readGroups_nil hend] at hread
      exact ⟨[range], range, suffix, by rw [hlength, hread]; rfl, rfl, hr', hs⟩
  | some n =>
      rw [hdim] at h
      have htext : e.text = '[' :: (Text.decimal n ++ ']' ::
          ('[' :: (rangeDigits r ++ ']' :: maskText r.mask))) := by
        rw [h]
        simp [bracketed]
      -- Two groups are longer than two characters, so the fuel does not run out between them.
      obtain ⟨fuel, hlength⟩ : ∃ fuel, e.text.length = fuel + 1 + 1 := by
        rw [htext]
        exact ⟨(Text.decimal n ++ (rangeDigits r ++ ']' :: maskText r.mask)).length + 1,
          by simp; omega⟩
      obtain ⟨dimension, after, hd, ha, hread⟩ := readGroups_cons htext
        (not_mem_decimal (by decide)) (fuel + 1)
      obtain ⟨range, suffix, hr', hs, hread'⟩ := readGroups_cons ha hrange fuel
      have hend : suffix.text.head? ≠ some '[' := by rw [hs]; exact hmask
      rw [hread', readGroups_nil hend] at hread
      refine ⟨[dimension, range], range, suffix, by rw [hlength, hread]; rfl, ?_, hr', hs⟩
      have hn := readNumber_decimal hd (hr.dimension_le n (by simp [hdim]))
      simp only [splitGroups, hn, Reading.ok_bind]
      rfl

theorem readRegister_printed {e : Excerpt} {r : Register} (hr : r.WellFormed)
    (h : e.text = r.render) : e.readRegister = .ok r := by
  rw [register_render_eq] at h
  obtain ⟨rest, hrest⟩ : ∃ rest, (r.dimension.map bracketed).getD [] ++
      '[' :: (rangeDigits r ++ ']' :: maskText r.mask) = '[' :: rest := by
    cases r.dimension with
    | none => exact ⟨_, rfl⟩
    | some n => exact ⟨_, rfl⟩
  rw [hrest] at h
  obtain ⟨hname, hgroups⟩ := cut_at h (bracket_not_mem_fileName r.file)
  rw [← hrest] at hgroups
  have hopen : (e.startingAt '[').isEmpty = false := by rw [isEmpty, hgroups, hrest]; rfl
  obtain ⟨groups, range, suffix, hread, hsplit, hrange, hsuffix⟩ :=
    readGroups_printed e hr hgroups
  rw [readRegister_eq_ok_iff, hname]
  exact ⟨hopen, RegisterFile.ofName?_name r.file, groups, suffix, range, hread, hsplit,
    readRange_printed hr hrange, hr.first_le_last,
    readSuffix_printed hr.mask_ne_zero hr.mask_lt hsuffix⟩

/-! ### Semantics -/

theorem bracket_not_mem_name {b : Binding} (hb : b.WellFormed) : '[' ∉ b.name :=
  fun h => Text.ne_of_class ((isSemanticName_forall hb.name).2 _ h) (by decide) rfl

theorem text_before_bracket_printed {e : Excerpt} {b : Binding} (hb : b.WellFormed)
    (h : e.text = b.render) : (e.before '[').text = b.name := by
  have hplain := bracket_not_mem_name hb
  unfold Binding.render at h
  split at h
  · rw [List.append_nil] at h
    rw [← h] at hplain
    rw [(cut_nowhere hplain).1, h]
  · exact (cut_at h hplain).1

theorem readSemanticIndex_printed {e : Excerpt} {b : Binding} (hb : b.WellFormed)
    (h : e.text = b.render) : e.readSemanticIndex (e.startingAt '[') = .ok b.index := by
  have hplain := bracket_not_mem_name hb
  unfold Binding.render at h
  split at h
  · rename_i hzero
    rw [List.append_nil] at h
    rw [← h] at hplain
    have hempty : (e.startingAt '[').isEmpty = true := by
      rw [isEmpty, (cut_nowhere hplain).2]
      rfl
    rw [readSemanticIndex, if_pos hempty, hzero]
  · have hbracket : (e.startingAt '[').text = '[' :: (Text.decimal b.index ++ [']']) :=
      (cut_at h hplain).2
    have hopen : (e.startingAt '[').isEmpty = false := by rw [isEmpty, hbracket]; rfl
    have hinner : (e.startingAt '[').tail.text = Text.decimal b.index ++ [']'] := by
      rw [text_tail, hbracket, List.tail_cons]
    have hdigits : (e.startingAt '[').tail.dropLast.text = Text.decimal b.index := by
      rw [text_dropLast, hinner, List.dropLast_concat]
    have hlast : (Text.decimal b.index ++ [']']).getLast? = some ']' := by simp
    have hmax : b.index ≤ maxNumber := hb.index_le.trans (by decide)
    unfold readSemanticIndex
    simp only [hopen, Bool.false_eq_true, if_false, hinner, hlast, if_true,
      readNumber_decimal hdigits hmax, Reading.ok_bind, if_neg (Nat.not_lt.mpr hb.index_le)]
    rfl

theorem readSemantic_printed {e : Excerpt} {b : Binding} (hb : b.WellFormed)
    (h : e.text = b.render) : e.readSemantic = .ok b := by
  unfold readSemantic
  simp only [text_before_bracket_printed hb h, readSemanticIndex_printed hb h, Reading.ok_bind,
    hb.name, if_true, hb.ofName]
  rfl

end Excerpt

/-! ### Declarations -/

/-- The characters of a printed register or semantic. -/
def isRegisterChar (c : Char) : Bool :=
  isUpperOrUnderscore c || c.isDigit || ['[', ']', '.', 'x', 'y', 'z', 'w'].contains c

theorem isRegisterChar_spec {c : Char} (h : isRegisterChar c = true) :
    isBlank c = false ∧ c ≠ ',' ∧ c ≠ '\n' ∧ c ≠ ';' := by
  have hne : ∀ d, isRegisterChar d = false → c ≠ d := fun d hd => Text.ne_of_class h hd
  refine ⟨?_, hne _ (by decide), hne _ (by decide), hne _ (by decide)⟩
  simp only [isRegisterChar, Bool.or_eq_true] at h
  rcases h with (h | h) | h
  · exact isBlank_of_isUpperOrUnderscore h
  · exact Text.not_isBlank_of_isDigit h
  · have hall : ∀ d ∈ ['[', ']', '.', 'x', 'y', 'z', 'w'], isBlank d = false := by decide
    exact hall c (by simpa using h)

theorem isRegisterChar_of_mem_decimal {n : Nat} {c : Char} (h : c ∈ Text.decimal n) :
    isRegisterChar c = true := by
  simp [isRegisterChar, Text.isDigit_of_mem_decimal h]

theorem isRegisterChar_of_mem_bracketed {n : Nat} {c : Char} (h : c ∈ bracketed n) :
    isRegisterChar c = true := by
  simp only [bracketed, List.mem_append] at h
  rcases h with (h | h) | h
  · obtain rfl : c = '[' := by simpa using h
    rfl
  · exact isRegisterChar_of_mem_decimal h
  · obtain rfl : c = ']' := by simpa using h
    rfl

theorem isRegisterChar_of_mem_maskText {mask : UInt8} {c : Char} (h : c ∈ maskText mask) :
    isRegisterChar c = true := by
  have hsubset : maskText mask ⊆ ['.', 'x', 'y', 'z', 'w'] := by
    unfold maskText
    split
    · simp
    · split <;> split <;> split <;> split <;> simp
  have hall : ∀ d ∈ ['.', 'x', 'y', 'z', 'w'], isRegisterChar d = true := by decide
  exact hall c (hsubset h)

theorem isRegisterChar_of_mem_rangeText {r : Register} {c : Char} (h : c ∈ r.rangeText) :
    isRegisterChar c = true := by
  unfold Register.rangeText at h
  split at h
  · exact isRegisterChar_of_mem_bracketed h
  · simp only [List.mem_append] at h
    rcases h with (((h | h) | h) | h) | h
    · obtain rfl : c = '[' := by simpa using h
      rfl
    · exact isRegisterChar_of_mem_decimal h
    · obtain rfl : c = '.' := by simpa using h
      rfl
    · exact isRegisterChar_of_mem_decimal h
    · obtain rfl : c = ']' := by simpa using h
      rfl

theorem isRegisterChar_of_mem_register {r : Register} {c : Char} (h : c ∈ r.render) :
    isRegisterChar c = true := by
  simp only [Register.render, List.mem_append] at h
  rcases h with ((h | h) | h) | h
  · have hall : ∀ file : RegisterFile, ∀ d ∈ file.name, isRegisterChar d = true := by
      intro file
      cases file <;> decide
    exact hall _ c h
  · cases hdim : r.dimension with
    | none => simp [hdim] at h
    | some n => exact isRegisterChar_of_mem_bracketed (by simpa [hdim] using h)
  · exact isRegisterChar_of_mem_rangeText h
  · exact isRegisterChar_of_mem_maskText h

theorem isRegisterChar_of_mem_binding {b : Binding} (hb : b.WellFormed) {c : Char}
    (h : c ∈ b.render) : isRegisterChar c = true := by
  rcases List.mem_append.mp h with h | h
  · simp [isRegisterChar, (isSemanticName_forall hb.name).2 c h]
  · split at h
    · cases h
    · exact isRegisterChar_of_mem_bracketed h

theorem depth_decimal (n : Nat) : Text.depth (Text.decimal n) = 0 :=
  Text.depth_of_plain fun _ hc =>
    Text.nesting_of_class (p := Char.isDigit) (by decide) (Text.isDigit_of_mem_decimal hc)

theorem depth_bracketed (n : Nat) : Text.depth (bracketed n) = 0 := by
  have hopen : Text.depth "[".toList = 1 := rfl
  have hclose : Text.depth "]".toList = -1 := rfl
  rw [bracketed, Text.depth_append, Text.depth_append, depth_decimal, hopen, hclose]
  rfl

theorem depth_rangeText (r : Register) : Text.depth r.rangeText = 0 := by
  have hopen : Text.depth "[".toList = 1 := rfl
  have hdots : Text.depth "..".toList = 0 := rfl
  have hclose : Text.depth "]".toList = -1 := rfl
  unfold Register.rangeText
  split
  · exact depth_bracketed r.first
  · rw [Text.depth_append, Text.depth_append, Text.depth_append, Text.depth_append, depth_decimal,
      depth_decimal, hopen, hdots, hclose]
    rfl

theorem depth_maskText (mask : UInt8) : Text.depth (maskText mask) = 0 := by
  unfold maskText
  split
  · rfl
  · split <;> split <;> split <;> split <;> rfl

theorem depth_register (r : Register) : Text.depth r.render = 0 := by
  have hname : ∀ file : RegisterFile, Text.depth file.name = 0 := by
    intro file
    cases file <;> rfl
  have hdim : Text.depth ((r.dimension.map bracketed).getD []) = 0 := by
    cases r.dimension with
    | none => rfl
    | some n => exact depth_bracketed n
  rw [Register.render, Text.depth_append, Text.depth_append, Text.depth_append, hname, hdim,
    depth_rangeText, depth_maskText]
  rfl

theorem depth_binding {b : Binding} (hb : b.WellFormed) : Text.depth b.render = 0 := by
  have hname : Text.depth b.name = 0 :=
    Text.depth_of_plain fun c hc =>
      Text.nesting_of_class (p := isUpperOrUnderscore) (by decide)
        ((isSemanticName_forall hb.name).2 c hc)
  rw [Binding.render, Text.depth_append, hname]
  split
  · rfl
  · rw [depth_bracketed]
    rfl

theorem register_isWord (r : Register) : r.render.IsWord := by
  refine ⟨?_, fun c hc => (isRegisterChar_spec (isRegisterChar_of_mem_register hc)).1⟩
  have hname : ∀ file : RegisterFile, file.name ≠ [] := by
    intro file
    cases file <;> decide
  simp [Register.render, hname]

theorem binding_isWord {b : Binding} (hb : b.WellFormed) : b.render.IsWord := by
  refine ⟨?_, fun c hc => (isRegisterChar_spec (isRegisterChar_of_mem_binding hb hc)).1⟩
  simp [Binding.render, (isSemanticName_forall hb.name).1]

theorem register_commaFree (r : Register) : Text.CommaFree 0 r.render :=
  Text.commaFree_of_not_mem fun h =>
    (isRegisterChar_spec (isRegisterChar_of_mem_register h)).2.1 rfl

theorem binding_commaFree {b : Binding} (hb : b.WellFormed) : Text.CommaFree 0 b.render :=
  Text.commaFree_of_not_mem fun h =>
    (isRegisterChar_spec (isRegisterChar_of_mem_binding hb h)).2.1 rfl

namespace Declaration

/-- The items of a printed declaration after its register. -/
def qualifiers (d : Declaration) : List Text :=
  d.binding.toList.map Binding.render ++ d.attributes

/-- The declaration that the printed one reads back as. -/
def canonical (d : Declaration) : Declaration :=
  match d.binding with
  | some b =>
    if isDeclarationAttribute b.render then
      { d with binding := none, attributes := b.render :: d.attributes }
    else d
  | none => d

theorem items_qualifiers {d : Declaration} (hd : d.WellFormed) :
    d.qualifiers = [] ∨ Text.Items d.qualifiers := by
  unfold qualifiers
  cases hbinding : d.binding with
  | none => exact hd.items
  | some b =>
      have hb := (hd.binding b hbinding).2
      refine .inr ?_
      rcases hd.items with hnil | hitems
      · rw [hnil]
        exact .last _ (binding_commaFree hb)
      · exact .cons _ _ (binding_commaFree hb) (depth_binding hb) hitems

theorem trimmed_qualifiers {d : Declaration} (hd : d.WellFormed) :
    ∀ t ∈ d.qualifiers, t.Trimmed := by
  intro t ht
  rcases List.mem_append.mp ht with ht | ht
  · obtain ⟨b, hb, rfl⟩ := List.mem_map.mp ht
    exact (binding_isWord (hd.binding b (by simpa using hb)).2).trimmed
  · exact (hd.attributes t ht).1

theorem splitTopLevel_printed {d : Declaration} (hd : d.WellFormed) :
    Text.splitTopLevel (List.intercalate ", " (d.toRegister.render :: d.qualifiers)) =
      d.toRegister.render :: d.qualifiers := by
  apply Text.splitTopLevel_intercalate
  · rcases items_qualifiers hd with hnil | hitems
    · rw [hnil]
      exact .last _ (register_commaFree _)
    · exact .cons _ _ (register_commaFree _) (depth_register _) hitems
  · intro t ht
    rcases List.mem_cons.mp ht with rfl | ht
    · exact (register_isWord _).trimmed
    · exact trimmed_qualifiers hd t ht

end Declaration

namespace Excerpt

theorem readBinding_printed {d : Declaration} (hd : d.WellFormed) {items : List Excerpt}
    (h : items.map (·.text) = d.qualifiers) :
    ∃ attributes, readBinding d.file items = .ok (d.canonical.binding, attributes) ∧
      attributes.map (·.text) = d.canonical.attributes := by
  unfold Declaration.qualifiers at h
  unfold Declaration.canonical
  cases hbinding : d.binding with
  | none =>
      rw [hbinding] at h
      have htexts : items.map (·.text) = d.attributes := h
      refine ⟨items, ?_, htexts⟩
      cases items with
      | nil => rw [readBinding, hbinding]
      | cons item items =>
        rw [readBinding, hbinding, if_neg]
        intro hread
        simp only [Bool.and_eq_true, Bool.not_eq_true'] at hread
        have hattribute := hd.unbound hbinding hread.1 item.text (by rw [← htexts]; simp)
        rw [hattribute] at hread
        cases hread.2
  | some b =>
      obtain ⟨hfile, hb⟩ := hd.binding b hbinding
      rw [hbinding] at h
      obtain ⟨item, items', rfl, hitem, htexts⟩ := List.map_eq_cons_iff.mp
        (show items.map (·.text) = b.render :: d.attributes from h)
      rw [readBinding, hfile, hitem]
      -- Index zero is not printed, so a name that is an attribute is no longer told from one.
      by_cases hattribute : isDeclarationAttribute b.render = true
      · simp only [hattribute, if_true, Bool.not_true, Bool.and_false, Bool.false_eq_true,
          if_false]
        exact ⟨item :: items', rfl, by rw [List.map_cons, hitem, htexts]⟩
      · simp only [hattribute, if_false, Bool.not_false, Bool.and_self, if_true,
          readSemantic_printed hb hitem, Reading.ok_bind, hbinding, Bool.false_eq_true]
        exact ⟨items', rfl, htexts⟩

theorem readDeclaration_printed {d : Declaration} (hd : d.WellFormed) (line : Excerpt)
    {rest : Excerpt}
    (h : rest.text = Text.trim (List.intercalate ", " (d.toRegister.render :: d.qualifiers))) :
    line.readDeclaration rest = .ok { d.canonical with span := line.span } := by
  have htexts : rest.splitTopLevel.map (·.text) = d.toRegister.render :: d.qualifiers := by
    rw [map_text_splitTopLevel, h, Text.splitTopLevel_trim, Declaration.splitTopLevel_printed hd]
  obtain ⟨item, items, hsplit, hitem, hitems⟩ := List.map_eq_cons_iff.mp htexts
  obtain ⟨attributes, hbinding, hattributes⟩ := readBinding_printed hd hitems
  have hopen : item.isEmpty = false := by
    rw [isEmpty, hitem, List.isEmpty_eq_false_iff]
    exact (register_isWord _).ne_nil
  have hregister : d.canonical.toRegister = d.toRegister := by
    unfold Declaration.canonical
    split
    · split <;> rfl
    · rfl
  refine readDeclaration_eq_ok_iff.mpr
    ⟨item, items, attributes, hsplit, hopen, ?_, ?_, ?_, hattributes.symm, rfl⟩
  · rw [hregister]
    exact readRegister_printed hd.register hitem
  · rw [hregister]
    exact hd.varying
  · rw [hregister]
    exact hbinding

/-! ### The other tokens -/

theorem readProperty_printed {p : Property} (hp : p.WellFormed) (line : Excerpt) {rest : Excerpt}
    (h : rest.text = Text.trim (p.name ++ ' ' :: p.value)) :
    line.readProperty rest = .ok { p with span := line.span } := by
  have htrimmed : (p.name ++ ' ' :: p.value).Trimmed := by
    refine ⟨?_, ?_⟩
    · rw [List.head?_append_of_ne_nil _ hp.name.ne_nil]
      exact hp.name.trimmed.head
    · rw [List.getLast?_append_of_ne_nil _ (List.cons_ne_nil _ _),
        List.getLast?_cons_of_ne_nil hp.value.ne_nil]
      exact hp.value.trimmed.last
  rw [readProperty, h, Text.trim_of_trimmed htrimmed,
    Text.words_pair hp.name.ne_nil hp.value.ne_nil hp.name.not_blank hp.value.not_blank]

/-- A printed list of values has one blank after the brace that opens it, and none before the one
that closes it. -/
theorem bracedText?_printed (values : Text) :
    bracedText? ('\x7b' :: ' ' :: (values ++ ['\x7d'])) = some (' ' :: values) := by
  have hlast : ∀ t : Text, ∀ c ∈ (t ++ ['\x7d']).getLast?, isBlank c = false := by
    intro t c hc
    obtain rfl : '\x7d' = c := by simpa using hc
    decide
  have hbody : Text.trim ('\x7b' :: ' ' :: (values ++ ['\x7d'])) =
      '\x7b' :: ' ' :: (values ++ ['\x7d']) :=
    Text.trim_of_trimmed ⟨by simp; decide, hlast ('\x7b' :: ' ' :: values)⟩
  have hinner : Text.trimEnd (' ' :: (values ++ ['\x7d'])) = ' ' :: (values ++ ['\x7d']) :=
    Text.trimEnd_of_last (hlast (' ' :: values))
  have hend : (' ' :: (values ++ ['\x7d'])).getLast? = some '\x7d' := by
    rw [← List.cons_append, List.getLast?_concat]
  have hrest : (' ' :: (values ++ ['\x7d'])).dropLast = ' ' :: values := by
    rw [← List.cons_append, List.dropLast_concat]
  rw [bracedText?, hbody]
  simp only [hinner, hend, if_true, hrest]

theorem immediateValues_printed {i : Immediate} (hi : i.WellFormed) :
    immediateValues (' ' :: List.intercalate ", " i.values) = i.values := by
  have hvalues := Text.splitValues_intercalate hi.values_ne_nil
    (fun v hv => ⟨(hi.values v hv).2.1, (hi.values v hv).2.2.1⟩) (b := [' ']) (by decide)
  rw [immediateValues, ← List.singleton_append, hvalues, List.filter_eq_self]
  intro v hv
  simpa using (hi.values v hv).1

theorem immediateKind_isWord {kind : Text} (h : kind ∈ immediateKinds) : kind.IsWord := by
  have hall : ∀ kind ∈ immediateKinds, kind ≠ [] ∧ ∀ c ∈ kind, isBlank c = false := by decide
  exact ⟨(hall kind h).1, (hall kind h).2⟩

theorem readImmediate_printed {i : Immediate} (hi : i.WellFormed) (line : Excerpt) {rest : Excerpt}
    (h : rest.text =
      Text.trim (i.kind ++ ' ' :: '\x7b' :: ' ' :: (List.intercalate ", " i.values ++ ['\x7d']))) :
    line.readImmediate rest = .ok { i with span := line.span } := by
  obtain ⟨hkind, hbody⟩ :=
    splitWord_line h (immediateKind_isWord hi.kind) ⟨'\x7b', by simp, by decide⟩
  have hinner : bracedText? rest.splitWord.2.text =
      some (' ' :: List.intercalate ", " i.values) := by
    rw [hbody, ← bracedText?_printed]
    unfold bracedText?
    rw [Text.trim_trim]
  have hsize : ¬ (i.values.isEmpty || decide (4 < i.values.length)) = true := by
    simp [hi.values_ne_nil, hi.length_le]
  unfold readImmediate
  simp only [hkind, List.contains_iff_mem, hi.kind, if_true, hinner, immediateValues_printed hi]
  rw [if_neg hsize]

end Excerpt

theorem Text.head_intercalate {ts : List Text} (hne : ts ≠ []) (hone : ts ≠ [[]])
    (htrim : ∀ t ∈ ts, t.Trimmed) :
    ∃ c ∈ (List.intercalate ", ".toList ts).head?, isBlank c = false := by
  obtain ⟨t, ts, rfl⟩ := List.exists_cons_of_ne_nil hne
  cases t with
  | cons c t =>
      refine ⟨c, ?_, (htrim (c :: t) (by simp)).head c (by simp)⟩
      cases ts <;> simp [List.intercalate_cons_cons]
  | nil =>
      cases ts with
      | nil => exact absurd rfl hone
      | cons t' ts => exact ⟨',', by simp [List.intercalate_cons_cons], by decide⟩

namespace Immediate

/-- The label of an immediate that is printed as the `n`th one. -/
def label (n : Nat) : Text :=
  "IMM" ++ bracketed n

theorem label_isWord (n : Nat) : (label n).IsWord := by
  refine ⟨by simp [label], fun c hc => ?_⟩
  rcases List.mem_append.mp hc with hc | hc
  · have hall : ∀ d ∈ "IMM".toList, isBlank d = false := by decide
    exact hall c hc
  · exact (isRegisterChar_spec (isRegisterChar_of_mem_bracketed hc)).1

theorem render_eq (n : Nat) (i : Immediate) :
    i.render n = label n ++ ' ' ::
      (i.kind ++ ' ' :: '\x7b' :: ' ' :: (List.intercalate ", " i.values ++ ['\x7d'])) := by
  have hassoc : ∀ word kind values : Text,
      word ++ [' '] ++ kind ++ [' ', '\x7b', ' '] ++ values ++ ['\x7d'] =
        word ++ ' ' :: (kind ++ ' ' :: '\x7b' :: ' ' :: (values ++ ['\x7d'])) := by
    intro word kind values
    simp
  exact hassoc (label n) i.kind (List.intercalate ", " i.values)

end Immediate

namespace Instruction

/-- What is printed after the opcode. -/
def operandText (i : Instruction) : Text :=
  if i.operands.isEmpty then [] else ' ' :: List.intercalate ", " i.operands

/-- The label of an instruction that is printed as the `n`th one. -/
def label (n : Nat) : Text :=
  Text.decimal n ++ [':']

theorem label_isWord (n : Nat) : (label n).IsWord := by
  refine ⟨by simp [label], fun c hc => ?_⟩
  rcases List.mem_append.mp hc with hc | hc
  · exact (Text.isWord_decimal n).not_blank c hc
  · obtain rfl : c = ':' := by simpa using hc
    decide

theorem trim_render (n : Nat) (i : Instruction) :
    Text.trim (i.render n) = Text.trim (label n ++ ' ' :: (i.opcode ++ i.operandText)) := by
  have htext : i.render n = List.replicate (3 - (Text.decimal n).length) ' ' ++
      (label n ++ ' ' :: (i.opcode ++ i.operandText)) := by
    simp [render, label, operandText, Text.padLeft]
  have hblank : ∀ c ∈ List.replicate (3 - (Text.decimal n).length) ' ', isBlank c = true := by
    intro c hc
    obtain ⟨-, rfl⟩ := List.mem_replicate.mp hc
    decide
  rw [htext, Text.trim_blank_append hblank]

end Instruction

namespace Excerpt

theorem splitWord_label {i : Instruction} (hi : i.WellFormed) {line : Excerpt} {n : Nat}
    (h : line.text = Text.trim (i.render n)) :
    line.splitWord.1.text = Instruction.label n ∧
      line.splitWord.2.text = Text.trim (i.opcode ++ i.operandText) := by
  rw [Instruction.trim_render] at h
  refine splitWord_line h (Instruction.label_isWord n) ?_
  have hword := isOpcode_isWord hi.opcode
  obtain ⟨c, rest, heq⟩ := List.exists_cons_of_ne_nil hword.ne_nil
  exact ⟨c, by simp [heq], hword.not_blank c (by simp [heq])⟩

theorem readOperands_printed {i : Instruction} (hi : i.WellFormed) {body : Excerpt}
    (h : body.text = Text.trim (i.opcode ++ i.operandText)) :
    body.splitWord.1.text = i.opcode ∧
      (if (Text.trim body.splitWord.2.text).isEmpty then []
        else Text.splitTopLevel body.splitWord.2.text) = i.operands := by
  have hword := isOpcode_isWord hi.opcode
  unfold Instruction.operandText at h
  rcases hi.items with hnil | ⟨hitems, hone⟩
  · have htext : body.text = i.opcode ++ [] := by
      rw [h, hnil]
      simpa using Text.trim_of_trimmed hword.trimmed
    obtain ⟨hopcode, hrest⟩ := splitWord_of_text htext hword.ne_nil hword.not_blank (by simp)
    exact ⟨hopcode, by rw [hrest, hnil]; rfl⟩
  · have htrimmed : ∀ o ∈ i.operands, o.Trimmed := fun o ho => (hi.operands o ho).1
    rw [if_neg (by simpa using hitems.ne_nil)] at h
    have hhead := Text.head_intercalate hitems.ne_nil hone htrimmed
    obtain ⟨hopcode, hrest⟩ := splitWord_line h hword hhead
    refine ⟨hopcode, ?_⟩
    have hsome : (Text.trim (List.intercalate ", " i.operands)).isEmpty = false := by
      obtain ⟨c, hc, hblank⟩ := hhead
      obtain ⟨rest, heq⟩ := List.head?_eq_some_iff.mp hc
      rw [heq, Text.trim_cons_of_not_blank hblank]
      rfl
    rw [hrest, Text.trim_trim, hsome, if_neg (by simp), Text.splitTopLevel_trim,
      Text.splitTopLevel_intercalate hitems htrimmed]

theorem readInstruction_printed {i : Instruction} (hi : i.WellFormed) {line : Excerpt} {n : Nat}
    (h : line.text = Text.trim (i.render n)) :
    line.readInstruction = .ok { i with span := line.span } := by
  obtain ⟨hlabel, hbody⟩ := splitWord_label hi h
  obtain ⟨hopcode, hoperands⟩ := readOperands_printed hi hbody
  have hcolon : (Instruction.label n).getLast? = some ':' := by simp [Instruction.label]
  have hdigits : isLabel (Instruction.label n).dropLast = true := by
    rw [Instruction.label, List.dropLast_concat, isLabel_decimal]
  have hdrop : line.dropLabel = .ok line.splitWord.2 := by
    unfold dropLabel
    simp only [hlabel, hcolon, hdigits, if_true]
  unfold readInstruction
  simp only [hdrop, Reading.ok_bind, hopcode, hi.opcode, if_true, hoperands]
  rfl

/-! ### Lines -/

/-- The first word of a line decides how it is read. -/
theorem readToken_eq (line : Excerpt) :
    line.readToken =
      if line.splitWord.1.text = "PROPERTY" then
        (line.readProperty line.splitWord.2).map .property
      else if line.splitWord.1.text = "DCL" then
        (line.readDeclaration line.splitWord.2).map .declaration
      else if List.isPrefixOf "IMM[".toList line.splitWord.1.text then
        (line.readImmediate line.splitWord.2).map .immediate
      else line.readInstruction.map .instruction := rfl

theorem readToken_property {p : Property} (hp : p.WellFormed) {line : Excerpt}
    (h : line.text = Text.trim p.render) :
    line.readToken = .ok (.property { p with span := line.span }) := by
  have htext : p.render = "PROPERTY".toList ++ ' ' :: (p.name ++ ' ' :: p.value) := by
    -- The keyword is a variable here: a literal would be unfolded at every rewriting step.
    have hassoc : ∀ word s t : Text,
        (word ++ [' ']) ++ s ++ [' '] ++ t = word ++ ' ' :: (s ++ ' ' :: t) := by
      intro word s t
      simp
    exact hassoc "PROPERTY" p.name p.value
  rw [htext] at h
  obtain ⟨c, name, hname⟩ := List.exists_cons_of_ne_nil hp.name.ne_nil
  obtain ⟨hword, hrest⟩ := splitWord_line h ⟨by decide, by decide⟩
    ⟨c, by simp [hname], hp.name.not_blank c (by simp [hname])⟩
  rw [readToken_eq, hword, if_pos rfl, readProperty_printed hp line hrest]
  rfl

theorem splitWord_declaration {d : Declaration} {line : Excerpt}
    (h : line.text = Text.trim d.render) :
    line.splitWord.1.text = "DCL".toList ∧ line.splitWord.2.text =
      Text.trim (List.intercalate ", " (d.toRegister.render :: d.qualifiers)) := by
  have htext : d.render =
      "DCL".toList ++ ' ' :: List.intercalate ", " (d.toRegister.render :: d.qualifiers) := rfl
  rw [htext] at h
  have hregister := register_isWord d.toRegister
  obtain ⟨c, name, hname⟩ := List.exists_cons_of_ne_nil hregister.ne_nil
  have hhead : c ∈ (List.intercalate ", " (d.toRegister.render :: d.qualifiers)).head? := by
    rw [hname]
    cases d.qualifiers <;> simp [List.intercalate]
  exact splitWord_line h ⟨by decide, by decide⟩
    ⟨c, hhead, hregister.not_blank c (by simp [hname])⟩

theorem readToken_declaration {d : Declaration} (hd : d.WellFormed) {line : Excerpt}
    (h : line.text = Text.trim d.render) :
    line.readToken = .ok (.declaration { d.canonical with span := line.span }) := by
  obtain ⟨hword, hrest⟩ := splitWord_declaration h
  rw [readToken_eq, hword, if_neg (by decide), if_pos rfl, readDeclaration_printed hd line hrest]
  rfl

theorem splitWord_immediate {i : Immediate} (hi : i.WellFormed) {line : Excerpt} {n : Nat}
    (h : line.text = Text.trim (i.render n)) :
    line.splitWord.1.text = Immediate.label n ∧
      line.splitWord.2.text =
        Text.trim
          (i.kind ++ ' ' :: '\x7b' :: ' ' :: (List.intercalate ", " i.values ++ ['\x7d'])) := by
  rw [Immediate.render_eq] at h
  have hkind := immediateKind_isWord hi.kind
  obtain ⟨c, rest, hcons⟩ := List.exists_cons_of_ne_nil hkind.ne_nil
  exact splitWord_line h (Immediate.label_isWord n)
    ⟨c, by simp [hcons], hkind.not_blank c (by simp [hcons])⟩

theorem readToken_immediate {i : Immediate} (hi : i.WellFormed) {line : Excerpt} {n : Nat}
    (h : line.text = Text.trim (i.render n)) :
    line.readToken = .ok (.immediate { i with span := line.span }) := by
  obtain ⟨hword, hrest⟩ := splitWord_immediate hi h
  have hhead : (Immediate.label n).head? = some 'I' := rfl
  have hproperty : Immediate.label n ≠ "PROPERTY".toList :=
    mt (congrArg List.head?) (by rw [hhead]; decide)
  have hdeclaration : Immediate.label n ≠ "DCL".toList :=
    mt (congrArg List.head?) (by rw [hhead]; decide)
  have himmediate : List.isPrefixOf "IMM[".toList (Immediate.label n) = true := rfl
  rw [readToken_eq, hword, if_neg hproperty, if_neg hdeclaration, if_pos himmediate,
    readImmediate_printed hi line hrest]
  rfl

theorem readToken_instruction {i : Instruction} (hi : i.WellFormed) {line : Excerpt} {n : Nat}
    (h : line.text = Text.trim (i.render n)) :
    line.readToken = .ok (.instruction { i with span := line.span }) := by
  obtain ⟨hword, -⟩ := splitWord_label hi h
  obtain ⟨c, digits, hdigits⟩ := List.exists_cons_of_ne_nil (Text.decimal_ne_nil n)
  have hdigit : c.isDigit = true := Text.isDigit_of_mem_decimal (n := n) (by simp [hdigits])
  have hne : ∀ d : Char, d.isDigit = false → c ≠ d := fun d hd => Text.ne_of_class hdigit hd
  have hlabel : Instruction.label n = c :: (digits ++ [':']) := by
    rw [Instruction.label, hdigits, List.cons_append]
  have hhead : (Instruction.label n).head? = some c := by rw [hlabel, List.head?_cons]
  have hproperty : Instruction.label n ≠ "PROPERTY".toList :=
    mt (congrArg List.head?) (by simp [hhead, hne 'P' (by decide)])
  have hdeclaration : Instruction.label n ≠ "DCL".toList :=
    mt (congrArg List.head?) (by simp [hhead, hne 'D' (by decide)])
  have himmediate : ¬ List.isPrefixOf "IMM[".toList (Instruction.label n) = true := by
    simp [hlabel, List.isPrefixOf, (hne 'I' (by decide)).symm]
  rw [readToken_eq, hword, if_neg hproperty, if_neg hdeclaration, if_neg himmediate,
    readInstruction_printed hi h]
  rfl

end Excerpt

end ShaderBackend
