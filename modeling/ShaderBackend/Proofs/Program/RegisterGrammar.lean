import ShaderBackend.Proofs.Program.Printed

/-!
The grammar of registers. A register is written as the name of its file, an optional dimension in
brackets, a number or a range of numbers in brackets, and an optional write mask. The relations here
say which texts are of this form and what they denote; the reader accepts exactly these texts, and
as what they denote.
-/

namespace ShaderBackend

namespace Text

/-- A 32-bit number: digits, after an optional plus sign, with blanks around them. -/
def SpellsNumber (t : Text) (n : Nat) : Prop :=
  ∃ digits : Text, (trim t = digits ∨ trim t = '+' :: digits) ∧ digits ≠ [] ∧
    (∀ c ∈ digits, c.isDigit = true) ∧ Nat.ofDigitChars 10 digits 0 = n ∧ n ≤ maxNumber

/-- One number, or two numbers in order with two dots between them. -/
inductive SpellsRange : Text → Nat → Nat → Prop
  | single {t : Text} {n : Nat} (h : t.SpellsNumber n) : SpellsRange t n n
  | pair {s t : Text} {first last : Nat} (hs : s.SpellsNumber first) (ht : t.SpellsNumber last)
      (hle : first ≤ last) : SpellsRange (s ++ '.' :: '.' :: t) first last

/-- A number in brackets, or nothing. -/
inductive SpellsDimension : Text → Option Nat → Prop
  | absent : SpellsDimension [] none
  | present {t : Text} {n : Nat} (h : t.SpellsNumber n) :
      SpellsDimension ('[' :: (t ++ [']'])) (some n)

/-- The components in their order. -/
def components : Text := ['x', 'y', 'z', 'w']

/-- The bits of the components that stand in a text. -/
def componentBits (t : Text) : UInt8 :=
  (if 'x' ∈ t then 1 else 0) ||| (if 'y' ∈ t then 2 else 0) ||| (if 'z' ∈ t then 4 else 0) |||
    (if 'w' ∈ t then 8 else 0)

/-- A dot and some of the components in their order, each at most once; or nothing, for all. -/
inductive SpellsMask : Text → UInt8 → Prop
  | absent : SpellsMask [] 0xf
  | present {t : Text} (hne : t ≠ []) (h : t.Sublist components) :
      SpellsMask ('.' :: t) (componentBits t)

inductive SpellsRegister : Text → Register → Prop
  | intro {dimension range suffix : Text} {r : Register}
      (hdimension : dimension.SpellsDimension r.dimension)
      (hrange : range.SpellsRange r.first r.last) (hmask : suffix.SpellsMask r.mask) :
      SpellsRegister (r.file.name ++ (dimension ++ '[' :: (range ++ ']' :: suffix))) r

/-! ### Characters of a number -/

theorem SpellsNumber.mem {t : Text} {n : Nat} (h : t.SpellsNumber n) {c : Char} (hc : c ∈ t) :
    isBlank c = true ∨ c = '+' ∨ c.isDigit = true := by
  obtain ⟨digits, htrim, -, hdigits, -, -⟩ := h
  obtain ⟨b, b', hb, hb', ht⟩ := exists_trim t
  rw [ht, List.mem_append, List.mem_append] at hc
  rcases hc with (hc | hc) | hc
  · exact .inl (hb c hc)
  · rcases htrim with htrim | htrim
    · rw [htrim] at hc
      exact .inr (.inr (hdigits c hc))
    · rw [htrim] at hc
      rcases List.mem_cons.mp hc with rfl | hc
      · exact .inr (.inl rfl)
      · exact .inr (.inr (hdigits c hc))
  · exact .inl (hb' c hc)

/-- What delimits a number cannot stand in it. -/
theorem SpellsNumber.not_mem {t : Text} {n : Nat} (h : t.SpellsNumber n) {c : Char}
    (hblank : isBlank c = false) (hplus : c ≠ '+') (hdigit : c.isDigit = false) : c ∉ t := by
  intro hc
  rcases h.mem hc with hc | hc | hc
  · rw [hblank] at hc
    cases hc
  · exact hplus hc
  · rw [hdigit] at hc
    cases hc

theorem SpellsNumber.dot_not_mem {t : Text} {n : Nat} (h : t.SpellsNumber n) : '.' ∉ t :=
  h.not_mem (by decide) (by decide) (by decide)

theorem SpellsNumber.bracket_not_mem {t : Text} {n : Nat} (h : t.SpellsNumber n) : ']' ∉ t :=
  h.not_mem (by decide) (by decide) (by decide)

/-- The groups start with a bracket, also where the dimension is absent. -/
theorem SpellsDimension.exists_append {t : Text} {dimension : Option Nat}
    (h : t.SpellsDimension dimension) (rest : Text) :
    ∃ inner, t ++ '[' :: rest = '[' :: inner := by
  cases h with
  | absent => exact ⟨rest, rfl⟩
  | present => exact ⟨_, rfl⟩

theorem SpellsRange.bracket_not_mem {t : Text} {first last : Nat}
    (h : t.SpellsRange first last) : ']' ∉ t := by
  cases h with
  | single h => exact h.bracket_not_mem
  | pair hs ht _ => simp [hs.bracket_not_mem, ht.bracket_not_mem]

theorem SpellsRange.le {t : Text} {first last : Nat} (h : t.SpellsRange first last) :
    first ≤ last := by
  cases h with
  | single => exact Nat.le_refl _
  | pair _ _ hle => exact hle

theorem SpellsMask.head_ne {t : Text} {mask : UInt8} (h : t.SpellsMask mask) :
    t.head? ≠ some '[' := by
  cases h with
  | absent => simp
  | present => simp

end Text

namespace Excerpt

/-! ### Numbers and ranges -/

theorem readNumber_eq_ok_iff {e : Excerpt} {n : Nat} :
    e.readNumber = .ok n ↔ e.text.SpellsNumber n := by
  rw [Text.SpellsNumber, ← Text.readNumber?_eq_some_iff, readNumber]
  cases Text.readNumber? 10 (Text.trim e.text) with
  | none => simp [fail]
  | some m => simp

theorem readRange_eq_ok_iff {e : Excerpt} {first last : Nat} :
    e.readRange = .ok (first, last) ∧ first ≤ last ↔ e.text.SpellsRange first last := by
  constructor
  · rintro ⟨h, hle⟩
    unfold readRange at h
    split at h
    · rename_i left right hcut
      simp only [Reading.bind_eq_ok_iff, readNumber_eq_ok_iff] at h
      obtain ⟨a, ha, b, hb, h⟩ := h
      cases h
      obtain ⟨⟨s, t⟩, hsplit, hsides⟩ := Option.map_eq_some_iff.mp hcut
      cases hsides
      rw [Text.cutAt?_eq_some hsplit]
      exact .pair ha hb hle
    · simp only [Reading.bind_eq_ok_iff, readNumber_eq_ok_iff] at h
      obtain ⟨n, hn, h⟩ := h
      cases h
      exact .single hn
  · intro h
    refine ⟨?_, h.le⟩
    generalize htext : e.text = t at h
    cases h with
    | single h =>
        have hcut : e.cutAt? ".." = none := by
          rw [cutAt?, htext, cutAt?_dots_none h.dot_not_mem]
          rfl
        have hn : e.readNumber = .ok first := readNumber_eq_ok_iff.mpr (htext ▸ h)
        rw [readRange, hcut]
        simp only [hn, Reading.ok_bind]
        rfl
    | pair hs ht _ =>
        obtain ⟨left, right, hcut, hleft, hright⟩ : ∃ left right,
            e.cutAt? ".." = some (left, right) ∧ left.text = _ ∧ right.text = _ := by
          rw [cutAt?, htext, cutAt?_dots hs.dot_not_mem]
          exact ⟨_, _, rfl, rfl, rfl⟩
        have hfirst : left.readNumber = .ok first := readNumber_eq_ok_iff.mpr (hleft ▸ hs)
        have hlast : right.readNumber = .ok last := readNumber_eq_ok_iff.mpr (hright ▸ ht)
        rw [readRange, hcut]
        simp only [hfirst, hlast, Reading.ok_bind]
        rfl

/-! ### Write masks -/

theorem mem_components_iff {c : Char} : c ∈ Text.components ↔ componentBit? c ≠ none := by
  unfold componentBit?
  split <;> simp_all [Text.components]

/-- A selection of the components from `least` on starts with one of them and goes on behind it. -/
theorem cons_sublist_components_iff {c : Char} {bit : Nat} (h : componentBit? c = some bit)
    (least : Nat) (t : Text) :
    (c :: t).Sublist (Text.components.drop least) ↔
      least ≤ bit ∧ t.Sublist (Text.components.drop (bit + 1)) := by
  unfold componentBit? at h
  split at h <;> cases h
  all_goals
    rcases least with _ | _ | _ | _ | least <;>
      simp [Text.components, List.sublist_cons_iff]

theorem componentBits_cons {c : Char} {bit : Nat} (h : componentBit? c = some bit) (t : Text) :
    Text.componentBits (c :: t) = Text.componentBits t ||| (1 <<< UInt8.ofNat bit) := by
  unfold componentBit? at h
  split at h <;> cases h
  · change _ = _ ||| 1
    by_cases hx : 'x' ∈ t <;> simp [Text.componentBits, hx] <;> ac_rfl
  · change _ = _ ||| 2
    by_cases hy : 'y' ∈ t <;> simp [Text.componentBits, hy] <;> ac_rfl
  · change _ = _ ||| 4
    by_cases hz : 'z' ∈ t <;> simp [Text.componentBits, hz] <;> ac_rfl
  · change _ = _ ||| 8
    by_cases hw : 'w' ∈ t <;> simp [Text.componentBits, hw]
    ac_rfl

theorem componentBits_ne_zero {t : Text} (hne : t ≠ []) (h : t.Sublist Text.components) :
    Text.componentBits t ≠ 0 := by
  have hone : ∀ k < 4, (1 : UInt8) <<< UInt8.ofNat k ≠ 0 := by decide
  obtain ⟨c, t, rfl⟩ := List.exists_cons_of_ne_nil hne
  have hc : c ∈ Text.components := h.subset List.mem_cons_self
  obtain ⟨bit, hbit⟩ := Option.ne_none_iff_exists'.mp (mem_components_iff.mp hc)
  rw [componentBits_cons hbit]
  intro hzero
  exact hone bit (componentBit?_lt hbit) (UInt8.or_eq_zero_iff.mp hzero).2

/-- The letters that are read are a selection of the components that are left. -/
theorem readComponents_eq_ok_iff {whole : Excerpt} {t : Text} {least : Nat} {mask : UInt8} :
    whole.readComponents least t = .ok mask ↔
      t.Sublist (Text.components.drop least) ∧ mask = Text.componentBits t := by
  induction t generalizing least mask with
  | nil =>
      have hbits : Text.componentBits [] = 0 := rfl
      simp [readComponents, hbits, eq_comm]
  | cons c t ih =>
      rw [readComponents]
      cases hbit : componentBit? c with
      | none =>
        -- A character that names no component stands in no selection of them.
        have hc : c ∉ Text.components := fun hc => mem_components_iff.mp hc hbit
        have hnot : ¬ (c :: t).Sublist (Text.components.drop least) := fun h =>
          hc ((List.drop_sublist _ _).subset (h.subset List.mem_cons_self))
        simp [hnot, fail]
      | some bit =>
        rw [cons_sublist_components_iff hbit, componentBits_cons hbit]
        dsimp only
        split
        · rename_i hlt
          simp [Nat.not_le.mpr hlt, fail]
        · rename_i hle
          simp only [Reading.bind_eq_ok_iff, ih, Nat.le_of_not_lt hle, true_and]
          constructor
          · rintro ⟨m, ⟨ht, rfl⟩, h⟩
            cases h
            exact ⟨ht, rfl⟩
          · rintro ⟨ht, rfl⟩
            exact ⟨_, ⟨ht, rfl⟩, rfl⟩

theorem readMask_eq_ok_iff {e : Excerpt} {mask : UInt8} :
    e.readMask = .ok mask ↔
      e.text ≠ [] ∧ e.text.Sublist Text.components ∧ mask = Text.componentBits e.text := by
  constructor
  · intro h
    unfold readMask at h
    obtain ⟨bits, hbits, h⟩ := Reading.bind_eq_ok_iff.mp h
    obtain ⟨hsublist, rfl⟩ := readComponents_eq_ok_iff.mp hbits
    split at h
    · cases h
    · rename_i hne
      cases h
      refine ⟨fun hnil => hne ?_, hsublist, rfl⟩
      rw [hnil]
      rfl
  · rintro ⟨hne, hsublist, rfl⟩
    have hread : e.readComponents 0 e.text = .ok (Text.componentBits e.text) :=
      readComponents_eq_ok_iff.mpr ⟨hsublist, rfl⟩
    rw [readMask, hread]
    exact if_neg (componentBits_ne_zero hne hsublist)

theorem readSuffix_eq_ok_iff {e : Excerpt} {mask : UInt8} :
    e.readSuffix = .ok mask ↔ e.text.SpellsMask mask := by
  constructor
  · intro h
    unfold readSuffix at h
    split at h
    · rename_i hnil
      cases h
      rw [hnil]
      exact .absent
    · rename_i letters hdot
      have htail : e.tail.text = letters := by rw [text_tail, hdot, List.tail_cons]
      rw [readMask_eq_ok_iff, htail] at h
      obtain ⟨hne, hsublist, rfl⟩ := h
      rw [hdot]
      exact .present hne hsublist
    · cases h
  · intro h
    generalize htext : e.text = t at h
    unfold readSuffix
    cases h with
    | absent => rw [htext]
    | present hne hsublist =>
        rw [htext]
        apply readMask_eq_ok_iff.mpr
        rw [text_tail, htext, List.tail_cons]
        exact ⟨hne, hsublist, rfl⟩

/-! ### Groups -/

/-- Texts in brackets, one after the other. -/
def groupsText (groups : List Text) : Text :=
  groups.flatMap fun group => '[' :: (group ++ [']'])

theorem text_of_readGroups {fuel : Nat} {e rest : Excerpt} {groups : List Excerpt}
    (h : e.readGroups fuel = .ok (groups, rest)) :
    e.text = groupsText (groups.map (·.text)) ++ rest.text := by
  induction fuel generalizing e groups with
  | zero =>
      cases h
      rfl
  | succ fuel ih =>
      unfold readGroups at h
      split at h
      · rename_i hopen
        obtain ⟨after, htext⟩ := List.head?_eq_some_iff.mp hopen
        simp only at h
        split at h
        · cases h
        · rename_i hclose
          simp only [Reading.bind_eq_ok_iff] at h
          obtain ⟨⟨groups', rest'⟩, hread, h⟩ := h
          cases h
          -- The group ends at the first bracket that closes one, and the rest goes on behind it.
          have hcut := text_eq_of_startingAt (Bool.eq_false_iff.mpr hclose)
          rw [text_tail, htext, List.tail_cons] at hcut
          rw [htext, hcut, ih hread]
          simp [groupsText]
      · cases h
        rfl

theorem readGroups_of_text {groups : List Text} {rest : Text} {e : Excerpt} {fuel : Nat}
    (h : e.text = groupsText groups ++ rest) (hgroups : ∀ group ∈ groups, ']' ∉ group)
    (hrest : rest.head? ≠ some '[') (hfuel : groups.length ≤ fuel) :
    ∃ parts suffix, e.readGroups fuel = .ok (parts, suffix) ∧ parts.map (·.text) = groups ∧
      suffix.text = rest := by
  induction groups generalizing e fuel with
  | nil =>
      have htext : e.text = rest := h
      exact ⟨[], e, readGroups_nil (by rw [htext]; exact hrest) fuel, rfl, htext⟩
  | cons group groups ih =>
      obtain ⟨fuel, rfl⟩ : ∃ fuel', fuel = fuel' + 1 := ⟨fuel - 1, by simp at hfuel; omega⟩
      have htext : e.text = '[' :: (group ++ ']' :: (groupsText groups ++ rest)) := by
        rw [h]
        simp [groupsText]
      obtain ⟨hgroup, hgroups⟩ := List.forall_mem_cons.mp hgroups
      obtain ⟨part, after, hpart, hafter, hread⟩ := readGroups_cons htext hgroup fuel
      obtain ⟨parts, suffix, hreads, hparts, hsuffix⟩ :=
        ih hafter hgroups (Nat.le_of_succ_le_succ hfuel)
      refine ⟨part :: parts, suffix, ?_, by rw [List.map_cons, hpart, hparts], hsuffix⟩
      rw [hread, hreads]
      rfl

/-- Of one group, or of two, the last is the range, and the first of two is the dimension. -/
theorem splitGroups_eq_ok_iff {whole range : Excerpt} {groups : List Excerpt}
    {dimension : Option Nat} :
    whole.splitGroups groups = .ok (dimension, range) ↔
      (groups = [range] ∧ dimension = none) ∨
        ∃ e n, groups = [e, range] ∧ e.text.SpellsNumber n ∧ dimension = some n := by
  constructor
  · intro h
    unfold splitGroups at h
    split at h
    · cases h
      exact .inl ⟨rfl, rfl⟩
    · simp only [Reading.bind_eq_ok_iff, readNumber_eq_ok_iff] at h
      obtain ⟨n, hn, h⟩ := h
      cases h
      exact .inr ⟨_, n, rfl, hn, rfl⟩
    · cases h
  · rintro (⟨rfl, rfl⟩ | ⟨e, n, rfl, hn, rfl⟩)
    · rfl
    · simp only [splitGroups, readNumber_eq_ok_iff.mpr hn, Reading.ok_bind]
      rfl

/-! ### Registers -/

theorem spellsRegister_of_readRegister {e : Excerpt} {r : Register}
    (h : e.readRegister = .ok r) : e.text.SpellsRegister r := by
  obtain ⟨file, dimension, first, last, mask⟩ := r
  obtain ⟨-, hfile, groups, suffix, range, hgroups, hdimension, hrange, hle, hmask⟩ :=
    readRegister_eq_ok_iff.mp h
  have hname := RegisterFile.name_of_ofName? hfile
  have htext : e.text = file.name ++ (groupsText (groups.map (·.text)) ++ suffix.text) := by
    rw [← text_of_readGroups hgroups, hname, text_before, text_startingAt,
      List.takeWhile_append_dropWhile]
  have hrange := readRange_eq_ok_iff.mp ⟨hrange, hle⟩
  have hmask := readSuffix_eq_ok_iff.mp hmask
  rcases splitGroups_eq_ok_iff.mp hdimension with ⟨rfl, rfl⟩ | ⟨d, n, rfl, hn, rfl⟩
  · have hregister := Text.SpellsRegister.intro (r := ⟨file, none, first, last, mask⟩)
      .absent hrange hmask
    simpa [htext, groupsText] using hregister
  · have hregister := Text.SpellsRegister.intro (r := ⟨file, some n, first, last, mask⟩)
      (.present hn) hrange hmask
    simpa [htext, groupsText] using hregister

/-- The groups of a written register are its dimension, if there is one, and its range. -/
theorem readGroups_of_spelled (whole : Excerpt) {e : Excerpt} {dimension range suffix : Text}
    {r : Register} (h : e.text = dimension ++ '[' :: (range ++ ']' :: suffix))
    (hdimension : dimension.SpellsDimension r.dimension)
    (hrange : range.SpellsRange r.first r.last) (hmask : suffix.SpellsMask r.mask) :
    ∃ groups inner after, e.readGroups e.text.length = .ok (groups, after) ∧
      whole.splitGroups groups = .ok (r.dimension, inner) ∧ inner.text = range ∧
      after.text = suffix := by
  cases hd : r.dimension with
  | none =>
      rw [hd] at hdimension
      cases hdimension
      have hgroups : e.text = groupsText [range] ++ suffix := by simpa [groupsText] using h
      have hfuel : [range].length ≤ e.text.length := by
        rw [h]
        simp
      obtain ⟨parts, after, hread, hparts, hafter⟩ := readGroups_of_text hgroups
        (by simpa using hrange.bracket_not_mem) hmask.head_ne hfuel
      obtain ⟨inner, rfl, hinner⟩ := List.map_eq_singleton_iff.mp hparts
      exact ⟨[inner], inner, after, hread, rfl, hinner, hafter⟩
  | some n =>
      rw [hd] at hdimension
      cases hdimension with
      | present hn =>
        rename_i d
        have hgroups : e.text = groupsText [d, range] ++ suffix := by simpa [groupsText] using h
        have hfuel : [d, range].length ≤ e.text.length := by
          rw [h]
          simp
          omega
        obtain ⟨parts, after, hread, hparts, hafter⟩ := readGroups_of_text hgroups
          (by simpa using ⟨hn.bracket_not_mem, hrange.bracket_not_mem⟩) hmask.head_ne hfuel
        obtain ⟨outer, parts, rfl, houter, hparts⟩ := List.map_eq_cons_iff.mp hparts
        obtain ⟨inner, rfl, hinner⟩ := List.map_eq_singleton_iff.mp hparts
        refine ⟨[outer, inner], inner, after, hread, ?_, hinner, hafter⟩
        exact splitGroups_eq_ok_iff.mpr (.inr ⟨outer, n, rfl, houter ▸ hn, rfl⟩)

theorem readRegister_of_spellsRegister {e : Excerpt} {r : Register}
    (h : e.text.SpellsRegister r) : e.readRegister = .ok r := by
  generalize htext : e.text = t at h
  obtain @⟨dimension, range, suffix, r, hdimension, hrange, hmask⟩ := h
  obtain ⟨rest, hrest⟩ := hdimension.exists_append (range ++ ']' :: suffix)
  rw [hrest] at htext
  -- The name ends at the first bracket, since no file has one in its name.
  obtain ⟨hname, hgroups⟩ := cut_at htext (bracket_not_mem_fileName r.file)
  have hopen : (e.startingAt '[').isEmpty = false := by rw [isEmpty, hgroups]; rfl
  rw [← hrest] at hgroups
  obtain ⟨groups, inner, after, hread, hsplit, hinner, hafter⟩ :=
    readGroups_of_spelled e hgroups hdimension hrange hmask
  obtain ⟨hnumbers, hle⟩ := readRange_eq_ok_iff.mpr (hinner ▸ hrange)
  have hbits := readSuffix_eq_ok_iff.mpr (hafter ▸ hmask)
  rw [readRegister_eq_ok_iff, hname]
  exact ⟨hopen, RegisterFile.ofName?_name r.file, groups, after, inner, hread, hsplit, hnumbers,
    hle, hbits⟩

/-- A register is read from exactly the texts that spell one, and as the register that is spelled,
with nothing reported. Every other text gives no register and has one diagnostic, at a piece of the
text. -/
theorem readRegister_exact (e : Excerpt) :
    (∀ r, e.readRegister = .ok r ↔ e.text.SpellsRegister r) ∧
    ((¬ ∃ r, e.text.SpellsRegister r) ↔ e.readRegister.value = none ∧
      ∃ d, e.readRegister.problems.map Problem.diagnostic = [d]) ∧
    ∀ p ∈ e.readRegister.problems, ∃ piece : Excerpt, piece.PieceOf e ∧ p.span = piece.span := by
  have hread : ∀ r, e.readRegister = .ok r ↔ e.text.SpellsRegister r := fun r =>
    ⟨spellsRegister_of_readRegister, readRegister_of_spellsRegister⟩
  refine ⟨hread, ?_, fun p => e.reads_readRegister.problem⟩
  simp only [← hread]
  rcases e.reads_readRegister.exact with ⟨r, hr⟩ | ⟨p, hp⟩
  · simp [hr]
  · simp [hp]

end Excerpt

end ShaderBackend
