import Mathlib.Algebra.Group.Nat.Defs
import ShaderBackend.Code.Schedule

/-!
Scheduling words as three registers of 21 bits and one bit that belongs to none of them. A patch
writes one register and nothing else, and a word is known by its registers and its last bit.
-/

namespace ShaderBackend

namespace Schedule

/-- The instructions of a bundle have the positions one, two and three. -/
def IsPosition (position : Nat) : Prop :=
  1 ≤ position ∧ position ≤ 3

/-- The bit that belongs to no field. -/
def topBit (word : UInt64) : Bool :=
  word.toNat.testBit 63

/-! ### The bits of a field and of a patched word -/

theorem toNat_shift {position : Nat} (h : IsPosition position) :
    (shift position).toNat % 64 = 21 * (position - 1) := by
  obtain ⟨hlower, hupper⟩ := h
  rw [shift, UInt64.toNat_ofNat']
  omega

theorem testBit_fieldMask (i : Nat) : fieldMask.toNat.testBit i = decide (i < 21) := by
  rw [show fieldMask.toNat = 2 ^ 21 - 1 by decide, Nat.testBit_two_pow_sub_one]

theorem testBit_field {position : Nat} (h : IsPosition position) (word : UInt64) (i : Nat) :
    (field word position).toNat.testBit i =
      (decide (i < 21) && word.toNat.testBit (21 * (position - 1) + i)) := by
  rw [field, UInt64.toNat_toUInt32, Nat.testBit_mod_two_pow, UInt64.toNat_and, Nat.testBit_and,
    testBit_fieldMask, UInt64.toNat_shiftRight, toNat_shift h, Nat.testBit_shiftRight]
  by_cases hi : i < 21
  · simp [hi, show i < 32 by omega]
  · simp [hi]

theorem testBit_shiftLeft_shift {position : Nat} (h : IsPosition position) (word : UInt64)
    {i : Nat} (hi : i < 64) :
    (word <<< shift position).toNat.testBit i =
      (decide (21 * (position - 1) ≤ i) && word.toNat.testBit (i - 21 * (position - 1))) := by
  rw [UInt64.toNat_shiftLeft, toNat_shift h, Nat.testBit_mod_two_pow, Nat.testBit_shiftLeft]
  simp [hi]

theorem testBit_not (word : UInt64) {i : Nat} (hi : i < 64) :
    (~~~word).toNat.testBit i = !word.toNat.testBit i := by
  rw [UInt64.toNat_not, show UInt64.size - 1 - word.toNat = 2 ^ 64 - (word.toNat + 1) by
    simp only [UInt64.size]; omega, Nat.testBit_two_pow_sub_succ word.toNat_lt]
  simp [hi]

/-- Inside its field a patch has the bits of the value, and elsewhere those that were there. -/
theorem testBit_patch {position : Nat} (h : IsPosition position) (word : UInt64) (value : UInt32)
    {i : Nat} (hi : i < 64) :
    (patch word position value).toNat.testBit i =
      if 21 * (position - 1) ≤ i ∧ i < 21 * (position - 1) + 21 then
        value.toNat.testBit (i - 21 * (position - 1))
      else word.toNat.testBit i := by
  simp only [patch, UInt64.toNat_or, UInt64.toNat_and, Nat.testBit_or, Nat.testBit_and,
    testBit_not _ hi, testBit_shiftLeft_shift h _ hi, testBit_fieldMask, UInt32.toNat_toUInt64]
  -- The field is cleared and the value cut to its width, so that each bit has one source.
  by_cases hlower : 21 * (position - 1) ≤ i
  · by_cases hupper : i < 21 * (position - 1) + 21
    · simp [hlower, hupper, show i - 21 * (position - 1) < 21 by omega]
    · simp [hlower, hupper, show ¬ i - 21 * (position - 1) < 21 by omega]
  · simp [hlower]

/-! ### Registers -/

theorem toNat_field_patch {position : Nat} (h : IsPosition position) (word : UInt64)
    (value : UInt32) :
    (field (patch word position value) position).toNat = value.toNat % 2 ^ 21 := by
  apply Nat.eq_of_testBit_eq
  intro i
  rw [testBit_field h, Nat.testBit_mod_two_pow]
  by_cases hi : i < 21
  · have hbit : 21 * (position - 1) + i < 64 := by
      have := h.2
      omega
    rw [testBit_patch h _ _ hbit, if_pos (by omega), Nat.add_sub_cancel_left]
  · simp [hi]

theorem field_patch_of_ne {position other : Nat} (h : IsPosition position)
    (hother : IsPosition other) (hne : other ≠ position) (word : UInt64) (value : UInt32) :
    field (patch word position value) other = field word other := by
  apply UInt32.toNat_inj.mp
  apply Nat.eq_of_testBit_eq
  intro i
  rw [testBit_field hother, testBit_field hother]
  by_cases hi : i < 21
  · obtain ⟨hlower, hupper⟩ := h
    obtain ⟨hlower', hupper'⟩ := hother
    rw [testBit_patch ⟨hlower, hupper⟩ _ _ (by omega), if_neg (by omega)]
  · simp [hi]

theorem topBit_patch {position : Nat} (h : IsPosition position) (word : UInt64) (value : UInt32) :
    topBit (patch word position value) = topBit word := by
  have := h.2
  rw [topBit, testBit_patch h _ _ (by decide), if_neg (by omega), topBit]

/-- A word is its three fields and its top bit. -/
theorem eq_of_fields_eq {word word' : UInt64}
    (hfields : ∀ position, IsPosition position → field word position = field word' position)
    (htop : topBit word = topBit word') : word = word' := by
  apply UInt64.toNat_inj.mp
  apply Nat.eq_of_testBit_eq
  intro i
  rcases Nat.lt_trichotomy i 63 with hi | rfl | hi
  · -- The bit is the one at `i % 21` of the field that it lies in.
    have hposition : IsPosition (i / 21 + 1) := ⟨by omega, by omega⟩
    have hbit := congrArg (fun value => value.toNat.testBit (i % 21)) (hfields _ hposition)
    simp only [testBit_field hposition, Nat.add_sub_cancel, Nat.div_add_mod,
      Nat.mod_lt i (by decide : 21 > 0), decide_true, Bool.true_and] at hbit
    exact hbit
  · exact htop
  · have hsize : 2 ^ 64 ≤ 2 ^ i := Nat.pow_le_pow_right (by decide) hi
    rw [Nat.testBit_lt_two_pow (Nat.lt_of_lt_of_le word.toNat_lt hsize),
      Nat.testBit_lt_two_pow (Nat.lt_of_lt_of_le word'.toNat_lt hsize)]

end Schedule

end ShaderBackend
