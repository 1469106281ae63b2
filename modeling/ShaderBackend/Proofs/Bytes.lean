import Mathlib.Algebra.Group.Nat.Defs
import ShaderBackend.Bytes

/-!
Byte strings and words. Every word comes back from its place in the bytes of a list of words, and
the bytes at a place come back from the word that is read there; the same for the 64-bit words of
code. The bytes of a slice stay what they are when more bytes are added at the end.
-/

namespace ShaderBackend

theorem le_alignUp {align : Nat} (h : 0 < align) (n : Nat) : n ≤ alignUp n align := by
  have hdiv := Nat.div_add_mod (n + align - 1) align
  have hmod := Nat.mod_lt (n + align - 1) h
  rw [alignUp, Nat.mul_comm]
  omega

namespace Bytes

/-! ### Words that are written -/

theorem or_shiftLeft {low k : Nat} (h : low < 2 ^ k) (high : Nat) :
    low ||| high <<< k = low + high * 2 ^ k := by
  rw [Nat.or_comm, ← Nat.shiftLeft_add_eq_or_of_lt h, Nat.shiftLeft_eq, Nat.add_comm]

/-- A word is the number whose digits to the base 256 are its bytes, the lowest first. -/
theorem toNat_toUInt32 (a b c d : UInt8) (t : Bytes) :
    (toUInt32 (a :: b :: c :: d :: t)).toNat =
      a.toNat + b.toNat * 2 ^ 8 + c.toNat * 2 ^ 16 + d.toNat * 2 ^ 24 := by
  have ha := a.toNat_lt
  have hb := b.toNat_lt
  have hc := c.toNat_lt
  have hd := d.toNat_lt
  have hshift : ∀ (x : UInt8) (k : UInt32), k ≤ 24 →
      (x.toUInt32 <<< k).toNat = x.toNat <<< k.toNat := by
    intro x k hk
    have hk : k.toNat ≤ 24 := UInt32.le_iff_toNat_le.mp hk
    have hlt : x.toNat * 2 ^ k.toNat < 2 ^ 32 :=
      calc x.toNat * 2 ^ k.toNat < 2 ^ 8 * 2 ^ k.toNat :=
            Nat.mul_lt_mul_of_pos_right x.toNat_lt (Nat.two_pow_pos _)
        _ = 2 ^ (8 + k.toNat) := (Nat.pow_add 2 8 k.toNat).symm
        _ ≤ 2 ^ 32 := Nat.pow_le_pow_right (by decide) (by omega)
    rw [UInt32.toNat_shiftLeft, UInt8.toNat_toUInt32, Nat.mod_eq_of_lt (by omega : k.toNat < 32),
      Nat.shiftLeft_eq, Nat.mod_eq_of_lt hlt]
  simp only [toUInt32, UInt32.toNat_or, hshift _ 8 (by decide), hshift _ 16 (by decide),
    hshift _ 24 (by decide), UInt8.toNat_toUInt32, UInt32.reduceToNat]
  -- Each byte starts above all bits of the bytes before it, so that every `|||` is a sum.
  have hab : a.toNat + b.toNat * 2 ^ 8 < 2 ^ 16 := by omega
  have habc : a.toNat + b.toNat * 2 ^ 8 + c.toNat * 2 ^ 16 < 2 ^ 24 := by omega
  rw [or_shiftLeft ha, or_shiftLeft hab, or_shiftLeft habc]

theorem toUInt32_ofUInt32_append (w : UInt32) (t : Bytes) : toUInt32 (ofUInt32 w ++ t) = w := by
  have hw := w.toNat_lt
  apply UInt32.toNat_inj.mp
  simp only [ofUInt32, List.cons_append, List.nil_append, toNat_toUInt32, UInt32.toNat_toUInt8,
    UInt32.toNat_shiftRight, Nat.shiftRight_eq_div_pow, UInt32.reduceToNat, Nat.reduceMod,
    Nat.reducePow]
  omega

theorem length_flatMap_ofUInt32 (words : List UInt32) :
    (words.flatMap ofUInt32).length = 4 * words.length := by
  induction words with
  | nil => rfl
  | cons w words ih =>
      rw [List.flatMap_cons, List.length_append, ih, List.length_cons]
      simp only [ofUInt32, List.length_cons, List.length_nil]
      omega

/-- A word is read back at its place, whatever follows the words. -/
theorem word32At_flatMap {words : List UInt32} {offset : Nat} {w : UInt32}
    (hoffset : offset % 4 = 0) (h : words[offset / 4]? = some w) (t : Bytes) :
    word32At (words.flatMap ofUInt32 ++ t) offset = w := by
  induction words generalizing offset with
  | nil => simp at h
  | cons v words ih =>
      by_cases hzero : offset = 0
      · subst hzero
        obtain rfl : v = w := by simpa using h
        rw [word32At, List.drop_zero, List.flatMap_cons, List.append_assoc,
          toUInt32_ofUInt32_append]
      · obtain ⟨rest, rfl⟩ : ∃ rest, offset = rest + 4 := ⟨offset - 4, by omega⟩
        have hindex : (rest + 4) / 4 = rest / 4 + 1 := by omega
        rw [hindex, List.getElem?_cons_succ] at h
        exact ih (by omega) h

/-! ### Words that are read -/

theorem ofUInt32_toUInt32 (a b c d : UInt8) (t : Bytes) :
    ofUInt32 (toUInt32 (a :: b :: c :: d :: t)) = [a, b, c, d] := by
  have ha := a.toNat_lt
  have hb := b.toNat_lt
  have hc := c.toNat_lt
  have hd := d.toNat_lt
  simp only [ofUInt32, List.cons.injEq, and_true, ← UInt8.toNat_inj, UInt32.toNat_toUInt8,
    UInt32.toNat_shiftRight, Nat.shiftRight_eq_div_pow, toNat_toUInt32, UInt32.reduceToNat,
    Nat.reduceMod, Nat.reducePow]
  omega

/-- The word that is read at a place has the bytes that stand there. -/
theorem ofUInt32_word32At {bytes : Bytes} {offset : Nat} (h : offset + 4 ≤ bytes.length) :
    ofUInt32 (bytes.word32At offset) = (bytes.drop offset).take 4 := by
  have hlength : 4 ≤ (bytes.drop offset).length := by
    rw [List.length_drop]
    omega
  match hdrop : bytes.drop offset with
  | a :: b :: c :: d :: t => rw [word32At, hdrop, ofUInt32_toUInt32]; rfl
  | [] | [_] | [_, _] | [_, _, _] => simp [hdrop] at hlength

/-- Consecutive words that are read have the bytes from the first of them on. -/
theorem flatMap_word32At {bytes : Bytes} {offset count : Nat}
    (h : offset + 4 * count ≤ bytes.length) :
    ((List.range count).map fun k => bytes.word32At (offset + 4 * k)).flatMap ofUInt32 =
      (bytes.drop offset).take (4 * count) := by
  induction count with
  | zero => rfl
  | succ count ih =>
      have hlast : ofUInt32 (bytes.word32At (offset + 4 * count)) =
          ((bytes.drop offset).drop (4 * count)).take 4 := by
        rw [ofUInt32_word32At (by omega), List.drop_drop]
      rw [List.range_succ, List.map_append, List.flatMap_append, ih (by omega), Nat.mul_succ,
        List.take_add]
      simp [hlast]

/-! ### Words of code -/

theorem ofUInt64_of_halves (low high : UInt32) :
    ofUInt64 (low.toUInt64 ||| high.toUInt64 <<< 32) = ofUInt32 low ++ ofUInt32 high := by
  have hlow := low.toNat_lt
  have hhigh := high.toNat_lt
  have hword : (low.toUInt64 ||| high.toUInt64 <<< 32).toNat = low.toNat + high.toNat * 2 ^ 32 := by
    simp only [UInt64.toNat_or, UInt64.toNat_shiftLeft, UInt32.toNat_toUInt64, UInt64.reduceToNat,
      Nat.reduceMod]
    rw [Nat.mod_eq_of_lt (by rw [Nat.shiftLeft_eq]; omega), or_shiftLeft hlow]
  have hlower : (low.toUInt64 ||| high.toUInt64 <<< 32).toUInt32 = low := by
    apply UInt32.toNat_inj.mp
    rw [UInt64.toNat_toUInt32, hword]
    omega
  have hupper : ((low.toUInt64 ||| high.toUInt64 <<< 32) >>> 32).toUInt32 = high := by
    apply UInt32.toNat_inj.mp
    rw [UInt64.toNat_toUInt32, UInt64.toNat_shiftRight, hword, Nat.shiftRight_eq_div_pow]
    simp only [UInt64.reduceToNat, Nat.reduceMod]
    omega
  rw [ofUInt64, hlower, hupper]

@[simp] theorem length_ofUInt64 (w : UInt64) : (ofUInt64 w).length = 8 := rfl

theorem length_ofWords64 (words : List UInt64) :
    (ofWords64 words).length = 8 * words.length := by
  induction words with
  | nil => rfl
  | cons w words ih =>
      rw [ofWords64, List.flatMap_cons, List.length_append, ← ofWords64, ih, length_ofUInt64,
        List.length_cons]
      omega

theorem length_lt_of_no_word {bytes : Bytes}
    (hshort : ∀ a b c d e f g h rest,
      bytes = a :: b :: c :: d :: e :: f :: g :: h :: rest → False) :
    bytes.length < 8 := by
  match bytes with
  | a :: b :: c :: d :: e :: f :: g :: h :: rest => exact (hshort a b c d e f g h rest rfl).elim
  | [] | [_] | [_, _] | [_, _, _] | [_, _, _, _] | [_, _, _, _, _] | [_, _, _, _, _, _]
  | [_, _, _, _, _, _, _] => simp

theorem length_toWords64 (bytes : Bytes) : (toWords64 bytes).length = bytes.length / 8 := by
  fun_induction toWords64 bytes with
  | case1 a b c d e f g h rest ih =>
      simp only [List.length_cons, ih]
      omega
  | case2 bytes hshort => exact (Nat.div_eq_of_lt (length_lt_of_no_word hshort)).symm

/-- Bytes that are a whole number of words are the bytes of these words. -/
theorem ofWords64_toWords64 {bytes : Bytes} (h : bytes.length % 8 = 0) :
    ofWords64 (toWords64 bytes) = bytes := by
  fun_induction toWords64 bytes with
  | case1 a b c d e f g h' rest ih =>
      have hrest : rest.length % 8 = 0 := by
        simp only [List.length_cons] at h
        omega
      rw [ofWords64, List.flatMap_cons, ← ofWords64, ih hrest, ofUInt64_of_halves,
        ofUInt32_toUInt32, ofUInt32_toUInt32]
      rfl
  | case2 bytes hshort =>
      have hlength := length_lt_of_no_word hshort
      obtain rfl : bytes = [] := List.length_eq_zero_iff.mp (by omega)
      rfl

/-- A byte of words is a byte of the word that it lies in. -/
theorem getElem?_ofWords64 (words : List UInt64) (k : Nat) :
    (ofWords64 words)[k]? = words[k / 8]?.bind fun w => (ofUInt64 w)[k % 8]? := by
  induction words generalizing k with
  | nil => simp [ofWords64]
  | cons w words ih =>
      rw [ofWords64, List.flatMap_cons, ← ofWords64]
      by_cases hk : k < 8
      · rw [List.getElem?_append_left (by simpa using hk), Nat.div_eq_of_lt hk,
          Nat.mod_eq_of_lt hk]
        rfl
      · obtain ⟨rest, rfl⟩ : ∃ rest, k = rest + 8 := ⟨k - 8, by omega⟩
        rw [List.getElem?_append_right (by simp), length_ofUInt64, Nat.add_sub_cancel, ih,
          Nat.add_div_right _ (by decide), Nat.add_mod_right, List.getElem?_cons_succ]

/-! ### Slices -/

theorem slice?_append {data : Bytes} {start stop : Nat} {part : Bytes}
    (h : data.slice? start stop = some part) (more : Bytes) :
    (data ++ more).slice? start stop = some part := by
  unfold slice? at h ⊢
  split at h
  · rename_i hrange
    rw [Option.some.injEq] at h
    have hmore : start ≤ stop ∧ stop ≤ (data ++ more).length := by
      rw [List.length_append]
      omega
    rw [if_pos hmore, List.drop_append_of_le_length (by omega),
      List.take_append_of_le_length (by rw [List.length_drop]; omega), h]
  · cases h

theorem slice?_length_append (data part : Bytes) :
    (data ++ part).slice? data.length (data.length + part.length) = some part := by
  unfold slice?
  rw [if_pos ⟨Nat.le_add_right _ _, Nat.le_of_eq List.length_append.symm⟩, List.drop_left,
    Nat.add_sub_cancel_left, List.take_length]

theorem slice?_empty {data : Bytes} {start : Nat} (h : start ≤ data.length) :
    data.slice? start start = some [] := by
  unfold slice?
  rw [if_pos ⟨Nat.le_refl _, h⟩, Nat.sub_self, List.take_zero]

end Bytes

end ShaderBackend
