import Mathlib.Algebra.Group.Nat.Defs
import ShaderBackend.Module.Hash

/-!
The short form of a hash. Numbers with equally many digits compare as their digits do, from the
highest on. The first five bytes of a hash are the digits of a number to the base 256, and the
letters of its short form are the digits of the same number to the base 32; so short forms are
equal, and sort, exactly as the first five bytes do.
-/

namespace ShaderBackend

/-! ### Numbers by their digits -/

/-- The number that digits stand for, the highest digit first. -/
def numeral (base : Nat) (digits : List Nat) : Nat :=
  digits.foldl (fun n d => n * base + d) 0

@[simp] theorem numeral_nil (base : Nat) : numeral base [] = 0 := rfl

theorem foldl_digits (base n : Nat) (digits : List Nat) :
    digits.foldl (fun n d => n * base + d) n = n * base ^ digits.length + numeral base digits := by
  induction digits generalizing n with
  | nil => simp
  | cons d digits ih =>
      have hpow : base ^ (digits.length + 1) = base * base ^ digits.length := Nat.pow_succ'
      rw [numeral, List.foldl_cons, List.foldl_cons, ih, ih (0 * base + d), List.length_cons, hpow,
        Nat.zero_mul, Nat.zero_add, Nat.add_mul, Nat.mul_assoc, Nat.add_assoc]

theorem numeral_cons (base d : Nat) (digits : List Nat) :
    numeral base (d :: digits) = d * base ^ digits.length + numeral base digits := by
  rw [numeral, List.foldl_cons, foldl_digits, Nat.zero_mul, Nat.zero_add]

theorem numeral_lt {base : Nat} {digits : List Nat} (h : ∀ d ∈ digits, d < base) :
    numeral base digits < base ^ digits.length := by
  induction digits with
  | nil => simp
  | cons d digits ih =>
      have hrest := ih fun x hx => h x (by simp [hx])
      have hfirst : (d + 1) * base ^ digits.length ≤ base * base ^ digits.length :=
        Nat.mul_le_mul_right _ (h d (by simp))
      rw [numeral_cons, List.length_cons, Nat.pow_succ']
      rw [Nat.succ_mul] at hfirst
      omega

/-- A number is compared by its quotients first, and by its remainders only if these are equal. -/
theorem compare_mul_add {b r r' : Nat} (hr : r < b) (hr' : r' < b) (q q' : Nat) :
    compare (q * b + r) (q' * b + r') = (compare q q').then (compare r r') := by
  -- The greater quotient outweighs every remainder, on either side.
  have hless : ∀ {p p' s s' : Nat}, p < p' → s < b → p * b + s < p' * b + s' := by
    intro p p' s s' hp hs
    have hle : (p + 1) * b ≤ p' * b := Nat.mul_le_mul_right b hp
    rw [Nat.succ_mul] at hle
    omega
  rcases Nat.lt_trichotomy q q' with hlt | rfl | hgt
  · rw [Nat.compare_eq_lt.mpr hlt, Nat.compare_eq_lt.mpr (hless hlt hr)]
    rfl
  · simp [Nat.compare_eq_ite_lt]
  · rw [Nat.compare_eq_gt.mpr hgt, Nat.compare_eq_gt.mpr (hless hgt hr')]
    rfl

/-- Lists of one length whose members stand for digits compare, member by member, as the numbers
that the lists stand for. -/
theorem compareLex_eq_compare_numeral {α : Type} {cmp : α → α → Ordering} {f : α → Nat}
    (hcmp : ∀ a b, cmp a b = compare (f a) (f b)) {base : Nat} {xs ys : List α}
    (hlength : xs.length = ys.length) (hxs : ∀ a ∈ xs, f a < base) (hys : ∀ a ∈ ys, f a < base) :
    List.compareLex cmp xs ys = compare (numeral base (xs.map f)) (numeral base (ys.map f)) := by
  induction xs generalizing ys with
  | nil =>
      obtain rfl : ys = [] := List.length_eq_zero_iff.mp hlength.symm
      rfl
  | cons x xs ih =>
      cases ys with
      | nil => simp at hlength
      | cons y ys =>
        have hrest : xs.length = ys.length := by simpa using hlength
        have hxs' : ∀ a ∈ xs, f a < base := fun a ha => hxs a (by simp [ha])
        have hys' : ∀ a ∈ ys, f a < base := fun a ha => hys a (by simp [ha])
        have hxlt := numeral_lt (List.forall_mem_map.mpr hxs')
        have hylt := numeral_lt (List.forall_mem_map.mpr hys')
        rw [List.length_map] at hxlt hylt
        rw [← hrest] at hylt
        rw [List.compareLex_cons_cons, hcmp, ih hrest hxs' hys', List.map_cons, List.map_cons,
          numeral_cons, numeral_cons, List.length_map, List.length_map, ← hrest,
          compare_mul_add hxlt hylt]

/-- The lowest digits of a number stand for what is left of it when the others are taken away. -/
theorem numeral_div_mod (base count n : Nat) :
    numeral base ((List.range count).map fun k => n / base ^ (count - 1 - k) % base) =
      n % base ^ count := by
  induction count with
  | zero => simp [Nat.mod_one]
  | succ count ih =>
      have hrest :
          (List.range count).map ((fun k => n / base ^ (count + 1 - 1 - k) % base) ∘ .succ) =
          (List.range count).map fun k => n / base ^ (count - 1 - k) % base := by
        apply List.map_congr_left
        intro k _
        rw [Function.comp_apply, Nat.add_sub_cancel, Nat.sub_sub, Nat.add_comm 1 k]
      rw [List.range_succ_eq_map, List.map_cons, List.map_map, hrest, numeral_cons, ih,
        List.length_map, List.length_range, Nat.mod_pow_succ, Nat.sub_zero, Nat.add_sub_cancel,
        Nat.mul_comm, Nat.add_comm]

namespace ModuleHash

/-! ### The bytes -/

/-- The bytes that the short form stands for. -/
def leading (h : ModuleHash) : Bytes :=
  h.bytes.toList.take 5

theorem length_leading (h : ModuleHash) : h.leading.length = 5 := by
  simp [leading]

theorem leadingBits_eq (h : ModuleHash) :
    h.leadingBits = numeral 256 (h.leading.map UInt8.toNat) := by
  rw [numeral, List.foldl_map]
  rfl

theorem leadingBits_lt (h : ModuleHash) : h.leadingBits < 32 ^ 8 := by
  have hbytes : ∀ d ∈ h.leading.map UInt8.toNat, d < 256 :=
    List.forall_mem_map.mpr fun b _ => b.toNat_lt
  have hlt := numeral_lt hbytes
  rw [List.length_map, length_leading] at hlt
  rw [leadingBits_eq]
  exact hlt

theorem compare_leading (h h' : ModuleHash) :
    compare h.leading h'.leading = compare h.leadingBits h'.leadingBits := by
  have hbyte : ∀ a b : UInt8, compare a b = compare a.toNat b.toNat := by
    intro a b
    simp only [compare, compareOfLessAndEq, UInt8.lt_iff_toNat_lt, ← UInt8.toNat_inj]
  have hlength : h.leading.length = h'.leading.length := by
    rw [length_leading, length_leading]
  rw [leadingBits_eq, leadingBits_eq, List.compare_eq_compareLex]
  exact compareLex_eq_compare_numeral hbyte hlength (fun b _ => b.toNat_lt) fun b _ => b.toNat_lt

theorem leading_eq_iff (h h' : ModuleHash) :
    h.leading = h'.leading ↔ h.leadingBits = h'.leadingBits := by
  rw [← Std.compare_eq_iff_eq, compare_leading, Std.compare_eq_iff_eq]

/-! ### The letters -/

/-- The place of a letter in the alphabet. -/
def letterValue (c : Char) : Nat :=
  alphabet.idxOf c

theorem length_alphabet : alphabet.length = 32 := by decide

theorem alphabet_nodup : alphabet.Nodup := by decide

theorem digit_eq {n : Nat} (hn : n < alphabet.length) : digit n = alphabet[n] :=
  (List.getElem_eq_getD '0').symm

theorem digit_mem_alphabet {n : Nat} (hn : n < 32) : digit n ∈ alphabet := by
  rw [← length_alphabet] at hn
  rw [digit_eq hn]
  exact List.getElem_mem hn

theorem letterValue_digit {n : Nat} (hn : n < 32) : letterValue (digit n) = n := by
  rw [← length_alphabet] at hn
  rw [digit_eq hn, letterValue, alphabet_nodup.idxOf_getElem n hn]

theorem length_short (h : ModuleHash) : h.short.length = 8 := by
  simp [short]

theorem mem_alphabet_of_mem_short {h : ModuleHash} {c : Char} (hc : c ∈ h.short) :
    c ∈ alphabet := by
  obtain ⟨k, -, rfl⟩ := List.mem_map.mp hc
  exact digit_mem_alphabet (Nat.mod_lt _ (by decide))

theorem letterValue_lt_of_mem_short {h : ModuleHash} {c : Char} (hc : c ∈ h.short) :
    letterValue c < 32 := by
  rw [← length_alphabet]
  exact List.idxOf_lt_length_of_mem (mem_alphabet_of_mem_short hc)

/-- The letters have the values of the eight digits to the base 32. -/
theorem map_letterValue_short (h : ModuleHash) :
    h.short.map letterValue =
      (List.range 8).map fun k => h.leadingBits / 32 ^ (8 - 1 - k) % 32 := by
  rw [short, List.map_map]
  apply List.map_congr_left
  intro k _
  rw [Function.comp_apply, letterValue_digit (Nat.mod_lt _ (by decide)),
    Nat.shiftRight_eq_div_pow, Nat.pow_mul]

theorem numeral_short (h : ModuleHash) :
    numeral 32 (h.short.map letterValue) = h.leadingBits := by
  rw [map_letterValue_short, numeral_div_mod, Nat.mod_eq_of_lt h.leadingBits_lt]

theorem short_eq_iff (h h' : ModuleHash) : h.short = h'.short ↔ h.leadingBits = h'.leadingBits := by
  constructor
  · intro heq
    rw [← numeral_short, heq, numeral_short]
  · intro heq
    rw [short, short, heq]

theorem compare_short (h h' : ModuleHash) :
    List.compareLex (compareOn letterValue) h.short h'.short =
      compare h.leadingBits h'.leadingBits := by
  have hlength : h.short.length = h'.short.length := by
    rw [length_short, length_short]
  rw [← numeral_short, ← numeral_short]
  exact compareLex_eq_compare_numeral (fun _ _ => rfl) hlength
    (fun _ => letterValue_lt_of_mem_short) fun _ => letterValue_lt_of_mem_short

/-- The short form is eight letters of an alphabet of 32, the digits of the number whose digits to
the base 256 are the first five bytes. Short forms are equal exactly if the first five bytes are,
and letter by letter, in the order of the alphabet, they compare as these bytes do. -/
theorem short_is_leading_bits (h h' : ModuleHash) :
    (alphabet.length = 32 ∧ alphabet.Nodup ∧ h.short.length = 8 ∧ ∀ c ∈ h.short, c ∈ alphabet) ∧
      numeral 32 (h.short.map letterValue) = numeral 256 (h.leading.map UInt8.toNat) ∧
      (h.short = h'.short ↔ h.leading = h'.leading) ∧
      List.compareLex (compareOn letterValue) h.short h'.short =
        compare h.leading h'.leading := by
  refine ⟨⟨length_alphabet, alphabet_nodup, h.length_short, fun c => mem_alphabet_of_mem_short⟩,
    ?_, ?_, ?_⟩
  · rw [numeral_short, leadingBits_eq]
  · rw [short_eq_iff, leading_eq_iff]
  · rw [compare_short, compare_leading]

/-- Eight digits of five bits in five bytes. -/
example :
    short ⟨.ofFn fun k => [0x00, 0x44, 0x32, 0x14, 0xc7].getD k 0⟩ = "01234567" := by
  decide +kernel

end ModuleHash

end ShaderBackend
