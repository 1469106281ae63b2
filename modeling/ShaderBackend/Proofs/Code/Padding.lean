import ShaderBackend.Code.Padding
import ShaderBackend.Proofs.Bytes

/-!
Code that is filled up. It becomes a whole number of groups, and of the words that were there only
one can change: the control word of the bundle in which the first new instruction stands.
-/

namespace ShaderBackend

namespace Code

/-- The place of the control word for the instruction in a place. -/
def owner (place : Nat) : Nat :=
  place - place % bundleWords

/-- The first place after code of a given length that gets an instruction, if the code is filled up
at all. -/
def firstPadding? (length : Nat) : Option Nat :=
  (List.range' length (paddedLength length - length)).find? (· % bundleWords != 0)

theorem owner_succ (place : Nat) :
    owner (place + 1) = owner place ∨ owner (place + 1) = place + 1 := by
  unfold owner bundleWords
  omega

theorem length_emit (code : List UInt64) (instruction : UInt64) (schedule : UInt32) :
    (emit code instruction schedule).length = code.length + 1 := by
  simp [emit]

theorem getElem?_emit {code : List UInt64} {i : Nat} (hi : i < code.length)
    (howner : i ≠ owner code.length) (instruction : UInt64) (schedule : UInt32) :
    (emit code instruction schedule)[i]? = code[i]? := by
  unfold emit
  rw [List.getElem?_append_left (by simpa using hi)]
  exact List.getElem?_modify_ne _ _ howner.symm

/-- One more word leaves every word as it is, but for the control word of the last bundle. -/
theorem pad_succ (count : Nat) (branched : Bool) (code : List UInt64) :
    ∃ branched' next, pad (count + 1) branched code = pad count branched' next ∧
      next.length = code.length + 1 ∧
      ∀ i < code.length, i ≠ owner code.length → next[i]? = code[i]? := by
  rw [pad]
  split
  · exact ⟨branched, _, rfl, List.length_append, fun i hi _ => List.getElem?_append_left hi⟩
  · split
    · exact ⟨true, _, rfl, length_emit _ _ _, fun i hi howner => getElem?_emit hi howner _ _⟩
    · exact ⟨true, _, rfl, length_emit _ _ _, fun i hi howner => getElem?_emit hi howner _ _⟩

theorem length_pad (count : Nat) (branched : Bool) (code : List UInt64) :
    (pad count branched code).length = code.length + count := by
  induction count generalizing branched code with
  | zero => rfl
  | succ count ih =>
      obtain ⟨branched', next, hpad, hlength, -⟩ := pad_succ count branched code
      rw [hpad, ih, hlength]
      omega

theorem getElem?_pad (count : Nat) (branched : Bool) {code : List UInt64} {i : Nat}
    (hi : i < code.length) (howner : i ≠ owner code.length) :
    (pad count branched code)[i]? = code[i]? := by
  induction count generalizing branched code with
  | zero => rfl
  | succ count ih =>
      obtain ⟨branched', next, hpad, hlength, hkept⟩ := pad_succ count branched code
      -- The next word is in the same bundle, or starts one behind all that was there.
      have hnext : i ≠ owner next.length := by
        rw [hlength]
        rcases owner_succ code.length with h | h
        · rwa [h]
        · omega
      rw [hpad, ih branched' (by omega) hnext, hkept i hi howner]

theorem le_paddedLength (length : Nat) : length ≤ paddedLength length :=
  le_alignUp (by decide) _

theorem paddedLength_mod (length : Nat) : paddedLength length % 8 = 0 :=
  Nat.mul_mod_left _ _

theorem length_finish (code : List UInt64) : (finish code).length = paddedLength code.length := by
  rw [finish, length_pad, Nat.add_sub_cancel' (le_paddedLength _)]

/-- Where a bundle has begun, the first new word is an instruction. -/
theorem firstPadding?_of_mod_ne_zero {length : Nat} (h : length % bundleWords ≠ 0) :
    firstPadding? length = some length := by
  have hlt : length < paddedLength length := by
    have hmod := paddedLength_mod length
    have hle := le_paddedLength length
    unfold bundleWords at h
    omega
  obtain ⟨n, hn⟩ := Nat.exists_eq_succ_of_ne_zero (Nat.sub_ne_zero_of_lt hlt)
  rw [firstPadding?, hn, List.range'_succ, List.find?_cons_of_pos (by simpa using h)]

/-- Filling up keeps every word but the control word for the first new instruction. -/
theorem getElem?_finish {code : List UInt64} {i : Nat} (hi : i < code.length)
    (h : ∀ slot, firstPadding? code.length = some slot → i ≠ owner slot) :
    (finish code)[i]? = code[i]? := by
  refine getElem?_pad _ _ hi ?_
  by_cases hmod : code.length % bundleWords = 0
  · rw [owner, hmod]
    omega
  · exact h _ (firstPadding?_of_mod_ne_zero hmod)

example : firstPadding? 3 = some 3 ∧ firstPadding? 4 = some 5 ∧ firstPadding? 8 = none := by decide

theorem length_finish_bytes_mod (code : List UInt64) :
    (Bytes.ofWords64 (finish code)).length % 64 = 0 := by
  have hmod := paddedLength_mod code.length
  rw [Bytes.length_ofWords64, length_finish]
  omega

theorem le_length_finish_bytes {code : Bytes} (hcode : code.length % 8 = 0) :
    code.length ≤ (Bytes.ofWords64 (finish code.toWords64)).length := by
  have hle := le_paddedLength (code.length / 8)
  rw [Bytes.length_ofWords64, length_finish, Bytes.length_toWords64]
  omega

/-- The same for the bytes: those of every other word are kept. -/
theorem getElem?_finish_bytes {code : Bytes} (hcode : code.length % 8 = 0) {k : Nat}
    (hk : k < code.length)
    (h : ∀ slot, firstPadding? (code.length / 8) = some slot → k / 8 ≠ owner slot) :
    (Bytes.ofWords64 (finish code.toWords64))[k]? = code[k]? := by
  have hword : k / 8 < code.toWords64.length := by
    rw [Bytes.length_toWords64]
    omega
  have hkept := getElem?_finish hword (by rwa [Bytes.length_toWords64])
  rw [Bytes.getElem?_ofWords64, hkept, ← Bytes.getElem?_ofWords64,
    Bytes.ofWords64_toWords64 hcode]

end Code

end ShaderBackend
