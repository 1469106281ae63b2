import Mathlib.Tactic.IntervalCases
import ShaderBackend.Module.StageParams
import ShaderBackend.Proofs.Bytes

/-!
The words of a program header that belong to its stage. The nine words give back the parameters that
were put into them.
-/

namespace ShaderBackend

theorem isFlagSet_flagByte_pair (a b : Bool) :
    isFlagSet (flagByte a 0 ||| flagByte b 8) 0 = a ∧
      isFlagSet (flagByte a 0 ||| flagByte b 8) 8 = b := by
  revert a b
  decide

theorem isFlagSet_flagByte_four (a b c d : Bool) :
    let word := flagByte a 0 ||| flagByte b 8 ||| flagByte c 16 ||| flagByte d 24
    isFlagSet word 0 = a ∧ isFlagSet word 8 = b ∧ isFlagSet word 16 = c ∧
      isFlagSet word 24 = d := by
  revert a b c d
  decide

theorem toNat_halves (low high : UInt16) :
    (low.toUInt32 ||| high.toUInt32 <<< 16).toNat = low.toNat + high.toNat * 2 ^ 16 := by
  have hlow := low.toNat_lt
  have hhigh := high.toNat_lt
  simp only [UInt32.toNat_or, UInt32.toNat_shiftLeft, UInt16.toNat_toUInt32, UInt32.reduceToNat,
    Nat.reduceMod]
  rw [Nat.mod_eq_of_lt (by rw [Nat.shiftLeft_eq]; omega), Bytes.or_shiftLeft hlow]

theorem halves_of_word (low high : UInt16) :
    (low.toUInt32 ||| high.toUInt32 <<< 16).toUInt16 = low ∧
      ((low.toUInt32 ||| high.toUInt32 <<< 16) >>> 16).toUInt16 = high := by
  have hlow := low.toNat_lt
  have hhigh := high.toNat_lt
  constructor
  · apply UInt16.toNat_inj.mp
    rw [UInt32.toNat_toUInt16, toNat_halves]
    omega
  · apply UInt16.toNat_inj.mp
    rw [UInt32.toNat_toUInt16, UInt32.toNat_shiftRight, toNat_halves, Nat.shiftRight_eq_div_pow]
    simp only [UInt32.reduceToNat, Nat.reduceMod]
    omega

theorem word_of_halves (w : UInt32) :
    w.toUInt16.toUInt32 ||| (w >>> 16).toUInt16.toUInt32 <<< 16 = w := by
  have hw := w.toNat_lt
  apply UInt32.toNat_inj.mp
  rw [toNat_halves, UInt32.toNat_toUInt16, UInt32.toNat_toUInt16, UInt32.toNat_shiftRight,
    Nat.shiftRight_eq_div_pow]
  simp only [UInt32.reduceToNat, Nat.reduceMod]
  omega

theorem StageParams.stage_decode (stage : Stage) (w : StageWords) :
    (decode stage w).stage = stage := by
  cases stage <;> rfl

theorem StageParams.decode_encode (p : StageParams) : decode p.stage p.encode = p := by
  cases p with
  | vertex altEntrypoint altNumGprs => rfl
  | tessControl => rfl
  | tessEval mode => rfl
  | geometry p =>
      obtain ⟨hflag, htable⟩ := isFlagSet_flagByte_pair p.flag47c p.hasTable490
      have hwords : #v[p.table490.get 0, p.table490.get 1, p.table490.get 2, p.table490.get 3,
          p.table490.get 4, p.table490.get 5, p.table490.get 6, p.table490.get 7] =
          p.table490 := by
        apply Vector.ext
        intro k hk
        interval_cases k <;> rfl
      exact congrArg geometry (GeometryParams.mk.injEq .. ▸ ⟨hflag, htable, hwords⟩)
  | fragment p =>
      obtain ⟨htable, hearly, hcoverage, hshading⟩ := isFlagSet_flagByte_four p.hasTable3d1
        p.earlyFragmentTests p.postDepthCoverage p.sampleShading
      obtain ⟨hlow, hhigh⟩ := halves_of_word p.param65b p.param489
      have hwords : #v[p.table3d1.get 0, p.table3d1.get 1, p.table3d1.get 2, p.table3d1.get 3] =
          p.table3d1 := by
        apply Vector.ext
        intro k hk
        interval_cases k <;> rfl
      exact congrArg fragment (FragmentParams.mk.injEq .. ▸
        ⟨htable, hearly, hcoverage, hshading, hwords, rfl, hlow, hhigh⟩)
  | compute p =>
      have hdims : #v[p.blockDims.get 0, p.blockDims.get 1, p.blockDims.get 2] = p.blockDims := by
        apply Vector.ext
        intro k hk
        interval_cases k <;> rfl
      exact congrArg compute (ComputeParams.mk.injEq .. ▸ ⟨hdims, rfl, rfl, rfl, rfl, rfl⟩)

end ShaderBackend
