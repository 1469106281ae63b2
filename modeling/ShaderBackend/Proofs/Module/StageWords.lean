import ShaderBackend.Proofs.Module.Canonical

/-!
The normal form of the words that belong to a stage. Parameters come back from the words that they
are written as. Words that are read and written again come out in the normal form of the stage, in
which nothing is set that the stage does not use and every flag is zero or one.
-/

namespace ShaderBackend

namespace StageWords

/-- The words as they stand in a file. -/
def bytes (w : StageWords) : Bytes :=
  w.toList.flatMap Bytes.ofUInt32

/-- What the stage does not use is zero, and its flags are zero or one. -/
def Normal (stage : Stage) (w : StageWords) : Prop :=
  ∀ k b, w.bytes[k]? = some b →
    (stage.byteKind k = .unused → b = 0) ∧ (stage.byteKind k = .flag → b = 0 ∨ b = 1)

theorem word32At_bytes (w : StageWords) {k : Nat} (hk : k < 9) :
    w.bytes.word32At (4 * k) = w[k] := by
  have hword : w.toList[4 * k / 4]? = some w[k] := by
    rw [Nat.mul_div_cancel_left k (by decide)]
    simp [hk]
  have hat := Bytes.word32At_flatMap (by omega) hword []
  rwa [List.append_nil] at hat

theorem eq_of_bytes_eq {w w' : StageWords} (h : w.bytes = w'.bytes) : w = w' := by
  apply Vector.ext
  intro k hk
  rw [← word32At_bytes w hk, h, word32At_bytes w' hk]

theorem normalize_bytes_eq_self_iff (stage : Stage) (w : StageWords) :
    Bytes.normalize stage.byteKind w.bytes = w.bytes ↔ w.Normal stage := by
  rw [Bytes.normalize_eq_self_iff, Normal]
  simp only [ByteKind.normal_eq_self_iff]

end StageWords

namespace StageParams

theorem decode_encode_decode (stage : Stage) (w : StageWords) :
    decode stage (decode stage w).encode = decode stage w := by
  have h := (decode stage w).decode_encode
  rwa [stage_decode] at h

theorem encode_decode_eq_self_iff (stage : Stage) (w : StageWords) :
    (decode stage w).encode = w ↔ w.Normal stage := by
  have hbytes : (decode stage w).encode.bytes = Bytes.normalize stage.byteKind w.bytes :=
    bytes_encode_decode stage w
  rw [← StageWords.normalize_bytes_eq_self_iff, ← hbytes]
  exact ⟨congrArg StageWords.bytes, StageWords.eq_of_bytes_eq⟩

/-- Parameters come back from their words. Words that are read and written again are the same
parameters in normal form: doing it once more changes nothing, and nothing changes the first time
either exactly if the words and bytes that the stage does not use are zero and its flags are zero or
one. -/
theorem stage_words_codec :
    (∀ p : StageParams, decode p.stage p.encode = p) ∧
    ∀ (stage : Stage) (w : StageWords),
      let normal := (decode stage w).encode
      (decode stage normal).encode = normal ∧ decode stage normal = decode stage w ∧
        (normal = w ↔ w.Normal stage) := by
  refine ⟨decode_encode, fun stage w => ?_⟩
  have hagain := decode_encode_decode stage w
  exact ⟨congrArg encode hagain, hagain, encode_decode_eq_self_iff stage w⟩

/-- Flags written as seven and two, and a byte that geometry programs do not use. -/
def oddFlags : StageWords :=
  #v[0x00010207, 1, 2, 3, 4, 5, 6, 7, 8]

theorem stage_words_codec_oddFlags :
    (decode .geometry oddFlags).encode = #v[0x00000101, 1, 2, 3, 4, 5, 6, 7, 8] ∧
      ¬ oddFlags.Normal .geometry ∧
      StageWords.Normal .geometry #v[0x00000101, 1, 2, 3, 4, 5, 6, 7, 8] := by
  obtain ⟨hagain, -, hsame⟩ := stage_words_codec.2 .geometry oddFlags
  have hnormal : (decode .geometry oddFlags).encode = #v[0x00000101, 1, 2, 3, 4, 5, 6, 7, 8] := by
    decide
  refine ⟨hnormal, fun h => ?_, ?_⟩
  · exact absurd (hnormal.symm.trans (hsame.mpr h)) (by decide)
  · rw [hnormal] at hagain
    exact (stage_words_codec.2 .geometry _).2.2.mp hagain

end StageParams

end ShaderBackend
