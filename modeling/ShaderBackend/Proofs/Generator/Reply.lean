import ShaderBackend.Generator.Reply
import ShaderBackend.Proofs.Bytes
import ShaderBackend.Text.Utf8

/-!
Replies of a generator. Decoding accepts exactly the encodings, whatever bytes follow them, of code
that is a whole number of instructions; and the failure that a generator reports itself, by a
negative status, is the only one that comes without a detail.
-/

namespace ShaderBackend

namespace Reply

/-! ### The outcomes of decoding -/

/-- The header is there and starts with the magic. -/
structure Framed (bytes : Bytes) : Prop where
  length_le : headerLength ≤ bytes.length
  take_eq : bytes.take 4 = magic

def statusOf (bytes : Bytes) : Int32 :=
  (bytes.word32At 4).toInt32

def codeLengthOf (bytes : Bytes) : Nat :=
  (bytes.word32At 20).toNat

def constantsLengthOf (bytes : Bytes) : Nat :=
  (bytes.word32At 24).toNat

/-- The payload is as long as the header says, and the code in it is a whole number of
instructions. -/
structure Complete (bytes : Bytes) : Prop where
  length_le : headerLength + codeLengthOf bytes + constantsLengthOf bytes ≤ bytes.length
  aligned : codeLengthOf bytes % 8 = 0

/-- What a complete reply holds. -/
def contents (bytes : Bytes) : Generated where
  code := (bytes.drop headerLength).take (codeLengthOf bytes)
  numGprs := bytes.word32At 8
  threadScratch := bytes.word32At 12
  numBarriers := bytes.word32At 16
  constants := ((bytes.drop headerLength).drop (codeLengthOf bytes)).take (constantsLengthOf bytes)

/-- Decoding gives the contents of a complete reply or the negative status of a failed one; all else
is malformed. -/
theorem decode_cases (bytes : Bytes) :
    (Framed bytes ∧ 0 ≤ statusOf bytes ∧ Complete bytes ∧ decode bytes = .ok (contents bytes)) ∨
    (Framed bytes ∧ statusOf bytes < 0 ∧ decode bytes = .error { status := statusOf bytes }) ∨
    ((Framed bytes → 0 ≤ statusOf bytes ∧ ¬ Complete bytes) ∧
      ∃ what, decode bytes = .error (malformed what)) := by
  unfold decode
  split
  · rename_i hlength
    exact .inr (.inr ⟨fun h => absurd h.length_le (Nat.not_le.mpr hlength), _, rfl⟩)
  · rename_i hlength
    split
    · rename_i hmagic
      exact .inr (.inr ⟨fun h => absurd h.take_eq (bne_iff_ne.mp hmagic), _, rfl⟩)
    · rename_i hmagic
      have hframed : Framed bytes := ⟨Nat.le_of_not_lt hlength, by simpa using hmagic⟩
      simp only
      split
      · rename_i hstatus
        exact .inr (.inl ⟨hframed, hstatus, rfl⟩)
      · rename_i hstatus
        replace hstatus : 0 ≤ statusOf bytes := Int32.not_lt.mp hstatus
        rw [List.length_drop]
        split
        · rename_i hpayload
          refine .inr (.inr ⟨fun _ => ⟨hstatus, fun h => ?_⟩, _, rfl⟩)
          have hcomplete := h.length_le
          unfold codeLengthOf constantsLengthOf at hcomplete
          omega
        · rename_i hpayload
          split
          · rename_i haligned
            refine .inr (.inr ⟨fun _ => ⟨hstatus, fun h => ?_⟩, _, rfl⟩)
            exact absurd h.aligned (bne_iff_ne.mp haligned)
          · rename_i haligned
            refine .inl ⟨hframed, hstatus, ⟨?_, by simpa [codeLengthOf] using haligned⟩, rfl⟩
            unfold codeLengthOf constantsLengthOf
            omega

/-- Code is decoded from the complete replies whose status is not negative, and from no others. -/
theorem decode_eq_ok_iff {bytes : Bytes} {g : Generated} :
    decode bytes = .ok g ↔
      Framed bytes ∧ 0 ≤ statusOf bytes ∧ Complete bytes ∧ g = contents bytes := by
  obtain ⟨h, hstatus, hcomplete, hdecode⟩ | ⟨h, hstatus, hdecode⟩ | ⟨h, what, hdecode⟩ :=
    decode_cases bytes
  · simp [hdecode, h, hstatus, hcomplete, eq_comm]
  · simp [hdecode, ← Int32.not_lt, hstatus]
  · simp only [hdecode, reduceCtorEq, false_iff]
    rintro ⟨hframed, -, hcomplete, -⟩
    exact (h hframed).2 hcomplete

/-- A failure without a detail is that of a generator that set a negative status. -/
theorem decode_eq_error_iff {bytes : Bytes} {f : Failure} (hdetail : f.detail = none) :
    decode bytes = .error f ↔ Framed bytes ∧ statusOf bytes < 0 ∧ f.status = statusOf bytes := by
  obtain ⟨status, detail⟩ := f
  obtain rfl : detail = none := hdetail
  obtain ⟨h, hstatus, hcomplete, hdecode⟩ | ⟨h, hstatus, hdecode⟩ | ⟨h, what, hdecode⟩ :=
    decode_cases bytes
  · simp [hdecode, Int32.not_lt.mpr hstatus]
  · simp [hdecode, h, hstatus, eq_comm]
  · simp only [hdecode, malformed, Failure.exchange, Except.error.injEq, Failure.mk.injEq,
      reduceCtorEq, and_false, false_iff]
    rintro ⟨hframed, hstatus, -⟩
    exact Int32.not_lt.mpr (h hframed).1 hstatus

/-! ### Encodings -/

/-- The words of an encoding's header after the magic. -/
def countWords (status : Int32) (g : Generated) : List UInt32 :=
  [status.toUInt32, g.numGprs, g.threadScratch, g.numBarriers, UInt32.ofNat g.code.length,
    UInt32.ofNat g.constants.length]

theorem encode_append (status : Int32) (g : Generated) (rest : Bytes) :
    encode status g ++ rest =
      magic ++ ((countWords status g).flatMap Bytes.ofUInt32 ++
        (g.code ++ (g.constants ++ rest))) := by
  simp [encode, countWords]

section Encoding

variable (status : Int32) (g : Generated) (rest : Bytes)

theorem word32At_encode (offset : Nat) {w : UInt32} (hoffset : offset % 4 = 0)
    (h : (countWords status g)[offset / 4]? = some w) :
    (encode status g ++ rest).word32At (4 + offset) = w := by
  have hmagic : magic.length = 4 := rfl
  rw [encode_append, Bytes.word32At, ← List.drop_drop, List.drop_left' hmagic]
  exact Bytes.word32At_flatMap hoffset h _

theorem statusOf_encode : statusOf (encode status g ++ rest) = status := by
  rw [statusOf, word32At_encode status g rest 0 rfl rfl, Int32.toInt32_toUInt32]

theorem codeLengthOf_encode (h : g.code.length < 2 ^ 32) :
    codeLengthOf (encode status g ++ rest) = g.code.length := by
  rw [codeLengthOf, word32At_encode status g rest 16 rfl rfl]
  exact UInt32.toNat_ofNat_of_lt' h

theorem constantsLengthOf_encode (h : g.constants.length < 2 ^ 32) :
    constantsLengthOf (encode status g ++ rest) = g.constants.length := by
  rw [constantsLengthOf, word32At_encode status g rest 20 rfl rfl]
  exact UInt32.toNat_ofNat_of_lt' h

theorem drop_headerLength_encode :
    (encode status g ++ rest).drop headerLength = g.code ++ (g.constants ++ rest) := by
  rw [encode_append, ← List.append_assoc]
  exact List.drop_left' rfl

theorem length_encode :
    (encode status g).length = headerLength + g.code.length + g.constants.length := by
  rw [encode, List.length_append, List.length_append]
  rfl

theorem framed_encode : Framed (encode status g ++ rest) := by
  refine ⟨?_, ?_⟩
  · rw [List.length_append, length_encode]
    omega
  · rw [encode_append]
    exact List.take_left' rfl

end Encoding

/-- An encoding of whole instructions is decoded, whatever follows it. -/
theorem decode_encode {status : Int32} {g : Generated} (hstatus : 0 ≤ status)
    (haligned : g.code.length % 8 = 0) (hcode : g.code.length < 2 ^ 32)
    (hconstants : g.constants.length < 2 ^ 32) (rest : Bytes) :
    decode (encode status g ++ rest) = .ok g := by
  have hcodeLength := codeLengthOf_encode status g rest hcode
  have hconstantsLength := constantsLengthOf_encode status g rest hconstants
  have hcomplete : Complete (encode status g ++ rest) := by
    refine ⟨?_, by rw [hcodeLength, haligned]⟩
    rw [hcodeLength, hconstantsLength, List.length_append, length_encode]
    omega
  have hcontents : contents (encode status g ++ rest) = g := by
    rw [contents, hcodeLength, hconstantsLength, drop_headerLength_encode, List.take_left,
      List.drop_left, List.take_left, word32At_encode status g rest 4 rfl rfl,
      word32At_encode status g rest 8 rfl rfl,
      word32At_encode status g rest 12 rfl rfl]
  rw [decode_eq_ok_iff, statusOf_encode, hcontents]
  exact ⟨framed_encode status g rest, hstatus, hcomplete, rfl⟩

/-- A complete reply is the encoding of what it holds, with more bytes after it. -/
theorem eq_encode_contents {bytes : Bytes} (h : Framed bytes) (hcomplete : Complete bytes) :
    bytes = encode (statusOf bytes) (contents bytes) ++
      bytes.drop (headerLength + codeLengthOf bytes + constantsLengthOf bytes) := by
  have hlength := hcomplete.length_le
  have hcode : (contents bytes).code.length = codeLengthOf bytes := by
    simp only [contents, List.length_take, List.length_drop]
    omega
  have hconstants : (contents bytes).constants.length = constantsLengthOf bytes := by
    simp only [contents, List.length_take, List.length_drop]
    omega
  have hwords : countWords (statusOf bytes) (contents bytes) =
      (List.range 6).map fun k => bytes.word32At (4 + 4 * k) := by
    rw [countWords, hcode, hconstants, statusOf, UInt32.toUInt32_toInt32, codeLengthOf,
      constantsLengthOf, UInt32.ofNat_toNat, UInt32.ofNat_toNat]
    rfl
  have hheader : 4 + 4 * 6 ≤ bytes.length := h.length_le
  rw [encode_append, hwords, Bytes.flatMap_word32At hheader, ← h.take_eq]
  -- The five pieces follow each other in the reply.
  simp only [contents, ← List.drop_drop, List.take_append_drop]
  rw [← List.append_assoc, ← List.take_add]
  exact (List.take_append_drop headerLength bytes).symm

theorem toUtf8_magic : Text.toUtf8 "DKCG" = magic := rfl

theorem framed_iff {bytes : Bytes} :
    Framed bytes ↔ 28 ≤ bytes.length ∧ Text.toUtf8 "DKCG" <+: bytes := by
  rw [toUtf8_magic, List.prefix_iff_eq_take]
  exact ⟨fun h => ⟨h.length_le, h.take_eq.symm⟩, fun h => ⟨h.1, h.2.symm⟩⟩

/-- Code is decoded from exactly the encodings with a status that is not negative, for code of whole
instructions and lengths of 32 bits. A failure has no detail exactly when there is a header with a
negative status, and then it carries that status. -/
theorem decode_accepts_encodings :
    (∀ (bytes : Bytes) (g : Generated), decode bytes = .ok g ↔
      ∃ (status : Int32) (rest : Bytes), 0 ≤ status ∧ bytes = encode status g ++ rest ∧
        g.code.length % 8 = 0 ∧ g.code.length < 2 ^ 32 ∧ g.constants.length < 2 ^ 32) ∧
    (∀ bytes : Bytes,
      ((∃ f, decode bytes = .error f ∧ f.detail = none) ↔
        28 ≤ bytes.length ∧ Text.toUtf8 "DKCG" <+: bytes ∧ (bytes.word32At 4).toInt32 < 0) ∧
      ∀ f, decode bytes = .error f → f.detail = none →
        f.status = (bytes.word32At 4).toInt32) := by
  refine ⟨fun bytes g => ⟨fun hdecode => ?_, ?_⟩, fun bytes => ⟨⟨?_, ?_⟩, ?_⟩⟩
  · obtain ⟨h, hstatus, hcomplete, rfl⟩ := decode_eq_ok_iff.mp hdecode
    have hlength := hcomplete.length_le
    have hcode := (bytes.word32At 20).toNat_lt
    have hconstants := (bytes.word32At 24).toNat_lt
    refine ⟨_, _, hstatus, eq_encode_contents h hcomplete, ?_⟩
    have haligned := hcomplete.aligned
    simp only [contents, List.length_take, List.length_drop]
    unfold codeLengthOf constantsLengthOf at *
    omega
  · rintro ⟨status, rest, hstatus, rfl, haligned, hcode, hconstants⟩
    exact decode_encode hstatus haligned hcode hconstants rest
  · rintro ⟨f, hdecode, hdetail⟩
    obtain ⟨h, hstatus, -⟩ := (decode_eq_error_iff hdetail).mp hdecode
    exact ⟨h.length_le, (framed_iff.mp h).2, hstatus⟩
  · rintro ⟨hlength, hmagic, hstatus⟩
    exact ⟨{ status := statusOf bytes },
      (decode_eq_error_iff rfl).mpr ⟨framed_iff.mpr ⟨hlength, hmagic⟩, hstatus, rfl⟩, rfl⟩
  · intro f hdecode hdetail
    exact ((decode_eq_error_iff hdetail).mp hdecode).2.2

/-- Two instructions and four bytes of constants. -/
def twoInstructions : Generated where
  code := List.replicate 16 0xaa
  numGprs := 12
  threadScratch := 0x40
  numBarriers := 1
  constants := [1, 2, 3, 4]

theorem decode_accepts_encodings_twoInstructions :
    decode (encode 7 twoInstructions ++ [0xff, 0xff]) = .ok twoInstructions ∧
    ∃ f, decode (encode (-5) twoInstructions) = .error f ∧ f.detail = none ∧ f.status = -5 := by
  constructor
  · exact (decode_accepts_encodings.1 _ twoInstructions).mpr
      ⟨7, [0xff, 0xff], by decide, rfl, by decide, by decide, by decide⟩
  · obtain ⟨hnone, hstatus⟩ := decode_accepts_encodings.2 (encode (-5) twoInstructions)
    obtain ⟨f, hdecode, hdetail⟩ := hnone.mpr ⟨by decide, ⟨_, rfl⟩, by decide⟩
    exact ⟨f, hdecode, hdetail, (hstatus f hdecode hdetail).trans (by decide)⟩

end Reply

end ShaderBackend
