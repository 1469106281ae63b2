import ShaderBackend.Proofs.Module.RoundTrip

/-!
Writing a module that was read. Every byte of the file is of one of three kinds: it comes back as it
was, or it is a flag that comes back as zero or one, or it is reserved and comes back as zero. What
is written is the canonical form of what was read, and it is the same bytes exactly when these were
canonical.
-/

namespace ShaderBackend

/-! ### Kinds of bytes -/

/-- What becomes of a byte that is read and written again. -/
inductive ByteKind where
  /-- It stays as it is. -/
  | kept
  /-- It becomes zero or one. -/
  | flag
  /-- It is ignored, and zero is written. -/
  | unused
  deriving DecidableEq, Repr

def ByteKind.normal : ByteKind → UInt8 → UInt8
  | kept, b => b
  | flag, b => if b = 0 then 0 else 1
  | unused, _ => 0

theorem ByteKind.normal_eq_self_iff (kind : ByteKind) (b : UInt8) :
    kind.normal b = b ↔ (kind = unused → b = 0) ∧ (kind = flag → b = 0 ∨ b = 1) := by
  cases kind with
  | kept => simp [normal]
  | flag =>
      by_cases hb : b = 0
      · simp [normal, hb]
      · simp [normal, hb, eq_comm]
  | unused => simp [normal, eq_comm]

namespace Bytes

/-- The canonical form of bytes whose kinds depend on their places. -/
def normalize (kinds : Nat → ByteKind) (bytes : Bytes) : Bytes :=
  bytes.mapIdx fun k b => (kinds k).normal b

theorem getElem?_normalize (kinds : Nat → ByteKind) (bytes : Bytes) (k : Nat) :
    (normalize kinds bytes)[k]? = bytes[k]?.map (kinds k).normal :=
  List.getElem?_mapIdx

theorem normalize_append (kinds : Nat → ByteKind) (bytes more : Bytes) :
    normalize kinds (bytes ++ more) =
      normalize kinds bytes ++ normalize (fun k => kinds (k + bytes.length)) more :=
  List.mapIdx_append

theorem normalize_congr {kinds kinds' : Nat → ByteKind} {bytes : Bytes}
    (h : ∀ k < bytes.length, kinds k = kinds' k) :
    normalize kinds bytes = normalize kinds' bytes := by
  apply List.ext_getElem?
  intro k
  rw [getElem?_normalize, getElem?_normalize]
  by_cases hk : k < bytes.length
  · rw [h k hk]
  · simp [List.getElem?_eq_none (Nat.le_of_not_lt hk)]

theorem normalize_of_forall_kept {kinds : Nat → ByteKind} {bytes : Bytes}
    (h : ∀ k < bytes.length, kinds k = .kept) : normalize kinds bytes = bytes := by
  rw [normalize_congr h]
  simp [normalize, ByteKind.normal, List.mapIdx_eq_iff]

theorem normalize_of_forall_unused {kinds : Nat → ByteKind} {bytes : Bytes}
    (h : ∀ k < bytes.length, kinds k = .unused) :
    normalize kinds bytes = List.replicate bytes.length 0 := by
  rw [normalize_congr h]
  apply List.ext_getElem
  · simp [normalize]
  · simp [normalize, ByteKind.normal]

theorem normalize_eq_self_iff {kinds : Nat → ByteKind} {bytes : Bytes} :
    normalize kinds bytes = bytes ↔ ∀ k b, bytes[k]? = some b → (kinds k).normal b = b := by
  rw [List.ext_getElem?_iff]
  refine forall_congr' fun k => ?_
  rw [getElem?_normalize]
  cases bytes[k]? with
  | none => simp
  | some b => simp

theorem flatMap_replicate_zero (count : Nat) :
    (List.replicate count 0).flatMap ofUInt32 = List.replicate (4 * count) 0 := by
  induction count with
  | zero => rfl
  | succ count ih =>
      rw [List.replicate_succ, List.flatMap_cons, ih, Nat.mul_succ, Nat.add_comm,
        ← List.replicate_append_replicate]
      rfl

/-- Words of which the first ones are kept and the others not used. -/
theorem normalize_words {kinds : Nat → ByteKind} {n : Nat} {words : List UInt32}
    (h : ∀ k < 4 * words.length, kinds k = if k < 4 * n then .kept else .unused) :
    normalize kinds (words.flatMap ofUInt32) =
      (words.take n ++ List.replicate (words.length - n) 0).flatMap ofUInt32 := by
  have hkept : ∀ k < ((words.take n).flatMap ofUInt32).length, kinds k = .kept := by
    intro k hk
    rw [length_flatMap_ofUInt32, List.length_take] at hk
    rw [h k (by omega), if_pos (by omega)]
  have hunused : ∀ k < ((words.drop n).flatMap ofUInt32).length,
      kinds (k + ((words.take n).flatMap ofUInt32).length) = .unused := by
    intro k hk
    rw [length_flatMap_ofUInt32, List.length_drop] at hk
    rw [length_flatMap_ofUInt32, List.length_take, h _ (by omega), if_neg (by omega)]
  calc normalize kinds (words.flatMap ofUInt32)
      = normalize kinds ((words.take n).flatMap ofUInt32 ++ (words.drop n).flatMap ofUInt32) := by
        rw [← List.flatMap_append, List.take_append_drop]
    _ = (words.take n).flatMap ofUInt32 ++ List.replicate (4 * (words.length - n)) 0 := by
        rw [normalize_append, normalize_of_forall_kept hkept, normalize_of_forall_unused hunused,
          length_flatMap_ofUInt32, List.length_drop]
    _ = _ := by rw [List.flatMap_append, flatMap_replicate_zero]

end Bytes

/-! ### Stage words -/

/-- The kinds of the bytes that belong to a stage. -/
def Stage.byteKind : Stage → Nat → ByteKind
  | vertex, k => if k < 8 then .kept else .unused
  | tessControl, _ => .unused
  | tessEval, k => if k < 4 then .kept else .unused
  | geometry, k => if k < 2 then .flag else if k < 4 then .unused else .kept
  | fragment, k => if k < 4 then .flag else if k < 28 then .kept else .unused
  | compute, k => if k < 32 then .kept else .unused

theorem toList_stageWords (w : StageWords) :
    w.toList =
      [w.get 0, w.get 1, w.get 2, w.get 3, w.get 4, w.get 5, w.get 6, w.get 7, w.get 8] := by
  obtain ⟨⟨words⟩, hwords⟩ := w
  match words, hwords with
  | [_, _, _, _, _, _, _, _, _], _ => rfl

theorem normal_flag (b : UInt8) : ByteKind.flag.normal b = if (b != 0) = true then 1 else 0 := by
  by_cases hb : b = 0 <;> simp [ByteKind.normal, hb]

theorem ofUInt32_flags (a b c d : UInt8) :
    Bytes.ofUInt32 (flagByte (a != 0) 0 ||| flagByte (b != 0) 8 ||| flagByte (c != 0) 16 |||
        flagByte (d != 0) 24) = [a, b, c, d].map ByteKind.flag.normal := by
  simp only [List.map_cons, List.map_nil, normal_flag]
  generalize (a != 0) = a, (b != 0) = b, (c != 0) = c, (d != 0) = d
  revert a b c d
  decide

theorem isFlagSet_zero (w : UInt32) : isFlagSet w 0 = (w.toUInt8 != 0) := by
  rw [isFlagSet, UInt32.shiftRight_zero]

theorem bytes_fragment_flags (w : UInt32) :
    Bytes.ofUInt32 (flagByte (isFlagSet w 0) 0 ||| flagByte (isFlagSet w 8) 8 |||
        flagByte (isFlagSet w 16) 16 ||| flagByte (isFlagSet w 24) 24) =
      Bytes.normalize Stage.fragment.byteKind (Bytes.ofUInt32 w) := by
  rw [isFlagSet_zero]
  exact ofUInt32_flags _ _ _ _

theorem bytes_geometry_flags (w : UInt32) :
    Bytes.ofUInt32 (flagByte (isFlagSet w 0) 0 ||| flagByte (isFlagSet w 8) 8) =
      Bytes.normalize Stage.geometry.byteKind (Bytes.ofUInt32 w) := by
  -- The two bytes that are not used come out like flags that are not set.
  have hflags := ofUInt32_flags w.toUInt8 (w >>> 8).toUInt8 0 0
  have hzero : flagByte (0 != (0 : UInt8)) 16 = 0 ∧ flagByte (0 != (0 : UInt8)) 24 = 0 := by decide
  rw [hzero.1, hzero.2, UInt32.or_zero, UInt32.or_zero] at hflags
  rw [isFlagSet_zero]
  exact hflags

/-- A stage that uses its first words and no others. -/
theorem bytes_leading_words (stage : Stage) (n : Nat)
    (h : ∀ k, stage.byteKind k = if k < 4 * n then .kept else .unused) (w : StageWords) :
    Bytes.normalize stage.byteKind (w.toList.flatMap Bytes.ofUInt32) =
      (w.toList.take n ++ List.replicate (9 - n) 0).flatMap Bytes.ofUInt32 := by
  rw [Bytes.normalize_words fun k _ => h k, Vector.length_toList]

/-- A stage with flags in its first word, which uses the words after it up to some place. -/
theorem bytes_flags_and_words (stage : Stage) (n : Nat)
    (h : ∀ k < 32, stage.byteKind (k + 4) = if k < 4 * n then .kept else .unused)
    (w : StageWords) :
    Bytes.normalize stage.byteKind (w.toList.flatMap Bytes.ofUInt32) =
      Bytes.normalize stage.byteKind (Bytes.ofUInt32 (w.get 0)) ++
        (w.toList.tail.take n ++ List.replicate (8 - n) 0).flatMap Bytes.ofUInt32 := by
  have hwords : w.toList = w.get 0 :: w.toList.tail := by rw [toList_stageWords, List.tail_cons]
  have hlength : (Bytes.ofUInt32 (w.get 0)).length = 4 := rfl
  have hrest : w.toList.tail.length = 8 := by rw [List.length_tail, Vector.length_toList]
  rw [hwords, List.flatMap_cons, Bytes.normalize_append, hlength,
    Bytes.normalize_words (by rwa [hrest]), List.tail_cons, hrest]

/-- The bytes of a stage come back in their canonical form. -/
theorem bytes_encode_decode (stage : Stage) (w : StageWords) :
    (StageParams.decode stage w).encode.toList.flatMap Bytes.ofUInt32 =
      Bytes.normalize stage.byteKind (w.toList.flatMap Bytes.ofUInt32) := by
  cases stage with
  | vertex =>
      rw [bytes_leading_words .vertex 2 (fun _ => rfl), toList_stageWords w]
      rfl
  | tessControl =>
      rw [bytes_leading_words .tessControl 0 fun k => (if_neg (Nat.not_lt_zero k)).symm,
        toList_stageWords w]
      rfl
  | tessEval =>
      rw [bytes_leading_words .tessEval 1 (fun _ => rfl), toList_stageWords w]
      rfl
  | geometry =>
      have hrest : ∀ k < 32, Stage.geometry.byteKind (k + 4) =
          if k < 4 * 8 then .kept else .unused := by
        intro k hk
        rw [Stage.byteKind, if_neg (by omega), if_neg (by omega), if_pos hk]
      rw [bytes_flags_and_words .geometry 8 hrest, toList_stageWords w, ← bytes_geometry_flags]
      rfl
  | fragment =>
      have hrest : ∀ k < 32, Stage.fragment.byteKind (k + 4) =
          if k < 4 * 6 then .kept else .unused := by
        intro k _
        rw [Stage.byteKind, if_neg (by omega)]
        exact if_congr (by omega) rfl rfl
      rw [bytes_flags_and_words .fragment 6 hrest, toList_stageWords w, ← bytes_fragment_flags,
        ← word_of_halves (w.get 6)]
      rfl
  | compute =>
      rw [bytes_leading_words .compute 8 (fun _ => rfl), toList_stageWords w]
      rfl

/-! ### Program headers -/

theorem Stage.programType_of_ofProgramType? {tag : UInt32} {stage : Stage}
    (h : ofProgramType? tag = some stage) : stage.programType = tag := by
  simpa using List.find?_some h

namespace ProgramHeader

/-- The kinds of the bytes of a program header. -/
def byteKind (p : ProgramHeader) (k : Nat) : ByteKind :=
  if k < 24 then .kept
  else if k < 60 then p.stage.byteKind (k - 24)
  else .unused

theorem toList_stageWords (bytes : Bytes) :
    (stageWords bytes).toList = (List.range 9).map fun k => bytes.word32At (24 + 4 * k) :=
  rfl

theorem toWords_of_ofBytes {bytes : Bytes} {p : ProgramHeader} (h : ofBytes bytes = .ok p) :
    p.toWords = ((List.range 6).map fun k => bytes.word32At (0 + 4 * k)) ++
      (StageParams.decode p.stage (stageWords bytes)).encode.toList ++ [0] := by
  unfold ofBytes at h
  simp only at h
  split at h
  · cases h
  · rename_i stage hstage
    cases h
    have hparams : StageParams.stage (.decode stage (stageWords bytes)) = stage :=
      StageParams.stage_decode stage _
    have htag := Stage.programType_of_ofProgramType? hstage
    simp only [toWords, ProgramHeader.stage, hparams, htag]
    rfl

/-- A program header comes back in its canonical form. -/
theorem toBytes_eq_normalize {bytes : Bytes} {p : ProgramHeader} (h : ofBytes bytes = .ok p)
    (hlength : 64 ≤ bytes.length) : p.toBytes = Bytes.normalize p.byteKind (bytes.take 64) := by
  have hwords : ((bytes.drop 0).take (4 * 6)).length = 24 := by
    rw [List.length_take, List.length_drop]
    omega
  have hstage : ((bytes.drop 24).take (4 * 9)).length = 36 := by
    rw [List.length_take, List.length_drop]
    omega
  have hreserved : ((bytes.drop 60).take 4).length = 4 := by
    rw [List.length_take, List.length_drop]
    omega
  have hparts : bytes.take 64 = (bytes.drop 0).take (4 * 6) ++ (bytes.drop 24).take (4 * 9) ++
      (bytes.drop 60).take 4 := by
    rw [List.drop_zero, ← List.take_add, ← List.take_add]
  rw [toBytes, toWords_of_ofBytes h, List.flatMap_append, List.flatMap_append,
    Bytes.flatMap_word32At (by omega), bytes_encode_decode, toList_stageWords,
    Bytes.flatMap_word32At (by omega), hparts, Bytes.normalize_append, Bytes.normalize_append,
    List.length_append, hwords, hstage]
  congr 1
  · congr 1
    · refine (Bytes.normalize_of_forall_kept fun k hk => if_pos ?_).symm
      rwa [hwords] at hk
    · refine Bytes.normalize_congr fun k hk => ?_
      rw [hstage] at hk
      rw [byteKind, if_neg (by omega), if_pos (by omega), Nat.add_sub_cancel]
  · rw [Bytes.normalize_of_forall_unused, hreserved]
    · rfl
    · intro k hk
      rw [byteKind, if_neg (by omega), if_neg (by omega)]

/-- The kinds of the bytes of consecutive program headers. -/
def byteKinds (programs : List ProgramHeader) (k : Nat) : ByteKind :=
  match programs[k / 64]? with
  | some p => p.byteKind (k % 64)
  | none => .unused

theorem flatMap_toBytes_eq_normalize {length index count : Nat} {bytes : Bytes}
    {programs : List ProgramHeader} (h : readAll length index count bytes = .ok programs)
    (hlength : 64 * count ≤ bytes.length) :
    programs.flatMap toBytes = Bytes.normalize (byteKinds programs) (bytes.take (64 * count)) := by
  induction count generalizing index bytes programs with
  | zero =>
      cases h
      rfl
  | succ count ih =>
      simp only [readAll, Except.bind_eq_ok_iff] at h
      obtain ⟨p, hp, rest, hrest, h⟩ := h
      cases h
      have hfirst : (bytes.take 64).length = 64 := by
        rw [List.length_take]
        omega
      have hrestLength : 64 * count ≤ (bytes.drop Module.programHeaderSize).length := by
        rw [List.length_drop, Module.programHeaderSize]
        omega
      rw [List.flatMap_cons, toBytes_eq_normalize (read_eq_ok_iff.mp hp).1 (by omega),
        ih hrest hrestLength, Nat.mul_succ, Nat.add_comm, List.take_add, Bytes.normalize_append,
        hfirst]
      congr 1
      · refine Bytes.normalize_congr fun k hk => ?_
        rw [hfirst] at hk
        rw [byteKinds, Nat.div_eq_of_lt hk, Nat.mod_eq_of_lt hk]
        rfl
      · refine Bytes.normalize_congr fun k _ => ?_
        rw [byteKinds, byteKinds, Nat.add_div_right _ (by decide), Nat.add_mod_right]
        rfl

end ProgramHeader

/-! ### Modules -/

namespace Module

/-- The kinds of the bytes of a module's file: after the four words of the header come eight
reserved ones, then the data and the program headers. -/
def byteKind (m : Module) (k : Nat) : ByteKind :=
  if k < 16 then .kept
  else if k < 48 then .unused
  else if k < 48 + m.data.length then .kept
  else ProgramHeader.byteKinds m.programs (k - (48 + m.data.length))

theorem headerWords_of_readFrom {bytes : Bytes} {m : Module} (h : ReadFrom bytes m) :
    m.headerWords =
      ((List.range 4).map fun k => bytes.word32At (0 + 4 * k)) ++ List.replicate 8 0 := by
  have hcount : UInt32.ofNat m.programs.length = bytes.word32At 8 := by
    rw [← h.count_eq, UInt32.ofNat_toNat]
  have hsize : m.moduleSize = bytes.word32At 12 := by
    rw [moduleSize, headerSize, ← h.size_eq, UInt32.ofNat_toNat]
  rw [headerWords, hcount, hsize, ← h.magic_eq, ← h.version_eq]
  rfl

/-- What is written is the canonical form of what was read. -/
theorem toBytes_eq_normalize {bytes : Bytes} {m : Module} (h : ReadFrom bytes m) :
    m.toBytes = Bytes.normalize m.byteKind (bytes.take m.fileSize) := by
  have hfile : 48 + m.data.length + m.programs.length * 64 ≤ bytes.length := h.length_le
  have hwords : ((bytes.drop 0).take (4 * 4)).length = 16 := by
    rw [List.length_take, List.length_drop]
    omega
  have hreserved : ((bytes.drop 16).take 32).length = 32 := by
    rw [List.length_take, List.length_drop]
    omega
  have hparts : bytes.take m.fileSize = (bytes.drop 0).take (4 * 4) ++ (bytes.drop 16).take 32 ++
      m.data ++ (bytes.drop (48 + m.data.length)).take (64 * m.programs.length) := by
    have hheader : bytes.take 48 = (bytes.drop 0).take (4 * 4) ++ (bytes.drop 16).take 32 := by
      rw [List.drop_zero, ← List.take_add]
    rw [fileSize, headerSize, programHeaderSize, Nat.mul_comm, List.take_add, List.take_add,
      h.data_eq, hheader]
  have hprograms := ProgramHeader.flatMap_toBytes_eq_normalize h.programs_eq (by
    rw [List.length_drop]
    omega)
  rw [toBytes, headerWords_of_readFrom h, hprograms, List.flatMap_append,
    Bytes.flatMap_word32At (by omega), Bytes.flatMap_replicate_zero, hparts,
    Bytes.normalize_append, Bytes.normalize_append, Bytes.normalize_append]
  simp only [List.length_append, hwords, hreserved]
  congr 1
  · congr 1
    · congr 1
      · refine (Bytes.normalize_of_forall_kept fun k hk => if_pos ?_).symm
        rwa [hwords] at hk
      · rw [Bytes.normalize_of_forall_unused, hreserved]
        intro k hk
        rw [byteKind, if_neg (by omega), if_pos (by omega)]
    · refine (Bytes.normalize_of_forall_kept fun k hk => ?_).symm
      rw [byteKind, if_neg (by omega), if_neg (by omega), if_pos (by omega)]
  · refine Bytes.normalize_congr fun k _ => ?_
    rw [byteKind, if_neg (by omega), if_neg (by omega), if_neg (by omega)]
    congr 1
    omega

/-- What is written has the bytes that were read, in their canonical form. -/
theorem getElem?_toBytes {bytes : Bytes} {m : Module} (h : ReadFrom bytes m) {k : Nat}
    (hk : k < m.fileSize) : m.toBytes[k]? = bytes[k]?.map (m.byteKind k).normal := by
  rw [toBytes_eq_normalize h, Bytes.getElem?_normalize, List.getElem?_take_of_lt hk]

/-- The bytes that were read are canonical if reserved ones are zero and flags are zero or one. -/
theorem toBytes_eq_take_iff {bytes : Bytes} {m : Module} (h : ReadFrom bytes m) :
    m.toBytes = bytes.take m.fileSize ↔
      ∀ k < m.fileSize, (m.byteKind k = .unused → bytes[k]? = some 0) ∧
        (m.byteKind k = .flag → bytes[k]? = some 0 ∨ bytes[k]? = some 1) := by
  rw [toBytes_eq_normalize h, Bytes.normalize_eq_self_iff]
  have hlength := h.length_le
  constructor
  · intro hcanonical k hk
    have hbyte : bytes[k]? = some bytes[k] := List.getElem?_eq_getElem (hk.trans_le hlength)
    have hnormal := hcanonical k bytes[k] (by rw [List.getElem?_take_of_lt hk, hbyte])
    simpa [hbyte] using (ByteKind.normal_eq_self_iff _ _).mp hnormal
  · intro hbytes k b hb
    obtain ⟨hk, -⟩ := List.getElem?_eq_some_iff.mp hb
    rw [List.length_take, Nat.lt_min] at hk
    rw [List.getElem?_take_of_lt hk.1] at hb
    rw [ByteKind.normal_eq_self_iff]
    simpa [hb] using hbytes k hk.1

end Module

/-- Writing a module that was read gives the canonical form of its bytes: as long as the module
says, read as the same module, and with every byte as it was that is not reserved, unused or a flag.
The bytes are the same exactly when the reserved and unused ones were zero and the flags zero or
one. So all bytes that are read as this module have one canonical form, and whatever digest of its
bytes identifies a module, it is that of the canonical form. -/
theorem Module.write_canonical (bytes : Bytes) (m : Module) (h : ofBytes bytes = .ok m) :
    m.toBytes.length = m.fileSize ∧ m.fileSize ≤ bytes.length ∧ ofBytes m.toBytes = .ok m ∧
    (∀ k < m.fileSize, m.byteKind k = .kept → m.toBytes[k]? = bytes[k]?) ∧
    (m.toBytes = bytes.take m.fileSize ↔
      ∀ k < m.fileSize, (m.byteKind k = .unused → bytes[k]? = some 0) ∧
        (m.byteKind k = .flag → bytes[k]? = some 0 ∨ bytes[k]? = some 1)) ∧
    ∀ (bytes' : Bytes) (m' : Module), ofBytes bytes' = .ok m' → m' = m →
      Bytes.normalize m.byteKind (bytes'.take m.fileSize) =
        Bytes.normalize m.byteKind (bytes.take m.fileSize) ∧
      ∀ digest : Bytes → Vector UInt8 32, m'.hashBy digest =
        ⟨digest (Bytes.normalize m.byteKind (bytes.take m.fileSize))⟩ := by
  have hread := readFrom_of_ofBytes h
  refine ⟨m.length_toBytes, hread.length_le, ?_, fun k hk hkept => ?_, toBytes_eq_take_iff hread,
    fun bytes' m' h' heq => ?_⟩
  · simpa using ofBytes_toBytes_append (valid_of_ofBytes h) []
  · rw [getElem?_toBytes hread hk, hkept]
    cases bytes[k]? with
    | none => rfl
    | some b => rfl
  · subst heq
    have hsame := toBytes_eq_normalize hread
    refine ⟨(toBytes_eq_normalize (readFrom_of_ofBytes h')).symm.trans hsame, fun digest => ?_⟩
    rw [hashBy, hsame]

/-- A module with one program that has a flag set. -/
def sampleShaded : Module where
  programs := [{
    entrypoint := 0, numGprs := 4, constantsOffset := 0, constantsSize := 0, warpScratch := 0
    params := .fragment { sampleShading := true } }]
  data := List.replicate 16 0

/-- A reserved byte and a flag byte that are not canonical, and a byte after the module. -/
theorem Module.write_canonical_sampleShaded :
    let bytes := (sampleShaded.toBytes.set 20 7).set 91 2 ++ [0xff]
    ofBytes bytes = .ok sampleShaded ∧ sampleShaded.fileSize = 128 ∧
      sampleShaded.byteKind 91 = .flag ∧ sampleShaded.toBytes[64]? = bytes[64]? ∧
      sampleShaded.toBytes ≠ bytes.take 128 := by
  intro bytes
  have h : ofBytes bytes = .ok sampleShaded := by decide +kernel
  obtain ⟨-, -, -, hkept, hsame, -⟩ := write_canonical bytes sampleShaded h
  refine ⟨h, rfl, rfl, hkept 64 (by decide) rfl, fun heq => ?_⟩
  have hreserved : bytes[20]? = some 0 := (hsame.mp heq 20 (by decide)).1 rfl
  exact absurd hreserved (by decide +kernel)

end ShaderBackend
