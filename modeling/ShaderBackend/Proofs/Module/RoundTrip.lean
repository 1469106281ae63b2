import ShaderBackend.Module.Builder
import ShaderBackend.Module.Hash
import ShaderBackend.Module.Reader
import ShaderBackend.Proofs.Except
import ShaderBackend.Proofs.Module.Words

/-!
Reading a module undoes writing it, whatever bytes follow. This holds of the valid modules: those
whose sizes fit into the fields of the header, and whose programs stay inside the data. Every module
that is built or read is valid.
-/

namespace ShaderBackend

/-- Where a program of a module can lie, for data of a given length. -/
structure ProgramHeader.Inside (length : Nat) (p : ProgramHeader) : Prop where
  entrypoint_le : p.entrypoint.toNat ≤ length
  constants_le : p.constantsOffset.toNat + p.constantsSize.toNat ≤ length

structure Module.Valid (m : Module) : Prop where
  aligned : (48 + m.data.length) % 64 = 0
  size_lt : 48 + m.data.length < 2 ^ 32
  count_lt : m.programs.length < 2 ^ 32
  inside : ∀ p ∈ m.programs, p.Inside m.data.length

/-! ### Program headers -/

namespace ProgramHeader

theorem Inside.mono {n n' : Nat} (hn : n ≤ n') {p : ProgramHeader} (h : p.Inside n) :
    p.Inside n' :=
  ⟨h.entrypoint_le.trans hn, h.constants_le.trans hn⟩

theorem length_toWords (p : ProgramHeader) : p.toWords.length = 16 := by
  simp [toWords]

theorem length_toBytes (p : ProgramHeader) : p.toBytes.length = 64 := by
  rw [toBytes, Bytes.length_flatMap_ofUInt32, length_toWords]

theorem length_flatMap_toBytes (programs : List ProgramHeader) :
    (programs.flatMap toBytes).length = programs.length * 64 := by
  induction programs with
  | nil => rfl
  | cons p programs ih =>
      rw [List.flatMap_cons, List.length_append, length_toBytes, ih, List.length_cons]
      omega

theorem stageWords_toBytes (p : ProgramHeader) (t : Bytes) :
    stageWords (p.toBytes ++ t) = p.params.encode := by
  apply Vector.ext
  intro k hk
  rw [stageWords, Vector.getElem_ofFn]
  refine Bytes.word32At_flatMap (by omega) ?_ t
  have hindex : (24 + 4 * k) / 4 = 6 + k := by omega
  rw [hindex, toWords, List.append_assoc, List.getElem?_append_right (by simp)]
  simp [List.getElem?_append, hk]

theorem ofProgramType?_programType (stage : Stage) :
    Stage.ofProgramType? stage.programType = some stage := by
  cases stage <;> decide

theorem ofBytes_toBytes (p : ProgramHeader) (t : Bytes) : ofBytes (p.toBytes ++ t) = .ok p := by
  have hword : ∀ {offset : Nat} {w : UInt32}, offset % 4 = 0 → p.toWords[offset / 4]? = some w →
      (p.toBytes ++ t).word32At offset = w :=
    fun hoffset hw => Bytes.word32At_flatMap hoffset hw t
  have htag : (p.toBytes ++ t).word32At 0 = p.stage.programType := hword (by decide) rfl
  have hentry : (p.toBytes ++ t).word32At 4 = p.entrypoint := hword (by decide) rfl
  have hgprs : (p.toBytes ++ t).word32At 8 = p.numGprs := hword (by decide) rfl
  have hoffset : (p.toBytes ++ t).word32At 12 = p.constantsOffset := hword (by decide) rfl
  have hsize : (p.toBytes ++ t).word32At 16 = p.constantsSize := hword (by decide) rfl
  have hscratch : (p.toBytes ++ t).word32At 20 = p.warpScratch := hword (by decide) rfl
  have hparams : StageParams.decode p.stage p.params.encode = p.params := p.params.decode_encode
  unfold ofBytes
  simp only [htag, ofProgramType?_programType, hentry, hgprs, hoffset, hsize, hscratch,
    stageWords_toBytes, hparams]

theorem read_eq_ok_iff {length index : Nat} {bytes : Bytes} {p : ProgramHeader} :
    read length index bytes = .ok p ↔ ofBytes bytes = .ok p ∧ p.Inside length := by
  unfold read
  split
  · rename_i hbytes
    simp [hbytes]
  · rename_i q hbytes
    simp only [hbytes, Except.ok.injEq]
    constructor
    · intro h
      split at h
      · cases h
      · rename_i hentry
        split at h
        · cases h
        · rename_i hconstants
          cases h
          exact ⟨rfl, Nat.le_of_not_lt hentry, Nat.le_of_not_lt hconstants⟩
    · rintro ⟨rfl, hinside⟩
      rw [if_neg (Nat.not_lt.mpr hinside.entrypoint_le),
        if_neg (Nat.not_lt.mpr hinside.constants_le)]

theorem readAll_flatMap_toBytes {length : Nat} {programs : List ProgramHeader}
    (h : ∀ p ∈ programs, p.Inside length) (index : Nat) (t : Bytes) :
    readAll length index programs.length (programs.flatMap toBytes ++ t) = .ok programs := by
  induction programs generalizing index with
  | nil => rfl
  | cons p programs ih =>
      have hrest : (p.toBytes ++ (programs.flatMap toBytes ++ t)).drop Module.programHeaderSize =
          programs.flatMap toBytes ++ t := List.drop_left' (length_toBytes p)
      rw [List.length_cons, List.flatMap_cons, List.append_assoc, readAll,
        read_eq_ok_iff.mpr ⟨ofBytes_toBytes p _, h p (by simp)⟩, hrest]
      simp only [Except.ok_bind, ih fun x hx => h x (by simp [hx])]
      rfl

theorem readAll_eq_ok {length index count : Nat} {bytes : Bytes} {programs : List ProgramHeader}
    (h : readAll length index count bytes = .ok programs) :
    programs.length = count ∧ ∀ p ∈ programs, p.Inside length := by
  induction count generalizing index bytes programs with
  | zero =>
      cases h
      simp
  | succ count ih =>
      simp only [readAll, Except.bind_eq_ok_iff] at h
      obtain ⟨p, hp, rest, hrest, h⟩ := h
      cases h
      obtain ⟨hcount, hinside⟩ := ih hrest
      refine ⟨by rw [List.length_cons, hcount], ?_⟩
      simpa using ⟨(read_eq_ok_iff.mp hp).2, hinside⟩

end ProgramHeader

/-! ### Modules -/

namespace Module

theorem length_header (m : Module) : (m.headerWords.flatMap Bytes.ofUInt32).length = 48 := by
  rw [Bytes.length_flatMap_ofUInt32]
  rfl

theorem length_toBytes (m : Module) : m.toBytes.length = m.fileSize := by
  rw [toBytes, List.length_append, List.length_append, length_header,
    ProgramHeader.length_flatMap_toBytes]
  rfl

theorem ofBytes_toBytes_append {m : Module} (hm : m.Valid) (t : Bytes) :
    ofBytes (m.toBytes ++ t) = .ok m := by
  have hbytes : m.toBytes ++ t = m.headerWords.flatMap Bytes.ofUInt32 ++
      (m.data ++ (m.programs.flatMap ProgramHeader.toBytes ++ t)) := by
    rw [toBytes, List.append_assoc, List.append_assoc]
  have hword : ∀ {offset : Nat} {w : UInt32}, offset % 4 = 0 → m.headerWords[offset / 4]? = some w →
      (m.toBytes ++ t).word32At offset = w := by
    intro offset w hoffset hw
    rw [hbytes, Bytes.word32At_flatMap hoffset hw]
  have hmagic : (m.toBytes ++ t).word32At 0 = magic := hword (by decide) rfl
  have hversion : (m.toBytes ++ t).word32At 4 = version := hword (by decide) rfl
  have hcount : ((m.toBytes ++ t).word32At 8).toNat = m.programs.length := by
    rw [hword (w := UInt32.ofNat m.programs.length) (by decide) rfl]
    exact UInt32.toNat_ofNat_of_lt' hm.count_lt
  have hsize : ((m.toBytes ++ t).word32At 12).toNat = 48 + m.data.length := by
    rw [hword (w := m.moduleSize) (by decide) rfl]
    exact UInt32.toNat_ofNat_of_lt' hm.size_lt
  have hlength : (m.toBytes ++ t).length =
      48 + m.data.length + m.programs.length * 64 + t.length := by
    rw [List.length_append, length_toBytes]
    rfl
  have hdata : ((m.toBytes ++ t).drop 48).take (48 + m.data.length - 48) = m.data := by
    rw [hbytes, List.drop_left' (length_header m), Nat.add_sub_cancel_left, List.take_left]
  have hprograms : (m.toBytes ++ t).drop (48 + m.data.length) =
      m.programs.flatMap ProgramHeader.toBytes ++ t := by
    rw [hbytes, ← List.drop_drop, List.drop_left' (length_header m), List.drop_left]
  have hshort : ¬ (m.toBytes ++ t).length < headerSize := by
    rw [hlength, headerSize]
    omega
  have hbad : ¬ (decide (48 + m.data.length < headerSize) ||
      (48 + m.data.length) % alignment != 0) = true := by
    have haligned : (48 + m.data.length) % alignment = 0 := hm.aligned
    rw [haligned, headerSize]
    simp
  have htruncated : ¬ (m.toBytes ++ t).length <
      48 + m.data.length + m.programs.length * programHeaderSize := by
    rw [hlength, programHeaderSize]
    omega
  unfold ofBytes
  simp only [hmagic, hversion, hcount, hsize, bne_self_eq_false, Bool.false_eq_true, if_false]
  rw [if_neg hshort, if_neg hbad, if_neg htruncated]
  simp only [headerSize, hdata, hprograms, ProgramHeader.readAll_flatMap_toBytes hm.inside,
    Except.ok_bind]
  rfl

/-- How the parts of a module stand in the bytes that it was read from. -/
structure ReadFrom (bytes : Bytes) (m : Module) : Prop where
  magic_eq : bytes.word32At 0 = magic
  version_eq : bytes.word32At 4 = version
  count_eq : (bytes.word32At 8).toNat = m.programs.length
  size_eq : (bytes.word32At 12).toNat = 48 + m.data.length
  aligned : (48 + m.data.length) % 64 = 0
  length_le : m.fileSize ≤ bytes.length
  data_eq : (bytes.drop 48).take m.data.length = m.data
  programs_eq : ProgramHeader.readAll m.data.length 0 m.programs.length
    (bytes.drop (48 + m.data.length)) = .ok m.programs

theorem readFrom_of_ofBytes {bytes : Bytes} {m : Module} (h : ofBytes bytes = .ok m) :
    ReadFrom bytes m := by
  unfold ofBytes at h
  split at h
  · cases h
  · split at h
    · cases h
    · rename_i hmagic
      split at h
      · cases h
      · rename_i hversion
        simp only at h
        split at h
        · cases h
        · rename_i hsize
          split at h
          · cases h
          · rename_i hlength
            simp only [Except.bind_eq_ok_iff] at h
            obtain ⟨programs, hprograms, h⟩ := h
            cases h
            simp only [Bool.or_eq_true, decide_eq_true_eq, bne_iff_ne, not_or, not_not,
              Nat.not_lt] at hsize hlength hmagic hversion
            obtain ⟨hleast, haligned⟩ := hsize
            obtain ⟨hcount, -⟩ := ProgramHeader.readAll_eq_ok hprograms
            have hdata : 48 + ((bytes.drop headerSize).take
                ((bytes.word32At 12).toNat - headerSize)).length = (bytes.word32At 12).toNat := by
              unfold headerSize programHeaderSize at *
              rw [List.length_take, List.length_drop]
              omega
            refine ⟨hmagic, hversion, hcount.symm, hdata.symm, ?_, ?_, ?_, ?_⟩
            · rw [hdata]
              exact haligned
            · simp only [fileSize, hcount]
              rw [headerSize] at *
              rw [hdata]
              exact hlength
            · rw [headerSize] at *
              simp
            · simp only [hdata, hcount]
              exact hprograms

theorem valid_of_ofBytes {bytes : Bytes} {m : Module} (h : ofBytes bytes = .ok m) : m.Valid := by
  have hread := readFrom_of_ofBytes h
  refine ⟨hread.aligned, ?_, ?_, (ProgramHeader.readAll_eq_ok hread.programs_eq).2⟩
  · rw [← hread.size_eq]
    exact (bytes.word32At 12).toNat_lt
  · rw [← hread.count_eq]
    exact (bytes.word32At 8).toNat_lt

end Module

/-! ### Modules that are built -/

namespace ModuleBuilder

theorem length_le_aligned (data : Bytes) : data.length ≤ (aligned data).length := by
  rw [aligned, Bytes.padTo, List.length_append]
  exact Nat.le_add_right _ _

theorem toNat_ofNat_le (n : Nat) : (UInt32.ofNat n).toNat ≤ n := by
  rw [UInt32.toNat_ofNat']
  exact Nat.mod_le n _

/-- The data only grows, and the code and the constants of a program lie in it. -/
theorem place_spec (data : Bytes) (p : ProgramData) :
    data.length ≤ (place data p).1.length ∧ (place data p).2.1 ≤ (place data p).1.length ∧
      (place data p).2.2 + p.constants.length ≤ (place data p).1.length := by
  have hstart := length_le_aligned data
  have hcode := length_le_aligned (aligned data ++ p.code)
  have hconstants := length_le_aligned (aligned (aligned data ++ p.code) ++ p.constants)
  rw [List.length_append] at hcode hconstants
  unfold place
  simp only
  split
  · rename_i hempty
    rw [List.isEmpty_iff] at hempty
    simp only [hempty, List.length_nil]
    omega
  · simp only
    omega

/-- Every program that was added stays inside the data. -/
def Inside (b : ModuleBuilder) : Prop :=
  ∀ p ∈ b.programs, p.Inside b.data.length

theorem inside_nil : Inside {} := by
  intro header hheader
  cases hheader

theorem inside_add {b : ModuleBuilder} (hb : b.Inside) (p : ProgramData) : (b.add p).Inside := by
  obtain ⟨hgrows, hentry, hconstants⟩ := place_spec b.data p
  intro header hheader
  rcases List.mem_append.mp hheader with hheader | hheader
  · exact (hb header hheader).mono hgrows
  · obtain rfl := List.mem_singleton.mp hheader
    -- Offsets are cut to 32 bits, which can only make them smaller.
    refine ⟨(toNat_ofNat_le _).trans hentry, ?_⟩
    exact (Nat.add_le_add (toNat_ofNat_le _) (toNat_ofNat_le _)).trans hconstants

theorem inside_foldl_add (programs : List ProgramData) {b : ModuleBuilder} (hb : b.Inside) :
    (programs.foldl add b).Inside := by
  induction programs generalizing b with
  | nil => exact hb
  | cons p programs ih => exact ih (inside_add hb p)

/-- Header and data together fill a multiple of 64 bytes. -/
theorem length_build (b : ModuleBuilder) :
    48 + b.build.data.length = alignUp (48 + b.data.length) 64 := by
  have hle : 48 + b.data.length ≤ alignUp (48 + b.data.length) 64 := le_alignUp (by decide) _
  simp only [build, Module.headerSize, Module.alignment, List.length_append, List.length_replicate]
  omega

theorem aligned_build (b : ModuleBuilder) : (48 + b.build.data.length) % 64 = 0 := by
  rw [length_build]
  exact Nat.mul_mod_left _ _

theorem length_le_build (b : ModuleBuilder) : b.data.length ≤ b.build.data.length :=
  (List.prefix_append _ _).length_le

theorem valid_build_of_lt {b : ModuleBuilder} (hb : b.Inside)
    (hsize : 48 + b.build.data.length < 2 ^ 32) (hcount : b.programs.length < 2 ^ 32) :
    b.build.Valid :=
  ⟨aligned_build b, hsize, hcount, fun p hp => (hb p hp).mono (length_le_build b)⟩

theorem valid_build {b : ModuleBuilder} (hb : b.Inside) (h : b.build.fileSize < 2 ^ 32) :
    b.build.Valid := by
  have hfile : 48 + b.build.data.length + b.programs.length * 64 < 2 ^ 32 := h
  exact valid_build_of_lt hb (by omega) (by omega)

end ModuleBuilder

/-- Reading gives back every valid module, whatever bytes follow it, and so every module that is
built within the range of 32-bit offsets and every module that is read. Whatever digest of its bytes
identifies a module, the one that is read has the identity of the one that was written. -/
theorem Module.read_undoes_write :
    (∀ (m : Module) (t : Bytes), m.Valid →
      ofBytes (m.toBytes ++ t) = .ok m ∧ ∀ digest : Bytes → Vector UInt8 32,
        (ofBytes (m.toBytes ++ t)).map (hashBy digest) = .ok (m.hashBy digest)) ∧
    (∀ programs : List ProgramData,
      (programs.foldl ModuleBuilder.add {}).build.fileSize < 2 ^ 32 →
        (programs.foldl ModuleBuilder.add {}).build.Valid) ∧
    (∀ (bytes : Bytes) (m : Module), ofBytes bytes = .ok m → m.Valid) := by
  refine ⟨fun m t hm => ?_, fun programs hsize => ?_, fun bytes m h => valid_of_ofBytes h⟩
  · have h := ofBytes_toBytes_append hm t
    exact ⟨h, fun digest => by rw [h]; rfl⟩
  · exact ModuleBuilder.valid_build
      (ModuleBuilder.inside_foldl_add programs fun p hp => by cases hp) hsize

/-- A program with constants, and one without code. -/
def twoPrograms : List ProgramData := [
  { code := List.replicate 70 0x50, constants := [1, 2, 3], numGprs := 12, threadScratch := 16
    params := .fragment { sampleShading := true, param489 := 0x1234 } },
  { code := [], constants := [], numGprs := 4, threadScratch := 0, params := .vertex 0 0 }]

theorem Module.read_undoes_write_twoPrograms :
    let m := (twoPrograms.foldl ModuleBuilder.add {}).build
    m.fileSize = 384 ∧ m.Valid ∧ ofBytes (m.toBytes ++ [0xff, 0xff]) = .ok m := by
  intro m
  have hsize : m.fileSize = 384 := by decide +kernel
  have hvalid : m.Valid := read_undoes_write.2.1 twoPrograms (by rw [hsize]; decide)
  have hread := (read_undoes_write.1 m [0xff, 0xff] hvalid).1
  exact ⟨hsize, read_undoes_write.2.2 _ _ hread, hread⟩

end ShaderBackend
