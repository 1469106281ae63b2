import Mathlib.Tactic.IntervalCases
import ShaderBackend.Proofs.Module.Canonical

/-!
Which bytes are accepted as a module, and what that is worth. Reading never looks outside the bytes:
the same steps with a guard on every access never come to a guard that fails. A module is accepted
exactly when its header, its sizes and the header of each program pass their checks; and then the
constants of every program are there, and its code too unless the constants come before it.
-/

namespace ShaderBackend

namespace Bytes

theorem slice?_eq_some {bytes : Bytes} {start stop : Nat} (hstart : start ≤ stop)
    (hstop : stop ≤ bytes.length) :
    bytes.slice? start stop = some ((bytes.drop start).take (stop - start)) :=
  if_pos ⟨hstart, hstop⟩

theorem exists_slice?_iff {bytes : Bytes} {start stop : Nat} :
    (∃ part, bytes.slice? start stop = some part) ↔ start ≤ stop ∧ stop ≤ bytes.length := by
  simp [slice?]

/-- The word at a place, if its four bytes are there. -/
def word32At? (bytes : Bytes) (offset : Nat) : Option UInt32 :=
  (bytes.slice? offset (offset + 4)).map toUInt32

theorem toUInt32_take (bytes : Bytes) : toUInt32 (bytes.take 4) = toUInt32 bytes := by
  match bytes with
  | _ :: _ :: _ :: _ :: _ => rfl
  | [] | [_] | [_, _] | [_, _, _] => rfl

/-- A word that is there is found, also in a beginning of the bytes that reaches as far. -/
theorem word32At?_take {bytes : Bytes} {length offset : Nat} (hoffset : offset + 4 ≤ length)
    (hlength : length ≤ bytes.length) :
    word32At? (bytes.take length) offset = some (bytes.word32At offset) := by
  have hin : offset + 4 ≤ (bytes.take length).length := by
    rw [List.length_take]
    omega
  rw [word32At?, slice?_eq_some (Nat.le_add_right _ _) hin, Option.map_some, word32At,
    Nat.add_sub_cancel_left, List.drop_take, List.take_take, Nat.min_eq_left (by omega),
    toUInt32_take]

theorem word32At_drop (bytes : Bytes) (start offset : Nat) :
    word32At (bytes.drop start) offset = bytes.word32At (start + offset) := by
  rw [word32At, word32At, List.drop_drop]

end Bytes

/-! ### Reading with guards -/

namespace ProgramHeader

/-- A program header with a guard on every word: `none` if some word is not there. -/
def guardedOfBytes (bytes : Bytes) : Option (Except UInt32 ProgramHeader) := do
  let tag ← bytes.word32At? 0
  let entrypoint ← bytes.word32At? 4
  let numGprs ← bytes.word32At? 8
  let constantsOffset ← bytes.word32At? 12
  let constantsSize ← bytes.word32At? 16
  let warpScratch ← bytes.word32At? 20
  let words ← Vector.ofFnM fun i : Fin 9 => bytes.word32At? (24 + 4 * i.val)
  return match Stage.ofProgramType? tag with
    | none => .error tag
    | some stage => .ok {
        entrypoint, numGprs, constantsOffset, constantsSize, warpScratch
        params := .decode stage words }

/-- What is checked of the header of the `index`-th program. -/
def check (dataLength index : Nat) :
    Except UInt32 ProgramHeader → Except ModuleError ProgramHeader
  | .error tag => .error (.unknownType index tag)
  | .ok p =>
    let stop := p.constantsOffset.toNat + p.constantsSize.toNat
    if dataLength < p.entrypoint.toNat then .error (.entrypointOutside index p.entrypoint)
    else if dataLength < stop then .error (.constantsOutside index stop)
    else .ok p

theorem read_eq_check (dataLength index : Nat) (bytes : Bytes) :
    read dataLength index bytes = check dataLength index (ofBytes bytes) := by
  unfold read check
  cases ofBytes bytes <;> rfl

/-- Consecutive headers, each cut out of the bytes before it is read. -/
def guardedReadAll (dataLength : Nat) :
    Nat → Nat → Bytes → Option (Except ModuleError (List ProgramHeader))
  | _, 0, _ => some (.ok [])
  | index, count + 1, bytes => do
    let chunk ← bytes.slice? 0 Module.programHeaderSize
    match check dataLength index (← guardedOfBytes chunk) with
    | .error e => return .error e
    | .ok p =>
      let rest ← guardedReadAll dataLength (index + 1) count (bytes.drop Module.programHeaderSize)
      return rest.map (p :: ·)

theorem guardedOfBytes_take {bytes : Bytes} (h : 64 ≤ bytes.length) :
    guardedOfBytes (bytes.take 64) = some (ofBytes bytes) := by
  have hword : ∀ offset, offset + 4 ≤ 64 →
      Bytes.word32At? (bytes.take 64) offset = some (bytes.word32At offset) :=
    fun offset hoffset => Bytes.word32At?_take hoffset h
  have hwords : (Vector.ofFnM fun i : Fin 9 => Bytes.word32At? (bytes.take 64) (24 + 4 * i.val)) =
      some (stageWords bytes) := by
    have hfun : (fun i : Fin 9 => Bytes.word32At? (bytes.take 64) (24 + 4 * i.val)) =
        fun i : Fin 9 => pure (bytes.word32At (24 + 4 * i.val)) :=
      funext fun i => hword _ (by omega)
    rw [hfun, Vector.ofFnM_pure]
    rfl
  unfold guardedOfBytes ofBytes
  simp only [hword _ (by decide : 0 + 4 ≤ 64), hword _ (by decide : 4 + 4 ≤ 64),
    hword _ (by decide : 8 + 4 ≤ 64), hword _ (by decide : 12 + 4 ≤ 64),
    hword _ (by decide : 16 + 4 ≤ 64), hword _ (by decide : 20 + 4 ≤ 64), hwords]
  rfl

/-- Bytes that hold all headers are never left while they are read. -/
theorem guardedReadAll_take {dataLength index count : Nat} {bytes : Bytes}
    (h : count * 64 ≤ bytes.length) :
    guardedReadAll dataLength index count (bytes.take (count * 64)) =
      some (readAll dataLength index count bytes) := by
  induction count generalizing index bytes with
  | zero => rfl
  | succ count ih =>
      have hfirst : 64 ≤ bytes.length := by omega
      have hchunk : Bytes.slice? (bytes.take ((count + 1) * 64)) 0 Module.programHeaderSize =
          some (bytes.take 64) := by
        rw [Module.programHeaderSize, Bytes.slice?_eq_some (Nat.zero_le _) (by simp; omega),
          List.drop_zero, List.take_take]
        congr 2
        omega
      have hrest : (bytes.take ((count + 1) * 64)).drop Module.programHeaderSize =
          (bytes.drop 64).take (count * 64) := by
        rw [Module.programHeaderSize, List.drop_take]
        congr 1
        omega
      have hdrop : count * 64 ≤ (bytes.drop 64).length := by
        rw [List.length_drop]
        omega
      rw [guardedReadAll, hchunk, hrest, readAll, read_eq_check]
      simp only [Option.bind_eq_bind, Option.bind_some, guardedOfBytes_take hfirst]
      cases check dataLength index (ofBytes bytes) with
      | error e => rfl
      | ok p =>
          rw [ih hdrop]
          simp only [Option.bind_some, Except.ok_bind, Module.programHeaderSize]
          cases readAll dataLength (index + 1) count (bytes.drop 64) <;> rfl

end ProgramHeader

namespace Module

/-- Reading a module with a guard on every access: `none` if a part of the bytes that is looked at
is not there. -/
def guardedOfBytes (bytes : Bytes) : Option (Except ModuleError Module) :=
  if bytes.length < headerSize then some (.error (.short bytes.length))
  else do
    let header ← bytes.slice? 0 headerSize
    let foundMagic ← header.word32At? 0
    let foundVersion ← header.word32At? 4
    let count ← header.word32At? 8
    let size ← header.word32At? 12
    let expected := size.toNat + count.toNat * programHeaderSize
    if foundMagic != magic then return .error (.badMagic foundMagic)
    else if foundVersion != version then return .error (.unsupportedVersion foundVersion)
    else if size.toNat < headerSize || size.toNat % alignment != 0 then
      return .error (.badSize size.toNat)
    else if bytes.length < expected then
      return .error (.truncated expected count bytes.length)
    else
      let data ← bytes.slice? headerSize size.toNat
      let headers ← bytes.slice? size.toNat expected
      let programs ← ProgramHeader.guardedReadAll data.length 0 count.toNat headers
      return programs.map fun programs => { programs, data }

/-- Every access is covered by a check before it. -/
theorem guardedOfBytes_eq (bytes : Bytes) : guardedOfBytes bytes = some (ofBytes bytes) := by
  unfold guardedOfBytes ofBytes
  by_cases hshort : bytes.length < headerSize
  · rw [if_pos hshort, if_pos hshort]
  · rw [if_neg hshort, if_neg hshort]
    have hlong : 48 ≤ bytes.length := Nat.le_of_not_lt hshort
    have hheader : bytes.slice? 0 headerSize = some (bytes.take 48) :=
      Bytes.slice?_eq_some (Nat.zero_le _) hlong
    have hword : ∀ offset, offset + 4 ≤ 48 →
        Bytes.word32At? (bytes.take 48) offset = some (bytes.word32At offset) :=
      fun offset hoffset => Bytes.word32At?_take hoffset hlong
    simp only [hheader, hword _ (by decide : 0 + 4 ≤ 48), hword _ (by decide : 4 + 4 ≤ 48),
      hword _ (by decide : 8 + 4 ≤ 48), hword _ (by decide : 12 + 4 ≤ 48), Option.bind_eq_bind,
      Option.bind_some]
    generalize bytes.word32At 12 = size, bytes.word32At 8 = count
    split
    · rfl
    · split
      · rfl
      · split
        · rfl
        · split
          · rfl
          · rename_i hsize hlength
            simp only [Bool.or_eq_true, decide_eq_true_eq, not_or, Nat.not_lt] at hsize hlength
            have hdata : bytes.slice? headerSize size.toNat = some _ :=
              Bytes.slice?_eq_some hsize.1 (by omega)
            have hheaders : bytes.slice? size.toNat _ = some _ :=
              Bytes.slice?_eq_some (Nat.le_add_right _ (count.toNat * programHeaderSize)) hlength
            have hcount : count.toNat * 64 ≤ (bytes.drop size.toNat).length := by
              rw [List.length_drop]
              unfold programHeaderSize at hlength
              omega
            rw [hdata, hheaders, Nat.add_sub_cancel_left]
            simp only [Option.bind_some, programHeaderSize,
              ProgramHeader.guardedReadAll_take hcount]
            cases ProgramHeader.readAll _ 0 count.toNat (bytes.drop size.toNat) <;> rfl

end Module

/-! ### What is accepted -/

theorem Stage.exists_ofProgramType?_iff {tag : UInt32} :
    (∃ stage, ofProgramType? tag = some stage) ↔ tag.toNat ≤ 5 := by
  constructor
  · rintro ⟨stage, hstage⟩
    rw [← programType_of_ofProgramType? hstage]
    cases stage <;> decide
  · intro htag
    rw [← UInt32.ofNat_toNat (x := tag)]
    generalize tag.toNat = n at htag
    interval_cases n <;> exact ⟨_, rfl⟩

/-- A program header that starts at a place in the bytes passes its checks, for data of a given
length: its type is known, and nothing that it points to is outside. -/
structure ProgramHeader.Fits (bytes : Bytes) (start length : Nat) : Prop where
  type_le : (bytes.word32At start).toNat ≤ 5
  entrypoint_le : (bytes.word32At (start + 4)).toNat ≤ length
  constants_le :
    (bytes.word32At (start + 12)).toNat + (bytes.word32At (start + 16)).toNat ≤ length

/-- The number of programs that a module's header tells. -/
def Module.countIn (bytes : Bytes) : Nat :=
  (bytes.word32At 8).toNat

/-- The size of header and data that a module's header tells. -/
def Module.sizeIn (bytes : Bytes) : Nat :=
  (bytes.word32At 12).toNat

/-- The checks of a module. -/
structure Module.Acceptable (bytes : Bytes) : Prop where
  header_le : 48 ≤ bytes.length
  magic_eq : bytes.word32At 0 = magic
  version_eq : bytes.word32At 4 = version
  size_le : 48 ≤ sizeIn bytes
  size_aligned : sizeIn bytes % 64 = 0
  length_le : sizeIn bytes + 64 * countIn bytes ≤ bytes.length
  programs : ∀ k < countIn bytes,
    ProgramHeader.Fits bytes (sizeIn bytes + 64 * k) (sizeIn bytes - 48)

namespace ProgramHeader

theorem exists_read_iff {bytes : Bytes} {start length : Nat} (index : Nat) :
    (∃ p, read length index (bytes.drop start) = .ok p) ↔ Fits bytes start length := by
  simp only [read_eq_ok_iff]
  constructor
  · rintro ⟨p, hp, hinside⟩
    unfold ofBytes at hp
    simp only at hp
    split at hp
    · cases hp
    · rename_i stage hstage
      cases hp
      have htag := Stage.exists_ofProgramType?_iff.mp ⟨stage, hstage⟩
      have hentry := hinside.entrypoint_le
      have hconstants := hinside.constants_le
      simp only [Bytes.word32At_drop] at htag hentry hconstants
      exact ⟨htag, hentry, hconstants⟩
  · intro hfits
    obtain ⟨stage, hstage⟩ := Stage.exists_ofProgramType?_iff.mpr hfits.type_le
    rw [← Nat.add_zero start, ← Bytes.word32At_drop] at hstage
    unfold ofBytes
    simp only [hstage]
    refine ⟨_, rfl, ?_, ?_⟩
    · simpa only [Bytes.word32At_drop] using hfits.entrypoint_le
    · simpa only [Bytes.word32At_drop] using hfits.constants_le

/-- Consecutive headers are read exactly when each of them is. -/
theorem exists_readAll_iff {bytes : Bytes} {start length count : Nat} (index : Nat) :
    (∃ programs, readAll length index count (bytes.drop start) = .ok programs) ↔
      ∀ k < count, Fits bytes (start + 64 * k) length := by
  induction count generalizing start index with
  | zero => simp [readAll]
  | succ count ih =>
      have hdrop : (bytes.drop start).drop Module.programHeaderSize = bytes.drop (start + 64) :=
        List.drop_drop
      have hsplit : (∀ k < count + 1, Fits bytes (start + 64 * k) length) ↔
          Fits bytes start length ∧ ∀ k < count, Fits bytes (start + 64 + 64 * k) length := by
        constructor
        · intro h
          refine ⟨h 0 (Nat.succ_pos _), fun k hk => ?_⟩
          have hnext := h (k + 1) (by omega)
          rwa [Nat.mul_succ, Nat.add_comm (64 * k), ← Nat.add_assoc] at hnext
        · rintro ⟨hfirst, hrest⟩ k hk
          cases k with
          | zero => exact hfirst
          | succ k =>
            have hnext := hrest k (by omega)
            rwa [Nat.mul_succ, Nat.add_comm (64 * k), ← Nat.add_assoc]
      rw [hsplit, ← exists_read_iff index, ← ih (index + 1), readAll, hdrop]
      simp only [Except.bind_eq_ok_iff]
      constructor
      · rintro ⟨_, p, hp, rest, hrest, -⟩
        exact ⟨⟨p, hp⟩, rest, hrest⟩
      · rintro ⟨⟨p, hp⟩, rest, hrest⟩
        exact ⟨_, p, hp, rest, hrest, rfl⟩

/-- Each header that was read stood in its place. -/
theorem ofBytes_of_readAll {bytes : Bytes} {start length index count : Nat}
    {programs : List ProgramHeader}
    (h : readAll length index count (bytes.drop start) = .ok programs) {k : Nat}
    {p : ProgramHeader} (hp : programs[k]? = some p) :
    ofBytes (bytes.drop (start + 64 * k)) = .ok p := by
  induction count generalizing start index programs k with
  | zero =>
      cases h
      simp at hp
  | succ count ih =>
      simp only [readAll, Except.bind_eq_ok_iff] at h
      obtain ⟨q, hq, rest, hrest, h⟩ := h
      cases h
      rw [List.drop_drop] at hrest
      cases k with
      | zero =>
        cases hp
        exact (read_eq_ok_iff.mp hq).1
      | succ k =>
        have hnext := ih hrest (by simpa using hp)
        rwa [Module.programHeaderSize, Nat.add_assoc, Nat.add_comm 64, ← Nat.mul_succ] at hnext

end ProgramHeader

namespace Module

theorem exists_ofBytes_iff {bytes : Bytes} : (∃ m, ofBytes bytes = .ok m) ↔ Acceptable bytes := by
  constructor
  · rintro ⟨m, hm⟩
    have hread := readFrom_of_ofBytes hm
    have hsize : sizeIn bytes = 48 + m.data.length := hread.size_eq
    have hcount : countIn bytes = m.programs.length := hread.count_eq
    have hlength : 48 + m.data.length + m.programs.length * 64 ≤ bytes.length := hread.length_le
    refine ⟨by omega, hread.magic_eq, hread.version_eq, by omega, ?_, by omega, ?_⟩
    · rw [hsize]
      exact hread.aligned
    · rw [hsize, hcount, Nat.add_sub_cancel_left]
      exact (ProgramHeader.exists_readAll_iff 0).mp ⟨_, hread.programs_eq⟩
  · intro h
    obtain ⟨programs, hprograms⟩ := (ProgramHeader.exists_readAll_iff 0).mpr h.programs
    have hlength := h.length_le
    have hsize := h.size_le
    have hdata : ((bytes.drop headerSize).take (sizeIn bytes - headerSize)).length =
        sizeIn bytes - 48 := by
      rw [List.length_take, List.length_drop, headerSize]
      omega
    have hshort : ¬ bytes.length < headerSize := Nat.not_lt.mpr h.header_le
    have hbad : ¬ (decide (sizeIn bytes < headerSize) || sizeIn bytes % alignment != 0) = true := by
      have haligned : sizeIn bytes % alignment = 0 := h.size_aligned
      rw [haligned, headerSize, decide_eq_false (Nat.not_lt.mpr hsize)]
      decide
    have htruncated : ¬ bytes.length < sizeIn bytes + countIn bytes * programHeaderSize := by
      rw [programHeaderSize]
      omega
    unfold ofBytes
    simp only [h.magic_eq, h.version_eq, bne_self_eq_false, Bool.false_eq_true, if_false,
      ← countIn.eq_def, ← sizeIn.eq_def]
    rw [if_neg hshort, if_neg hbad, if_neg htruncated, hdata, hprograms]
    exact ⟨_, rfl⟩

/-! ### What an accepted module guarantees -/

/-- Without constants, code ends at the first code that starts after it, or else with the data. -/
theorem codeEnd_cases {m : Module} {p : ProgramHeader} (hsize : p.constantsSize = 0) :
    (∃ q ∈ m.programs, p.entrypoint.toNat < q.entrypoint.toNat ∧
      m.codeEnd p = q.entrypoint.toNat ∧
      ∀ r ∈ m.programs, p.entrypoint.toNat < r.entrypoint.toNat →
        q.entrypoint.toNat ≤ r.entrypoint.toNat) ∨
    (∀ r ∈ m.programs, r.entrypoint.toNat ≤ p.entrypoint.toNat) ∧ m.codeEnd p = m.data.length := by
  have hend : m.codeEnd p = ((m.programs.map (·.entrypoint.toNat)).filter
      (p.entrypoint.toNat < ·)).min?.getD m.data.length := by
    rw [codeEnd, hsize]
    rfl
  rw [hend]
  cases hmin : ((m.programs.map (·.entrypoint.toNat)).filter (p.entrypoint.toNat < ·)).min? with
  | none =>
      refine .inr ⟨fun r hr => ?_, rfl⟩
      have hnone := List.filter_eq_nil_iff.mp (List.min?_eq_none_iff.mp hmin)
      simpa using hnone _ (List.mem_map_of_mem hr)
  | some least =>
      obtain ⟨hmem, hle⟩ := List.min?_eq_some_iff.mp hmin
      simp only [List.mem_filter, List.mem_map, decide_eq_true_eq] at hmem hle
      obtain ⟨⟨q, hq, rfl⟩, hlt⟩ := hmem
      exact .inl ⟨q, hq, hlt, rfl, fun r hr hr' => hle _ ⟨⟨r, hr, rfl⟩, hr'⟩⟩

theorem codeEnd_of_constants {m : Module} {p : ProgramHeader} (hsize : p.constantsSize ≠ 0) :
    m.codeEnd p = p.constantsOffset.toNat := by
  rw [codeEnd, if_pos (by simpa using hsize)]

/-- Where the code of a program ends in the data: at its constants if it has any; otherwise at the
first code that starts after its own, and without such a one where the data ends. -/
inductive CodeEndsAt (m : Module) (p : ProgramHeader) : Nat → Prop
  | constants (h : p.constantsSize ≠ 0) : CodeEndsAt m p p.constantsOffset.toNat
  | next {q : ProgramHeader} (h : p.constantsSize = 0) (hq : q ∈ m.programs)
      (hlt : p.entrypoint < q.entrypoint)
      (hfirst : ∀ r ∈ m.programs, p.entrypoint < r.entrypoint → q.entrypoint ≤ r.entrypoint) :
      CodeEndsAt m p q.entrypoint.toNat
  | data (h : p.constantsSize = 0) (hlast : ∀ r ∈ m.programs, r.entrypoint ≤ p.entrypoint) :
      CodeEndsAt m p m.data.length

theorem codeEndsAt_codeEnd (m : Module) (p : ProgramHeader) : CodeEndsAt m p (m.codeEnd p) := by
  by_cases hsize : p.constantsSize = 0
  · rcases codeEnd_cases (m := m) hsize with ⟨q, hq, hlt, hend, hfirst⟩ | ⟨hlast, hend⟩
    · rw [hend]
      exact .next hsize hq hlt hfirst
    · rw [hend]
      exact .data hsize hlast
  · rw [codeEnd_of_constants hsize]
    exact .constants hsize

/-- A part of the data is the same part of the file, behind the header. -/
theorem eq_of_slice?_data {bytes : Bytes} {m : Module} (h : ReadFrom bytes m) {start stop : Nat}
    {part : Bytes} (hpart : m.data.slice? start stop = some part) :
    part.length = stop - start ∧ part = (bytes.drop (48 + start)).take (stop - start) := by
  obtain ⟨hstart, hstop⟩ := Bytes.exists_slice?_iff.mp ⟨part, hpart⟩
  rw [Bytes.slice?_eq_some hstart hstop, Option.some.injEq] at hpart
  constructor
  · rw [← hpart, List.length_take, List.length_drop]
    omega
  · rw [← hpart, ← h.data_eq, List.drop_take, List.take_take, List.drop_drop,
      Nat.min_eq_left (by omega)]

variable {m : Module} {i : Nat} {p : ProgramHeader}

theorem codeRegion?_eq (hp : m.programs[i]? = some p) :
    m.codeRegion? i = m.data.slice? p.entrypoint.toNat (m.codeEnd p) := by
  rw [codeRegion?, hp, Option.bind_some]

theorem constants?_eq (hp : m.programs[i]? = some p) :
    m.constants? i = m.data.slice? p.constantsOffset.toNat
      (p.constantsOffset.toNat + p.constantsSize.toNat) := by
  rw [constants?, hp, Option.bind_some]

theorem exists_codeRegion?_iff (hm : m.Valid) (hp : m.programs[i]? = some p) :
    (∃ region, m.codeRegion? i = some region) ↔
      p.constantsSize = 0 ∨ p.entrypoint ≤ p.constantsOffset := by
  have hinside := hm.inside p (List.mem_of_getElem? hp)
  rw [codeRegion?_eq hp, Bytes.exists_slice?_iff, UInt32.le_iff_toNat_le]
  by_cases hsize : p.constantsSize = 0
  · simp only [hsize, true_or, iff_true]
    rcases codeEnd_cases (m := m) hsize with ⟨q, hq, hlt, hend, -⟩ | ⟨-, hend⟩
    · rw [hend]
      exact ⟨hlt.le, (hm.inside q hq).entrypoint_le⟩
    · rw [hend]
      exact ⟨hinside.entrypoint_le, Nat.le_refl _⟩
  · simp only [codeEnd_of_constants hsize, hsize, false_or, and_iff_left_iff_imp]
    exact fun _ => (Nat.le_add_right _ _).trans hinside.constants_le

theorem exists_constants? (hm : m.Valid) (hp : m.programs[i]? = some p) :
    ∃ part, m.constants? i = some part := by
  have hinside := hm.inside p (List.mem_of_getElem? hp)
  rw [constants?_eq hp, Bytes.exists_slice?_iff]
  exact ⟨Nat.le_add_right _ _, hinside.constants_le⟩

/-- The constants of a program of a file, and its code. -/
theorem regions_of_readFrom {bytes : Bytes} (h : ReadFrom bytes m) (hp : m.programs[i]? = some p) :
    (∀ part, m.constants? i = some part → part.length = p.constantsSize.toNat ∧
      part = (bytes.drop (48 + p.constantsOffset.toNat)).take p.constantsSize.toNat) ∧
    ∀ region, m.codeRegion? i = some region → ∃ stop, CodeEndsAt m p stop ∧
      region.length = stop - p.entrypoint.toNat ∧
      region = (bytes.drop (48 + p.entrypoint.toNat)).take (stop - p.entrypoint.toNat) := by
  rw [constants?_eq hp, codeRegion?_eq hp]
  refine ⟨fun part hpart => ?_, fun region hregion => ?_⟩
  · simpa using eq_of_slice?_data h hpart
  · exact ⟨m.codeEnd p, codeEndsAt_codeEnd m p, eq_of_slice?_data h hregion⟩

theorem regions_past_end (hi : m.programs.length ≤ i) :
    m.constants? i = none ∧ m.codeRegion? i = none := by
  rw [constants?, codeRegion?, List.getElem?_eq_none hi]
  exact ⟨rfl, rfl⟩

end Module

/-- Reading looks at no byte that is not there, and accepts exactly the bytes that pass the checks.
In a module that was read the data is what stands between the header and the program headers, and
every program is the one whose header stands in its place. Its constants are there in full, and its
code is there unless it has constants that start before it: they are the bytes of the file that the
program's offsets give. Past the last program there is nothing. -/
theorem Module.acceptance_exact (bytes : Bytes) :
    guardedOfBytes bytes = some (ofBytes bytes) ∧
    ((∃ m, ofBytes bytes = .ok m) ↔ Acceptable bytes) ∧
    ∀ m, ofBytes bytes = .ok m →
      m.programs.length = countIn bytes ∧
      m.data = (bytes.drop 48).take (sizeIn bytes - 48) ∧
      (∀ i p, m.programs[i]? = some p →
        ProgramHeader.ofBytes (bytes.drop (sizeIn bytes + 64 * i)) = .ok p ∧
        (∃ part, m.constants? i = some part ∧ part.length = p.constantsSize.toNat ∧
          part = (bytes.drop (48 + p.constantsOffset.toNat)).take p.constantsSize.toNat) ∧
        ((∃ region, m.codeRegion? i = some region) ↔
          p.constantsSize = 0 ∨ p.entrypoint ≤ p.constantsOffset) ∧
        ∀ region, m.codeRegion? i = some region → ∃ stop, CodeEndsAt m p stop ∧
          region.length = stop - p.entrypoint.toNat ∧
          region = (bytes.drop (48 + p.entrypoint.toNat)).take (stop - p.entrypoint.toNat)) ∧
      ∀ i, m.programs.length ≤ i → m.constants? i = none ∧ m.codeRegion? i = none := by
  refine ⟨guardedOfBytes_eq bytes, exists_ofBytes_iff, fun m hm => ?_⟩
  have hread := readFrom_of_ofBytes hm
  have hvalid := valid_of_ofBytes hm
  refine ⟨hread.count_eq.symm, ?_, fun i p hp => ?_, fun i hi => regions_past_end hi⟩
  · rw [sizeIn, hread.size_eq, Nat.add_sub_cancel_left, hread.data_eq]
  · obtain ⟨hconstants, hcode⟩ := regions_of_readFrom hread hp
    obtain ⟨part, hpart⟩ := exists_constants? hvalid hp
    refine ⟨?_, ⟨part, hpart, hconstants part hpart⟩, exists_codeRegion?_iff hvalid hp, hcode⟩
    rw [sizeIn, hread.size_eq]
    exact ProgramHeader.ofBytes_of_readAll hread.programs_eq hp

/-- Headers that no builder makes: the constants of the first program start before its code, the
code of the second starts where the data ends, and that of the third starts before it. -/
def unorderedHeaders : Module where
  programs := [
    { entrypoint := 8, numGprs := 4, constantsOffset := 2, constantsSize := 4, warpScratch := 0
      params := .vertex 0 0 },
    { entrypoint := 16, numGprs := 4, constantsOffset := 0, constantsSize := 0, warpScratch := 0
      params := .tessControl },
    { entrypoint := 12, numGprs := 4, constantsOffset := 0, constantsSize := 0, warpScratch := 0
      params := .tessControl }]
  data := (List.range 16).map UInt8.ofNat

theorem Module.acceptance_exact_unorderedHeaders :
    let bytes := unorderedHeaders.toBytes ++ [0xff]
    ofBytes bytes = .ok unorderedHeaders ∧ Acceptable bytes ∧
      guardedOfBytes bytes = some (.ok unorderedHeaders) ∧
      (¬ ∃ region, unorderedHeaders.codeRegion? 0 = some region) ∧
      (∃ region, unorderedHeaders.codeRegion? 1 = some region) ∧
      unorderedHeaders.constants? 0 = some [2, 3, 4, 5] ∧
      unorderedHeaders.codeRegion? 2 = some [12, 13, 14, 15] ∧
      unorderedHeaders.codeRegion? 3 = none := by
  intro bytes
  have h : ofBytes bytes = .ok unorderedHeaders := by decide +kernel
  obtain ⟨hguarded, haccepted, hall⟩ := acceptance_exact bytes
  obtain ⟨-, -, hprograms, hpast⟩ := hall unorderedHeaders h
  obtain ⟨-, ⟨part, hpart, -, hbytes⟩, hregion, -⟩ := hprograms 0 _ rfl
  obtain ⟨-, -, hregion', -⟩ := hprograms 1 _ rfl
  obtain ⟨-, -, hregion'', hcode⟩ := hprograms 2 _ rfl
  refine ⟨h, haccepted.mp ⟨_, h⟩, by rw [hguarded, h], mt hregion.mp (by decide),
    hregion'.mpr (by decide), ?_, ?_, (hpast 3 (by decide)).2⟩
  · rw [hpart, hbytes]
    decide +kernel
  · obtain ⟨region, hr⟩ := hregion''.mpr (by decide)
    obtain ⟨stop, hstop, -, hbytes'⟩ := hcode region hr
    -- Only the code of the second program starts after that of the third.
    obtain rfl : stop = 16 := by
      cases hstop with
      | constants h => exact absurd rfl h
      | next _ hq hlt _ =>
        simp only [unorderedHeaders, List.mem_cons, List.not_mem_nil, or_false] at hq
        rcases hq with rfl | rfl | rfl
        · exact absurd hlt (by decide)
        · rfl
        · exact absurd hlt (by decide)
      | data _ hlast => rfl
    rw [hr, hbytes']
    decide +kernel

end ShaderBackend
