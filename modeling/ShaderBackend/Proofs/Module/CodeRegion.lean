import Mathlib.Data.List.Induction
import ShaderBackend.Proofs.Module.Acceptance
import ShaderBackend.Proofs.Module.Layout

/-!
The code regions of a module that was built. The end of a region is not stored: it is where the
constants of the program start, or else the first code after it, or else the end of the data. This
gives a program its own code and zeros after it, if the program brings any byte into the module or
no program after it does. A program that brings nothing starts where the next one does that brings
something, and its region is all that this one brings.
-/

namespace ShaderBackend

/-- A program that brings no byte into a module. -/
def ProgramData.IsVacant (p : ProgramData) : Prop :=
  p.code = [] ∧ p.constants = []

instance (p : ProgramData) : Decidable p.IsVacant :=
  inferInstanceAs (Decidable (_ ∧ _))

namespace ModuleBuilder

/-! ### The data as one block a program -/

theorem aligned_nil : aligned [] = [] := rfl

theorem exists_aligned (data : Bytes) : ∃ n < 64, aligned data = data ++ List.replicate n 0 := by
  refine ⟨alignUp data.length 64 - data.length, ?_, rfl⟩
  unfold alignUp
  omega

theorem aligned_append {data : Bytes} (h : data.length % 64 = 0) (more : Bytes) :
    aligned (data ++ more) = data ++ aligned more := by
  have hpad : alignUp (data.length + more.length) 64 - (data.length + more.length) =
      alignUp more.length 64 - more.length := by
    unfold alignUp
    omega
  rw [aligned, aligned, Bytes.padTo, Bytes.padTo, Module.alignment, List.length_append, hpad,
    List.append_assoc]

theorem aligned_of_length_mod {data : Bytes} (h : data.length % 64 = 0) : aligned data = data := by
  have happend := aligned_append h []
  rwa [aligned_nil, List.append_nil] at happend

/-- What a program adds to data that fills whole groups. -/
def added (p : ProgramData) : Bytes :=
  aligned p.code ++ aligned p.constants

theorem length_added_mod (p : ProgramData) : (added p).length % 64 = 0 := by
  rw [added, List.length_append, Nat.add_mod, length_aligned_mod, length_aligned_mod]

theorem length_added_pos {p : ProgramData} (h : ¬ p.IsVacant) : 0 < (added p).length := by
  have hcode := length_le_aligned p.code
  have hconstants := length_le_aligned p.constants
  rw [ProgramData.IsVacant, ← List.length_eq_zero_iff, ← List.length_eq_zero_iff] at h
  rw [added, List.length_append]
  omega

theorem added_of_isVacant {p : ProgramData} (h : p.IsVacant) : added p = [] := by
  rw [added, h.1, h.2, aligned_nil, List.append_nil]

theorem length_flatMap_added_mod (programs : List ProgramData) :
    (programs.flatMap added).length % 64 = 0 := by
  induction programs with
  | nil => rfl
  | cons p programs ih =>
      rw [List.flatMap_cons, List.length_append, Nat.add_mod, length_added_mod, ih]

theorem place_of_length_mod {data : Bytes} (h : data.length % 64 = 0) (p : ProgramData) :
    place data p = (data ++ added p, data.length,
      if p.constants.isEmpty then 0 else data.length + (aligned p.code).length) := by
  have hcode : (data ++ aligned p.code).length % 64 = 0 := by
    rw [List.length_append, Nat.add_mod, h, length_aligned_mod]
  unfold place
  simp only [aligned_of_length_mod h, aligned_append h, aligned_append hcode]
  split
  · rename_i hempty
    rw [added, List.isEmpty_iff.mp hempty, aligned_nil, List.append_nil]
  · rw [added, List.append_assoc, List.length_append]

theorem data_foldl_add (programs : List ProgramData) :
    (programs.foldl add {}).data = programs.flatMap added := by
  induction programs using List.reverseRecOn with
  | nil => rfl
  | append_singleton programs p ih =>
      rw [List.foldl_append, List.foldl_cons, List.foldl_nil, add_eq]
      simp only [ih, place_of_length_mod (length_flatMap_added_mod programs)]
      simp

/-- The header of a program is the one for the data of the programs before it. -/
theorem getElem?_programs_foldl_add (programs : List ProgramData) (i : Nat) :
    (programs.foldl add {}).programs[i]? =
      programs[i]?.map (headerFor ((programs.take i).flatMap added)) := by
  induction programs using List.reverseRecOn with
  | nil => rfl
  | append_singleton programs p ih =>
      have hlength := length_programs_foldl_add programs {}
      simp only [List.length_nil, Nat.zero_add] at hlength
      rw [List.foldl_append, List.foldl_cons, List.foldl_nil, add_eq, data_foldl_add]
      simp only
      rcases Nat.lt_trichotomy i programs.length with hlt | rfl | hgt
      · rw [List.getElem?_append_left (by omega), ih, List.getElem?_append_left hlt,
          List.take_append_of_le_length hlt.le]
      · rw [List.getElem?_append_right hlength.le, List.getElem?_append_right (Nat.le_refl _),
          hlength, List.take_left]
        simp
      · rw [List.getElem?_eq_none (by simp; omega), List.getElem?_eq_none (by simp; omega)]
        rfl

theorem data_build (programs : List ProgramData) :
    (programs.foldl add {}).build.data = programs.flatMap added ++ List.replicate 16 0 := by
  have hmod := length_flatMap_added_mod programs
  have hpad : alignUp (48 + (programs.flatMap added).length) 64 - 48 -
      (programs.flatMap added).length = 16 := by
    unfold alignUp
    omega
  simp only [build, data_foldl_add, Module.headerSize, Module.alignment, hpad]

/-! ### Where programs start -/

/-- Where the bytes of the `k`-th program start, or the end of all bytes. -/
def startOf (programs : List ProgramData) (k : Nat) : Nat :=
  ((programs.take k).flatMap added).length

/-- What the header of a program says that starts at a place. -/
structure Locates (start : Nat) (p : ProgramData) (h : ProgramHeader) : Prop where
  entrypoint_eq : h.entrypoint.toNat = start
  size_eq : h.constantsSize.toNat = p.constants.length
  offset_eq : p.constants ≠ [] → h.constantsOffset.toNat = start + (aligned p.code).length

theorem Locates.constantsSize_eq_zero_iff {start : Nat} {p : ProgramData} {h : ProgramHeader}
    (hh : Locates start p h) : h.constantsSize = 0 ↔ p.constants = [] := by
  rw [← UInt32.toNat_inj, hh.size_eq]
  exact List.length_eq_zero_iff

section Regions

variable {programs : List ProgramData} {i j k : Nat} {p q : ProgramData}

theorem startOf_mono (programs : List ProgramData) (h : j ≤ k) :
    startOf programs j ≤ startOf programs k := by
  have hsplit := List.take_append_drop j (programs.take k)
  rw [List.take_take, Nat.min_eq_left h] at hsplit
  rw [startOf, startOf, ← hsplit, List.flatMap_append, List.length_append]
  exact Nat.le_add_right _ _

theorem startOf_succ (hq : programs[j]? = some q) :
    startOf programs (j + 1) = startOf programs j + (added q).length := by
  rw [startOf, startOf, List.take_add_one, hq, List.flatMap_append, List.length_append]
  simp

theorem startOf_of_length_le (h : programs.length ≤ k) :
    startOf programs k = (programs.flatMap added).length := by
  rw [startOf, List.take_of_length_le h]

/-- Programs that bring nothing do not move the start of the next one. -/
theorem startOf_eq_of_isVacant (hij : i ≤ j)
    (h : ∀ k, i ≤ k → k < j → ∀ r ∈ programs[k]?, r.IsVacant) :
    startOf programs j = startOf programs i := by
  induction j, hij using Nat.le_induction with
  | base => rfl
  | succ j hij ih =>
      have hbefore := ih fun k hk hkj => h k hk (by omega)
      cases hq : programs[j]? with
      | none =>
          rw [← hbefore, startOf_of_length_le (List.getElem?_eq_none_iff.mp hq),
            startOf_of_length_le ((List.getElem?_eq_none_iff.mp hq).trans (Nat.le_succ _))]
      | some q =>
          rw [startOf_succ hq, added_of_isVacant (h j hij (Nat.lt_succ_self j) q hq), hbefore]
          rfl

/-- The data is what comes before a program, what the program adds, and what comes after it. -/
theorem data_split (hq : programs[j]? = some q) :
    ∃ before, before.length = startOf programs j ∧
      (programs.foldl add {}).build.data =
        before ++ added q ++ (programs.drop (j + 1)).flatMap added ++ List.replicate 16 0 := by
  refine ⟨(programs.take j).flatMap added, rfl, ?_⟩
  have hsplit : programs = programs.take j ++ q :: programs.drop (j + 1) := by
    obtain ⟨hj, rfl⟩ := List.getElem?_eq_some_iff.mp hq
    rw [List.getElem_cons_drop, List.take_append_drop]
  rw [data_build]
  conv_lhs => rw [hsplit]
  rw [List.flatMap_append, List.flatMap_cons, List.append_assoc, List.append_assoc,
    List.append_assoc, List.append_assoc]

theorem slice?_middle (before part after : Bytes) :
    (before ++ part ++ after).slice? before.length (before.length + part.length) = some part :=
  Bytes.slice?_append (Bytes.slice?_length_append before part) after

variable (hsize : (programs.foldl add {}).data.length < 2 ^ 32)
include hsize

theorem locates_headerFor (hp : programs[i]? = some p) :
    Locates (startOf programs i) p (headerFor ((programs.take i).flatMap added) p) := by
  have hplace := place_of_length_mod (length_flatMap_added_mod (programs.take i)) p
  have hin : (place ((programs.take i).flatMap added) p).1.length < 2 ^ 32 := by
    have hmono := startOf_mono programs (Nat.le_max_left (i + 1) programs.length)
    rw [startOf_of_length_le (Nat.le_max_right _ _), startOf_succ hp, startOf] at hmono
    rw [data_foldl_add] at hsize
    rw [hplace, List.length_append]
    omega
  obtain ⟨hentry, hoffset, hlength⟩ := headerFor_offsets hin
  rw [hplace] at hentry hoffset
  refine ⟨hentry, hlength, fun hne => ?_⟩
  rw [hoffset, if_neg (by simpa using hne)]
  rfl

theorem exists_header (hp : programs[i]? = some p) :
    ∃ h, (programs.foldl add {}).build.programs[i]? = some h ∧
      Locates (startOf programs i) p h := by
  refine ⟨_, ?_, locates_headerFor hsize hp⟩
  exact (getElem?_programs_foldl_add programs i).trans (by rw [hp]; rfl)

theorem exists_of_mem_programs {r : ProgramHeader}
    (hr : r ∈ (programs.foldl add {}).build.programs) :
    ∃ k < programs.length, r.entrypoint.toNat = startOf programs k := by
  obtain ⟨k, hk⟩ := List.getElem?_of_mem hr
  have hheader := getElem?_programs_foldl_add programs k
  rw [show (programs.foldl add {}).programs[k]? = some r from hk, eq_comm,
    Option.map_eq_some_iff] at hheader
  obtain ⟨p, hp, rfl⟩ := hheader
  exact ⟨k, (List.getElem?_eq_some_iff.mp hp).1, (locates_headerFor hsize hp).entrypoint_eq⟩

/-! ### Where regions end -/

variable {h : ProgramHeader}

/-- Without constants, the region ends where the next program starts that comes after one with any
bytes. -/
theorem codeEnd_of_bytes (hh : h.entrypoint.toNat = startOf programs i)
    (hnone : h.constantsSize = 0) (hij : i ≤ j)
    (hvacant : ∀ k, i ≤ k → k < j → ∀ r ∈ programs[k]?, r.IsVacant)
    (hq : programs[j]? = some q) (hbytes : ¬ q.IsVacant) :
    (programs.foldl add {}).build.codeEnd h =
      if j + 1 < programs.length then startOf programs (j + 1)
      else (programs.foldl add {}).build.data.length := by
  have hstart := startOf_eq_of_isVacant hij hvacant
  have hnext := startOf_succ hq
  have hpos := length_added_pos hbytes
  rcases Module.codeEnd_cases (m := (programs.foldl add {}).build) hnone with
    ⟨r, hr, hlt, hend, hleast⟩ | ⟨hlast, hend⟩
  · obtain ⟨k, hk, hentry⟩ := exists_of_mem_programs hsize hr
    -- What starts after this program comes after the one with bytes, and the next one is first.
    have hjk : j + 1 ≤ k := by
      by_contra hkj
      have hmono := startOf_mono programs (show k ≤ j by omega)
      omega
    have hj : j + 1 < programs.length := by omega
    obtain ⟨r', hr', hlocates⟩ := exists_header hsize (List.getElem?_eq_getElem hj)
    have hle := hleast r' (List.mem_of_getElem? hr') (by rw [hlocates.entrypoint_eq]; omega)
    have hmono := startOf_mono programs hjk
    rw [hlocates.entrypoint_eq] at hle
    rw [if_pos hj, hend]
    omega
  · rw [if_neg, hend]
    intro hj
    obtain ⟨r', hr', hlocates⟩ := exists_header hsize (List.getElem?_eq_getElem hj)
    have hle := hlast r' (List.mem_of_getElem? hr')
    rw [hlocates.entrypoint_eq] at hle
    omega

/-- If no bytes come from this program on, the region ends with the data. -/
theorem codeEnd_of_no_bytes (hh : h.entrypoint.toNat = startOf programs i)
    (hnone : h.constantsSize = 0)
    (hvacant : ∀ k, i ≤ k → ∀ r ∈ programs[k]?, r.IsVacant) :
    (programs.foldl add {}).build.codeEnd h = (programs.foldl add {}).build.data.length := by
  rcases Module.codeEnd_cases (m := (programs.foldl add {}).build) hnone with
    ⟨r, hr, hlt, -, -⟩ | ⟨-, hend⟩
  · obtain ⟨k, -, hentry⟩ := exists_of_mem_programs hsize hr
    have hmono := startOf_mono programs (Nat.le_max_right i k)
    rw [startOf_eq_of_isVacant (Nat.le_max_left i k) fun k hk _ => hvacant k hk] at hmono
    omega
  · exact hend

/-! ### What regions hold -/

/-- The region of a program with constants is its code. -/
theorem codeRegion?_of_constants (hp : programs[i]? = some p) (hconstants : p.constants ≠ []) :
    (programs.foldl add {}).build.codeRegion? i = some (aligned p.code) := by
  obtain ⟨h, hh, hlocates⟩ := exists_header hsize hp
  have hne : h.constantsSize ≠ 0 := mt hlocates.constantsSize_eq_zero_iff.mp hconstants
  obtain ⟨before, hbefore, hdata⟩ := data_split hp
  rw [Module.codeRegion?_eq hh, Module.codeEnd_of_constants hne, hlocates.offset_eq hconstants,
    hlocates.entrypoint_eq, hdata, ← hbefore, added, ← List.append_assoc, List.append_assoc,
    List.append_assoc]
  exact slice?_middle before (aligned p.code) _

/-- The region of a program without constants is all that the first program from there on adds that
adds anything, and the end of the data if that is the last program. -/
theorem codeRegion?_of_bytes (hp : programs[i]? = some p) (hnone : p.constants = [])
    (hij : i ≤ j) (hvacant : ∀ k, i ≤ k → k < j → ∀ r ∈ programs[k]?, r.IsVacant)
    (hq : programs[j]? = some q) (hbytes : ¬ q.IsVacant) :
    ∃ n ≤ 16, (programs.foldl add {}).build.codeRegion? i =
      some (added q ++ List.replicate n 0) := by
  obtain ⟨h, hh, hlocates⟩ := exists_header hsize hp
  have hzero := hlocates.constantsSize_eq_zero_iff.mpr hnone
  obtain ⟨before, hbefore, hdata⟩ := data_split hq
  rw [Module.codeRegion?_eq hh,
    codeEnd_of_bytes hsize hlocates.entrypoint_eq hzero hij hvacant hq hbytes,
    hlocates.entrypoint_eq, ← startOf_eq_of_isVacant hij hvacant, ← hbefore]
  by_cases hj : j + 1 < programs.length
  · refine ⟨0, by decide, ?_⟩
    rw [if_pos hj, startOf_succ hq, ← hbefore, hdata, List.append_assoc (before ++ added q),
      List.replicate_zero, List.append_nil]
    exact slice?_middle before (added q) _
  · refine ⟨16, Nat.le_refl _, ?_⟩
    have hlast : programs.drop (j + 1) = [] := List.drop_eq_nil_of_le (Nat.le_of_not_lt hj)
    rw [hlast, List.flatMap_nil, List.append_nil, List.append_assoc] at hdata
    rw [if_neg hj, hdata, List.length_append]
    exact Bytes.slice?_length_append before _

/-- If no bytes come from a program on, its region is the zeros at the end of the data. -/
theorem codeRegion?_of_no_bytes (hp : programs[i]? = some p)
    (hvacant : ∀ k, i ≤ k → ∀ r ∈ programs[k]?, r.IsVacant) :
    (programs.foldl add {}).build.codeRegion? i = some (List.replicate 16 0) := by
  obtain ⟨h, hh, hlocates⟩ := exists_header hsize hp
  have hzero := hlocates.constantsSize_eq_zero_iff.mpr (hvacant i (Nat.le_refl i) p hp).2
  have hstart : startOf programs i = (programs.flatMap added).length := by
    rw [← startOf_of_length_le (Nat.le_max_right i programs.length),
      startOf_eq_of_isVacant (Nat.le_max_left i programs.length) fun k hk _ => hvacant k hk]
  rw [Module.codeRegion?_eq hh, codeEnd_of_no_bytes hsize hlocates.entrypoint_eq hzero hvacant,
    hlocates.entrypoint_eq, hstart, data_build, List.length_append]
  exact Bytes.slice?_length_append _ _

/-- The region of a program is its own code, if the program or none after it brings any byte. -/
theorem codeRegion?_own (hp : programs[i]? = some p)
    (hown : p.IsVacant → ∀ q ∈ programs.drop (i + 1), q.IsVacant) :
    ∃ n < 80, (programs.foldl add {}).build.codeRegion? i =
      some (p.code ++ List.replicate n 0) := by
  by_cases hconstants : p.constants = []
  · by_cases hcode : p.code = []
    · have hvacant : p.IsVacant := ⟨hcode, hconstants⟩
      refine ⟨16, by decide, ?_⟩
      rw [hcode, List.nil_append]
      refine codeRegion?_of_no_bytes hsize hp fun k hk r hr => ?_
      rcases Nat.eq_or_lt_of_le hk with rfl | hlt
      · obtain rfl : p = r := Option.some.inj (hp.symm.trans hr)
        exact hvacant
      · refine hown hvacant r (List.mem_of_getElem? (i := k - (i + 1)) ?_)
        rw [List.getElem?_drop, Nat.add_sub_cancel' hlt]
        exact hr
    · obtain ⟨n, hn, hregion⟩ := codeRegion?_of_bytes hsize hp hconstants (Nat.le_refl i)
        (fun k hk hki => absurd hk (Nat.not_le.mpr hki)) hp fun hvacant => hcode hvacant.1
      obtain ⟨n', hn', hpad⟩ := exists_aligned p.code
      refine ⟨n' + n, by omega, ?_⟩
      rw [hregion, added, hconstants, aligned_nil, List.append_nil, hpad, List.append_assoc,
        List.replicate_append_replicate]
  · obtain ⟨n, hn, hpad⟩ := exists_aligned p.code
    exact ⟨n, by omega, by rw [codeRegion?_of_constants hsize hp hconstants, hpad]⟩

end Regions

end ModuleBuilder

/-- The region of every program that brings any byte into a module is its own code with fewer than
80 zeros after it, and so is that of a program that brings nothing if no program after it brings
anything. Otherwise its region is the code and the constants of the first program after it that
brings something. -/
theorem ModuleBuilder.code_region_exact (programs : List ProgramData)
    (hsize : Module.headerSize + (programs.foldl add {}).build.data.length < 2 ^ 32) :
    let m := (programs.foldl add {}).build
    (∀ i p, programs[i]? = some p →
      (p.IsVacant → ∀ q ∈ programs.drop (i + 1), q.IsVacant) →
      ∃ n < 80, m.codeRegion? i = some (p.code ++ List.replicate n 0)) ∧
    (∀ i p j q, programs[i]? = some p → programs[j]? = some q → i < j →
      (∀ k, i ≤ k → k < j → ∀ r ∈ programs[k]?, r.IsVacant) → ¬ q.IsVacant →
      ∃ n < 64, ∃ n' < 80, m.codeRegion? i =
        some (q.code ++ List.replicate n 0 ++ q.constants ++ List.replicate n' 0)) := by
  have hdata : (programs.foldl add {}).data.length < 2 ^ 32 :=
    (length_le_build _).trans_lt (Nat.lt_of_add_left_lt hsize)
  refine ⟨fun i p hp hown => codeRegion?_own hdata hp hown,
    fun i p j q hp hq hij hvacant hbytes => ?_⟩
  have hnone : p.constants = [] := (hvacant i (Nat.le_refl i) hij p hp).2
  obtain ⟨n, hn, hregion⟩ := codeRegion?_of_bytes hdata hp hnone hij.le hvacant hq hbytes
  obtain ⟨n₁, hn₁, hcode⟩ := exists_aligned q.code
  obtain ⟨n₂, hn₂, hconstants⟩ := exists_aligned q.constants
  refine ⟨n₁, hn₁, n₂ + n, by omega, ?_⟩
  rw [hregion, added, hcode, hconstants, ← List.replicate_append_replicate]
  simp only [List.append_assoc]

/-- A program that brings nothing, and one with code after it. -/
def vacantFirst : List ProgramData := [
  { code := [], constants := [], numGprs := 4, threadScratch := 0, params := .vertex 0 0 },
  { code := List.replicate 64 0x50, constants := [], numGprs := 8, threadScratch := 0
    params := .vertex 0 0 }]

theorem ModuleBuilder.code_region_exact_vacantFirst :
    let m := (vacantFirst.foldl add {}).build
    Module.headerSize + m.data.length < 2 ^ 32 ∧
      (∃ n < 80, m.codeRegion? 1 = some (List.replicate 64 0x50 ++ List.replicate n 0)) ∧
      ∃ n < 64, ∃ n' < 80, m.codeRegion? 0 =
        some (List.replicate 64 0x50 ++ List.replicate n 0 ++ [] ++ List.replicate n' 0) := by
  intro m
  have hsize : Module.headerSize + m.data.length < 2 ^ 32 := by decide +kernel
  obtain ⟨hown, hnext⟩ := code_region_exact vacantFirst hsize
  refine ⟨hsize, hown 1 _ rfl (by decide), hnext 0 _ 1 _ rfl rfl (by decide) ?_ (by decide)⟩
  intro k _ hk
  obtain rfl : k = 0 := by omega
  decide

/-- The region of a program without code is not zeros only. -/
theorem ModuleBuilder.code_region_not_own_vacantFirst :
    Module.headerSize + (vacantFirst.foldl add {}).build.data.length < 2 ^ 32 ∧
    ∃ p, vacantFirst[0]? = some p ∧
      ¬ ∃ z : Bytes, (∀ b ∈ z, b = 0) ∧ z.length < 80 ∧
        (vacantFirst.foldl add {}).build.codeRegion? 0 = some (p.code ++ z) := by
  refine ⟨by decide +kernel, _, rfl, ?_⟩
  rintro ⟨z, hzero, -, hregion⟩
  have hcode : (vacantFirst.foldl add {}).build.codeRegion? 0 =
      some (List.replicate 64 0x50 ++ List.replicate 16 0) := by decide +kernel
  rw [hcode, Option.some.injEq, List.nil_append] at hregion
  exact absurd (hzero 0x50 (by rw [← hregion]; simp)) (by decide)

end ShaderBackend
