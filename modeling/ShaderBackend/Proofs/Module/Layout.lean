import Mathlib.Data.List.Forall2
import ShaderBackend.Proofs.Module.RoundTrip

/-!
The layout of a module that is built from programs. Its data is made of blocks, the code and the
constants of each program in their order, at multiples of 64 bytes and with zero bytes between them,
and the headers say where the blocks are. Adding a program leaves the blocks before it where they
are.
-/

namespace ShaderBackend

/-! ### Blocks -/

/-- A part of the data of a module: where it starts, and its bytes. -/
structure Block where
  start : Nat
  bytes : Bytes
  deriving DecidableEq, Repr

namespace Block

def stop (b : Block) : Nat :=
  b.start + b.bytes.length

/-- A place in the data belongs to the block. -/
def Covers (b : Block) (k : Nat) : Prop :=
  b.start ≤ k ∧ k < b.stop

instance (b : Block) (k : Nat) : Decidable (b.Covers k) :=
  inferInstanceAs (Decidable (_ ∧ _))

def Before (a b : Block) : Prop :=
  a.stop ≤ b.start

def Disjoint (a b : Block) : Prop :=
  ∀ k, ¬ (a.Covers k ∧ b.Covers k)

theorem Before.disjoint {a b : Block} (h : a.Before b) : a.Disjoint b := by
  rintro k ⟨ha, hb⟩
  unfold Before at h
  unfold Covers at ha hb
  omega

end Block

/-- Data in which blocks lie one after the other, with only zero bytes around them. -/
inductive Laid : Bytes → List Block → Prop
  | nil : Laid [] []
  | zeros {data : Bytes} {blocks : List Block} (n : Nat) (h : Laid data blocks) :
      Laid (data ++ List.replicate n 0) blocks
  | block {data : Bytes} {blocks : List Block} (bytes : Bytes) (h : Laid data blocks) :
      Laid (data ++ bytes) (blocks ++ [⟨data.length, bytes⟩])

namespace Laid

variable {data : Bytes} {blocks : List Block}

theorem stop_le (h : Laid data blocks) : ∀ b ∈ blocks, b.stop ≤ data.length := by
  induction h with
  | nil => simp
  | zeros n h ih =>
      intro b hb
      have := ih b hb
      rw [List.length_append]
      omega
  | block bytes h ih =>
      intro b hb
      rw [List.length_append]
      rcases List.mem_append.mp hb with hb | hb
      · have := ih b hb
        omega
      · obtain rfl := List.mem_singleton.mp hb
        exact Nat.le_refl _

theorem pairwise_before (h : Laid data blocks) : blocks.Pairwise Block.Before := by
  induction h with
  | nil => exact .nil
  | zeros n h ih => exact ih
  | block bytes h ih =>
      rw [List.pairwise_append]
      refine ⟨ih, List.pairwise_singleton _ _, fun a ha b hb => ?_⟩
      obtain rfl := List.mem_singleton.mp hb
      exact h.stop_le a ha

theorem slice?_eq (h : Laid data blocks) :
    ∀ b ∈ blocks, data.slice? b.start b.stop = some b.bytes := by
  induction h with
  | nil => simp
  | zeros n h ih => exact fun b hb => Bytes.slice?_append (ih b hb) _
  | block bytes h ih =>
      intro b hb
      rcases List.mem_append.mp hb with hb | hb
      · exact Bytes.slice?_append (ih b hb) _
      · obtain rfl := List.mem_singleton.mp hb
        exact Bytes.slice?_length_append _ _

theorem zero_outside (h : Laid data blocks) {k : Nat} (hk : k < data.length)
    (houtside : ∀ b ∈ blocks, ¬ b.Covers k) : data[k]? = some 0 := by
  induction h with
  | nil => simp at hk
  | @zeros data blocks n h ih =>
      by_cases hdata : k < data.length
      · rw [List.getElem?_append_left hdata]
        exact ih hdata houtside
      · rw [List.length_append, List.length_replicate] at hk
        rw [List.getElem?_append_right (by omega), List.getElem?_replicate_of_lt (by omega)]
  | @block data blocks bytes h ih =>
      by_cases hdata : k < data.length
      · rw [List.getElem?_append_left hdata]
        exact ih hdata fun b hb => houtside b (List.mem_append_left _ hb)
      · rw [List.length_append] at hk
        exact absurd ⟨by simpa using hdata, hk⟩ (houtside ⟨data.length, bytes⟩ (by simp))

/-- A part that is one of the blocks unless it is empty can be cut out of the data. -/
theorem slice?_of_mem (h : Laid data blocks) {start : Nat} {part : Bytes}
    (hmem : part ≠ [] → ⟨start, part⟩ ∈ blocks) (hstart : start ≤ data.length) :
    data.slice? start (start + part.length) = some part := by
  by_cases hempty : part = []
  · rw [hempty]
    exact Bytes.slice?_empty hstart
  · exact h.slice?_eq ⟨start, part⟩ (hmem hempty)

/-- Bytes at the end of the data are a new block, unless there are none. -/
theorem append (h : Laid data blocks) (bytes : Bytes) :
    Laid (data ++ bytes) (blocks ++ [(⟨data.length, bytes⟩ : Block)].filter (·.bytes ≠ [])) := by
  by_cases hbytes : bytes = []
  · simpa [hbytes] using h
  · simpa [hbytes] using h.block bytes

theorem aligned (h : Laid data blocks) : Laid (ModuleBuilder.aligned data) blocks :=
  h.zeros _

end Laid

/-! ### The blocks of programs -/

/-- The code and the constants of a program, where its header says that they are. Empty ones are no
blocks. -/
def ProgramHeader.blocks (h : ProgramHeader) (p : ProgramData) : List Block :=
  [⟨h.entrypoint.toNat, p.code⟩, ⟨h.constantsOffset.toNat, p.constants⟩].filter (·.bytes ≠ [])

/-- The blocks of programs, in the order of the programs. -/
def blocksOf (programs : List ProgramData) (headers : List ProgramHeader) : List Block :=
  (List.zipWith (fun p h => h.blocks p) programs headers).flatten

theorem blocksOf_concat {programs : List ProgramData} {headers : List ProgramHeader}
    (hlength : programs.length = headers.length) (p : ProgramData) (h : ProgramHeader) :
    blocksOf (programs ++ [p]) (headers ++ [h]) = blocksOf programs headers ++ h.blocks p := by
  simp [blocksOf, List.zipWith_append hlength]

theorem mem_blocksOf {programs : List ProgramData} {headers : List ProgramHeader} {i : Nat}
    {p : ProgramData} {h : ProgramHeader} (hp : programs[i]? = some p) (hh : headers[i]? = some h)
    {b : Block} (hb : b ∈ h.blocks p) : b ∈ blocksOf programs headers := by
  refine List.mem_flatten.mpr ⟨h.blocks p, ?_, hb⟩
  exact List.mem_of_getElem? (i := i) (by simp [List.getElem?_zipWith, hp, hh])

namespace ModuleBuilder

theorem length_aligned_mod (data : Bytes) : (aligned data).length % 64 = 0 := by
  have hle : data.length ≤ alignUp data.length 64 := le_alignUp (by decide) _
  rw [aligned, Bytes.padTo, List.length_append, List.length_replicate, Module.alignment,
    Nat.add_sub_cancel' hle]
  exact Nat.mul_mod_left _ _

/-- The blocks of a program come after the ones that are there, in the place that `place` tells. -/
theorem laid_place {data : Bytes} {blocks : List Block} (h : Laid data blocks) (p : ProgramData) :
    Laid (place data p).1 (blocks ++
      [(⟨(place data p).2.1, p.code⟩ : Block), ⟨(place data p).2.2, p.constants⟩].filter
        (·.bytes ≠ [])) := by
  have hcode := (h.aligned.append p.code).aligned
  unfold place
  simp only
  split
  · rename_i hempty
    simpa [List.filter_cons, List.isEmpty_iff.mp hempty] using hcode
  · have hconstants := (hcode.append p.constants).aligned
    rwa [List.append_assoc, ← List.filter_append] at hconstants

theorem place_aligned (data : Bytes) (p : ProgramData) :
    (place data p).2.1 % 64 = 0 ∧ (place data p).2.2 % 64 = 0 := by
  unfold place
  simp only
  split
  · exact ⟨length_aligned_mod _, rfl⟩
  · exact ⟨length_aligned_mod _, length_aligned_mod _⟩

/-- The header that a program gets after the data that is there. -/
def headerFor (data : Bytes) (p : ProgramData) : ProgramHeader where
  entrypoint := UInt32.ofNat (place data p).2.1
  numGprs := p.numGprs
  constantsOffset := UInt32.ofNat (place data p).2.2
  constantsSize := UInt32.ofNat p.constants.length
  warpScratch := p.threadScratch * warpSize
  params := p.params

theorem add_eq (b : ModuleBuilder) (p : ProgramData) :
    b.add p = { programs := b.programs ++ [headerFor b.data p], data := (place b.data p).1 } :=
  rfl

/-- What a header says about a program, wherever the program is. -/
structure Describes (p : ProgramData) (h : ProgramHeader) : Prop where
  entrypoint_aligned : h.entrypoint.toNat % 64 = 0
  constants_aligned : h.constantsOffset.toNat % 64 = 0
  size_eq : h.constantsSize.toNat = p.constants.length

/-- The builder holds programs: a header for each, and their blocks in the data. -/
structure Holds (b : ModuleBuilder) (programs : List ProgramData) : Prop where
  describes : List.Forall₂ Describes programs b.programs
  laid : Laid b.data (blocksOf programs b.programs)

theorem holds_nil : Holds {} [] :=
  ⟨.nil, .nil⟩

/-- Offsets below 32 bits are not cut. -/
theorem headerFor_offsets {data : Bytes} {p : ProgramData}
    (hsize : (place data p).1.length < 2 ^ 32) :
    (headerFor data p).entrypoint.toNat = (place data p).2.1 ∧
      (headerFor data p).constantsOffset.toNat = (place data p).2.2 ∧
      (headerFor data p).constantsSize.toNat = p.constants.length := by
  obtain ⟨-, hentry, hconstants⟩ := place_spec data p
  refine ⟨UInt32.toNat_ofNat_of_lt' ?_, UInt32.toNat_ofNat_of_lt' ?_,
    UInt32.toNat_ofNat_of_lt' ?_⟩ <;> unfold UInt32.size <;> omega

theorem holds_add {b : ModuleBuilder} {programs : List ProgramData} (hb : b.Holds programs)
    (p : ProgramData) (hsize : (b.add p).data.length < 2 ^ 32) :
    (b.add p).Holds (programs ++ [p]) := by
  rw [add_eq] at hsize ⊢
  obtain ⟨hentry, hconstants, hlength⟩ := headerFor_offsets hsize
  obtain ⟨hentryAligned, hconstantsAligned⟩ := place_aligned b.data p
  refine ⟨?_, ?_⟩
  · refine List.rel_append hb.describes (.cons ⟨?_, ?_, hlength⟩ .nil)
    · rw [hentry, hentryAligned]
    · rw [hconstants, hconstantsAligned]
  · rw [blocksOf_concat hb.describes.length_eq, ProgramHeader.blocks, hentry, hconstants]
    exact laid_place hb.laid p

theorem length_le_foldl_add (programs : List ProgramData) (b : ModuleBuilder) :
    b.data.length ≤ (programs.foldl add b).data.length := by
  induction programs generalizing b with
  | nil => exact Nat.le_refl _
  | cons p programs ih => exact (place_spec b.data p).1.trans (ih (b.add p))

theorem holds_foldl_add {b : ModuleBuilder} {done : List ProgramData} (hb : b.Holds done)
    (programs : List ProgramData) (hsize : (programs.foldl add b).data.length < 2 ^ 32) :
    (programs.foldl add b).Holds (done ++ programs) := by
  induction programs generalizing b done with
  | nil => simpa using hb
  | cons p programs ih =>
      -- The data only grows, so that no step of the run passes the bound.
      have hstep := holds_add hb p ((length_le_foldl_add programs _).trans_lt hsize)
      simpa using ih hstep hsize

theorem length_programs_foldl_add (programs : List ProgramData) (b : ModuleBuilder) :
    (programs.foldl add b).programs.length = b.programs.length + programs.length := by
  induction programs generalizing b with
  | nil => rfl
  | cons p programs ih =>
      rw [List.foldl_cons, ih, add_eq, List.length_append, List.length_cons]
      simp only [List.length_cons, List.length_nil]
      omega

/-- The `i`-th program that is added gets the index `i`. -/
theorem push_foldl_add {programs : List ProgramData} {i : Nat} {p : ProgramData}
    (hp : programs[i]? = some p) :
    ((programs.take i).foldl add {}).push p = (i, (programs.take (i + 1)).foldl add {}) := by
  have hi : i < programs.length := (List.getElem?_eq_some_iff.mp hp).1
  have hnext : (programs.take (i + 1)).foldl add {} = ((programs.take i).foldl add {}).add p := by
    rw [List.take_add_one, hp, List.foldl_append]
    rfl
  have hlength := length_programs_foldl_add (programs.take (i + 1)) {}
  rw [hnext, List.length_take, Nat.min_eq_left hi] at hlength
  rw [hnext, push, Prod.mk.injEq]
  refine ⟨?_, rfl⟩
  rw [hlength]
  simp

/-- A program that a builder holds is found again through its header in the module. -/
theorem find_program {b : ModuleBuilder} {programs : List ProgramData} (hb : b.Holds programs)
    (hinside : b.Inside) {i : Nat} {p : ProgramData} (hp : programs[i]? = some p) :
    ∃ h, b.build.programs[i]? = some h ∧ Describes p h ∧
      b.build.data.slice? h.entrypoint.toNat (h.entrypoint.toNat + p.code.length) = some p.code ∧
      b.build.constants? i = some p.constants := by
  obtain ⟨hlength, hdescribes⟩ := List.forall₂_iff_get.mp hb.describes
  obtain ⟨hi, rfl⟩ := List.getElem?_eq_some_iff.mp hp
  have hi' : i < b.programs.length := hlength ▸ hi
  have hh : b.programs[i]? = some b.programs[i] := List.getElem?_eq_getElem hi'
  have hdescribed : Describes programs[i] b.programs[i] := hdescribes i hi hi'
  have hlaid : Laid b.build.data (blocksOf programs b.programs) := hb.laid.zeros _
  have hin := (hinside _ (List.getElem_mem hi')).mono (length_le_build b)
  refine ⟨b.programs[i], hh, hdescribed, ?_, ?_⟩
  · refine hlaid.slice?_of_mem (fun hne => ?_) hin.entrypoint_le
    exact mem_blocksOf hp hh (by simp [ProgramHeader.blocks, hne])
  · show (b.programs[i]?.bind _) = _
    rw [hh, Option.bind_some, hdescribed.size_eq]
    refine hlaid.slice?_of_mem (fun hne => ?_) ((Nat.le_add_right _ _).trans hin.constants_le)
    exact mem_blocksOf hp hh (by simp [ProgramHeader.blocks, hne])

end ModuleBuilder

/-- The layout loses nothing and overlaps nothing. Programs get their indices in the order in which
they are added; the header of each finds its code, at a multiple of 64 bytes, and its constants, at
another one unless there are none; the blocks that are not empty lie in the data in order and apart
from each other; all other bytes are zero; and the sizes are what they are said to be. -/
theorem ModuleBuilder.layout_exact (programs : List ProgramData)
    (hsize : Module.headerSize + (programs.foldl add {}).build.data.length < 2 ^ 32) :
    let m := (programs.foldl add {}).build
    (∀ i p, programs[i]? = some p →
      ((programs.take i).foldl add {}).push p = (i, (programs.take (i + 1)).foldl add {})) ∧
    m.programs.length = programs.length ∧
    (∀ i p, programs[i]? = some p → ∃ h, m.programs[i]? = some h ∧
      h.entrypoint.toNat % 64 = 0 ∧
      m.data.slice? h.entrypoint.toNat (h.entrypoint.toNat + p.code.length) = some p.code ∧
      m.constants? i = some p.constants ∧
      (p.constants ≠ [] → h.constantsOffset.toNat % 64 = 0)) ∧
    (blocksOf programs m.programs).Pairwise (fun a b => a.Before b ∧ a.Disjoint b) ∧
    (∀ b ∈ blocksOf programs m.programs, b.stop ≤ m.data.length) ∧
    (∀ k < m.data.length, (∀ b ∈ blocksOf programs m.programs, ¬ b.Covers k) →
      m.data[k]? = some 0) ∧
    m.moduleSize.toNat % 64 = 0 ∧ m.toBytes.length = m.fileSize := by
  intro m
  have hlength := length_le_build (programs.foldl add {})
  have hholds := holds_foldl_add holds_nil programs (by omega)
  have hinside : (programs.foldl add {}).Inside := inside_foldl_add programs inside_nil
  have hlaid : Laid m.data (blocksOf programs m.programs) := hholds.laid.zeros _
  refine ⟨fun i p hp => push_foldl_add hp, ?_, fun i p hp => ?_, ?_, hlaid.stop_le,
    fun k hk => hlaid.zero_outside hk, ?_, m.length_toBytes⟩
  · exact hholds.describes.length_eq.symm
  · obtain ⟨h, hh, hdescribes, hcode, hconstants⟩ := find_program hholds hinside hp
    exact ⟨h, hh, hdescribes.entrypoint_aligned, hcode, hconstants,
      fun _ => hdescribes.constants_aligned⟩
  · exact hlaid.pairwise_before.imp fun h => ⟨h, h.disjoint⟩
  · rw [Module.moduleSize, UInt32.toNat_ofNat_of_lt' hsize]
    exact aligned_build _

/-- A program whose code and constants need zeros after them, an empty program, and one whose code
needs none. -/
def threePrograms : List ProgramData := [
  { code := List.replicate 70 0x50, constants := [1, 2, 3], numGprs := 12, threadScratch := 16
    params := .fragment { sampleShading := true } },
  { code := [], constants := [], numGprs := 4, threadScratch := 0, params := .vertex 0 0 },
  { code := List.replicate 64 0x60, constants := [], numGprs := 4, threadScratch := 0
    params := .tessControl }]

theorem ModuleBuilder.layout_exact_threePrograms :
    let m := (threePrograms.foldl add {}).build
    m.data.length = 272 ∧ m.moduleSize.toNat % 64 = 0 ∧ m.constants? 0 = some [1, 2, 3] ∧
      m.data[131]? = some 0 ∧
      ∃ h, m.programs[2]? = some h ∧
        m.data.slice? h.entrypoint.toNat (h.entrypoint.toNat + 64) =
          some (List.replicate 64 0x60) := by
  intro m
  have hlength : m.data.length = 272 := by decide +kernel
  have hsize : Module.headerSize + m.data.length < 2 ^ 32 := by
    rw [hlength]
    decide
  obtain ⟨-, -, hfound, -, -, hzero, haligned, -⟩ := layout_exact threePrograms hsize
  obtain ⟨-, -, -, -, hconstants, -⟩ := hfound 0 _ rfl
  obtain ⟨h, hh, -, hcode, -, -⟩ := hfound 2 _ rfl
  have hgap : m.data[131]? = some 0 :=
    hzero 131 (by rw [hlength]; decide) (by decide +kernel)
  exact ⟨hlength, haligned, hconstants, hgap, h, hh, hcode⟩

end ShaderBackend
