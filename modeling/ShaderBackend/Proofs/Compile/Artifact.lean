import ShaderBackend.Compile.Basic
import ShaderBackend.Proofs.Code.Padding
import ShaderBackend.Proofs.Module.CodeRegion
import ShaderBackend.Proofs.Program.Placement

/-!
From a source to the bytes of a module and back. What a generator answered for an accepted source
can be read again from the module: the header says what the generator said, and the data holds its
constants and its code, filled up to whole groups.
-/

namespace ShaderBackend

/-! ### What compiling does -/

/-- A request with the answer of a generator to it. -/
def Request.compiled (r : Request) (g : Generated) : CompiledProgram where
  program := r.program
  interface := r.interface
  rawCode := g.code
  code := Code.finish g.code.toWords64
  numGprs := g.numGprs
  threadScratch := g.threadScratch
  numBarriers := g.numBarriers
  constants := g.constants
  params := r.program.stageParams g

theorem Request.complete_eq_ok_iff {r : Request} {generator : Text}
    {answer : Except Failure Generated} {c : CompiledProgram} :
    r.complete generator answer = .ok c ↔
      ∃ g, answer = .ok g ∧ g.code.length % 8 = 0 ∧ c = r.compiled g := by
  cases answer with
  | error failure => simp [complete]
  | ok g =>
      by_cases hwhole : g.code.length % 8 = 0
      · simp [complete, hwhole, compiled, eq_comm]
      · simp [complete, hwhole]

namespace Program

theorem program_of_request {p : Program} {options : CompileOptions} {r : Request}
    (h : p.request options = .ok r) : r.program = p := by
  obtain ⟨interface, -, hr⟩ := Except.bind_eq_ok_iff.mp h
  cases hr
  rfl

theorem compile_eq_ok_iff {p : Program} {generator : Generator} {options : CompileOptions}
    {c : CompiledProgram} :
    p.compile generator options = .ok c ↔
      ∃ r g, p.request options = .ok r ∧ generator.generate r = .ok g ∧
        g.code.length % 8 = 0 ∧ c = r.compiled g := by
  unfold compile
  cases hr : p.request options with
  | error reason => simp
  | ok r =>
      simp only [Except.ok.injEq, exists_and_left, exists_eq_left']
      rw [← Request.complete_eq_ok_iff]
      cases r.complete generator.name (generator.generate r) with
      | error diagnostic => simp
      | ok c' => simp

theorem stage_stageParams (p : Program) (g : Generated) : (p.stageParams g).stage = p.stage := by
  unfold stageParams
  generalize p.stage = stage
  cases stage <;> rfl

end Program

theorem compileSource_eq_ok_iff {source : Text} {stage : Stage} {generator : Generator}
    {options : CompileOptions} {c : CompiledProgram} :
    compileSource source stage generator options = .ok c ↔
      ∃ p r g, Program.ofSource source stage = .ok p ∧ p.request options = .ok r ∧
        generator.generate r = .ok g ∧ g.code.length % 8 = 0 ∧ c = r.compiled g := by
  unfold compileSource
  cases hp : Program.ofSource source stage with
  | error diagnostics => simp
  | ok p => simp [Program.compile_eq_ok_iff]

/-! ### A module with one program -/

namespace ModuleBuilder

/-- The region of the only program is its code, and zeros after it. -/
theorem codeRegion?_add_nil {p : ProgramData} (hcode : p.code.length % 64 = 0)
    (hsize : (add {} p).data.length < 2 ^ 32) :
    ∃ n, (add {} p).build.codeRegion? 0 = some (p.code ++ List.replicate n 0) := by
  have hall : ([p].foldl add {}).data.length < 2 ^ 32 := hsize
  by_cases hconstants : p.constants = []
  · obtain ⟨n, -, hregion⟩ := codeRegion?_own (i := 0) hall rfl (by simp)
    exact ⟨n, hregion⟩
  · -- Constants come right after code that fills whole groups.
    have hregion := codeRegion?_of_constants (i := 0) hall rfl hconstants
    rw [aligned_of_length_mod hcode] at hregion
    exact ⟨0, by rw [List.replicate_zero, List.append_nil]; exact hregion⟩

theorem ofBytes_add_nil {p : ProgramData}
    (hsize : Module.headerSize + (add {} p).build.data.length < 2 ^ 32) :
    Module.ofBytes (add {} p).build.toBytes = .ok (add {} p).build := by
  have hvalid : (add {} p).build.Valid :=
    valid_build_of_lt (inside_add inside_nil p) hsize (show 1 < 2 ^ 32 by decide)
  simpa using Module.ofBytes_toBytes_append hvalid []

theorem constants?_add_nil {p : ProgramData} (hsize : (add {} p).data.length < 2 ^ 32) :
    (add {} p).build.constants? 0 = some p.constants := by
  have hholds : (add {} p).Holds [p] := holds_add holds_nil p hsize
  obtain ⟨-, -, -, -, hconstants⟩ := find_program (i := 0) hholds (inside_add inside_nil p) rfl
  exact hconstants

/-- The scratch memory of a warp is that of its threads together, if this is not cut. -/
theorem warpScratch_headerFor {data : Bytes} {p : ProgramData}
    (h : 32 * p.threadScratch.toNat < 2 ^ 32) :
    (headerFor data p).warpScratch.toNat = 32 * p.threadScratch.toNat := by
  show (p.threadScratch * warpSize).toNat = _
  rw [UInt32.toNat_mul, Nat.mul_comm]
  exact Nat.mod_eq_of_lt h

end ModuleBuilder

/-! ### The artifact -/

/-- What a generator answered for an accepted source is in the bytes of the module. They are read as
one program of the requested stage, with the generator's registers and constants, the scratch memory
of a whole warp and the stage parameters of the source. Its code is the generator's, filled up to
whole groups: no byte of it changes outside the control word for the first new instruction. -/
theorem compileSource_artifact (source : Text) (stage : Stage) (generator : Generator)
    (options : CompileOptions) (c : CompiledProgram)
    (h : compileSource source stage generator options = .ok c)
    (hsize : Module.headerSize + c.toModule.data.length < 2 ^ 32)
    (hscratch : 32 * c.threadScratch.toNat < 2 ^ 32) :
    ∃ p r g, Program.ofSource source stage = .ok p ∧ p.request options = .ok r ∧
      generator.generate r = .ok g ∧
      (∃ m header, Module.ofBytes c.toModule.toBytes = .ok m ∧ m.programs = [header] ∧
        header.stage = stage ∧ header.numGprs = g.numGprs ∧
        header.warpScratch.toNat = 32 * g.threadScratch.toNat ∧
        header.params = p.stageParams g ∧
        m.constants? 0 = some g.constants ∧
        ∃ n, m.codeRegion? 0 = some (c.codeBytes ++ List.replicate n 0)) ∧
      c.codeBytes.length % 64 = 0 ∧ g.code.length ≤ c.codeBytes.length ∧
      ∀ k < g.code.length,
        (∀ slot, Code.firstPadding? (g.code.length / 8) = some slot → k / 8 ≠ Code.owner slot) →
        c.codeBytes[k]? = g.code[k]? := by
  obtain ⟨p, r, g, hp, hr, hg, hwhole, rfl⟩ := compileSource_eq_ok_iff.mp h
  obtain rfl := Program.program_of_request hr
  obtain ⟨hstage, -, -⟩ := Program.errors_eq_nil_iff.mp (Program.ofSource_eq_ok.mp hp).2
  let data := (r.compiled g).toProgramData
  have hcode : data.code.length % 64 = 0 := Code.length_finish_bytes_mod _
  have hdata : (ModuleBuilder.add {} data).data.length < 2 ^ 32 :=
    (ModuleBuilder.length_le_build _).trans_lt (Nat.lt_of_add_left_lt hsize)
  refine ⟨r.program, r, g, hp, hr, hg,
    ⟨(r.compiled g).toModule, ModuleBuilder.headerFor [] data, ModuleBuilder.ofBytes_add_nil hsize,
      rfl, ?_, rfl, ModuleBuilder.warpScratch_headerFor hscratch, rfl,
      ModuleBuilder.constants?_add_nil hdata, ModuleBuilder.codeRegion?_add_nil hcode hdata⟩,
    hcode, ?_, fun k hk => Code.getElem?_finish_bytes hwhole hk⟩
  · exact (Program.stage_stageParams _ g).trans hstage
  · exact Code.le_length_finish_bytes hwhole

/-- A generator that answers three words of code, with a control word of zeros, and constants. -/
def threeWords : Generator where
  name := "three words".toList
  generate _ := .ok {
    code := List.replicate 8 0 ++ List.replicate 8 0x11 ++ List.replicate 8 0x22
    numGprs := 8, threadScratch := 16, constants := [1, 2, 3] }

/-- A fragment program that asks for early tests and is run for each sample. -/
def sampled : Text :=
  "FRAG\nPROPERTY FS_EARLY_DEPTH_STENCIL 1\nDCL SV[0], SAMPLEID\nEND"

theorem compileSource_artifact_threeWords :
    ∃ c m header, compileSource sampled .fragment threeWords {} = .ok c ∧
      Module.ofBytes c.toModule.toBytes = .ok m ∧ m.programs = [header] ∧
      header.stage = .fragment ∧ header.numGprs = 8 ∧ header.warpScratch.toNat = 512 ∧
      header.params = .fragment { earlyFragmentTests := true, sampleShading := true } ∧
      m.constants? 0 = some [1, 2, 3] ∧ c.codeBytes[23]? = some 0x22 ∧
      c.codeBytes[6]? ≠ some 0 := by
  -- The branch after the code is scheduled in the first word, which is not as it was.
  obtain ⟨c, hc, hsize, hscratch, hpatched⟩ :
      ∃ c, compileSource sampled .fragment threeWords {} = .ok c ∧
        Module.headerSize + c.toModule.data.length < 2 ^ 32 ∧
        32 * c.threadScratch.toNat < 2 ^ 32 ∧ c.codeBytes[6]? ≠ some 0 :=
    ⟨_, rfl, by decide +kernel, by decide +kernel, by decide +kernel⟩
  obtain ⟨p, r, g, hp, -, hg, ⟨m, header, hm, hprograms, hstage, hgprs, hwarp, hparams,
    hconstants, -⟩, -, -, hkept⟩ := compileSource_artifact _ _ _ _ c hc hsize hscratch
  cases hg
  cases hp
  exact ⟨c, m, header, hc, hm, hprograms, hstage, hgprs, hwarp, hparams.trans (by decide +kernel),
    hconstants, hkept 23 (by decide) (by decide), hpatched⟩

end ShaderBackend
