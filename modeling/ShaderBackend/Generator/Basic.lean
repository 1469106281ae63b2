import ShaderBackend.Program.Printer
import ShaderBackend.Bytes

/-!
Code generators turn a program with assigned slots into machine code. The back-end hands a generator
a request, and gets back code and resource counts, or a failure with a negative status.
-/

namespace ShaderBackend

/-- The places in the driver's constant buffer that generated code refers to. -/
structure ResourceBases where
  auxSlot : Nat
  draw : Nat
  buffer : Nat
  texture : Nat
  framebuffer : Nat
  sample : Nat
  uniform : Nat
  deriving DecidableEq, Repr

def ResourceBases.ofStage (stage : Stage) : ResourceBases where
  auxSlot := 17
  draw := 0x000
  buffer := stage.resourceBase + 0x0a0
  texture := stage.resourceBase
  framebuffer := 0x00c
  sample := 0x830
  uniform := 0x000

/-- What a generator is asked to compile. -/
structure Request where
  /-- The interface, with its slots. -/
  interface : Interface
  program : Program
  optLevel : Nat
  deriving DecidableEq, Repr

/-- What a generator answers. -/
structure Generated where
  code : Bytes := []
  numGprs : UInt32 := 0
  /-- Scratch memory of a thread, in bytes. -/
  threadScratch : UInt32 := 0
  numBarriers : UInt32 := 0
  constants : Bytes := []
  deriving DecidableEq, Repr

/-- Why a generator gave no code. -/
structure Failure where
  status : Int32
  detail : Option Text := none
  deriving DecidableEq, Repr

def Failure.message (f : Failure) : Text :=
  "code generation failed with status " ++ Text.signedDecimal f.status.toInt ++
    match f.detail with
    | some detail => ": " ++ detail
    | none => []

/-- A failure of the exchange with a generator, not of the generator itself. -/
def Failure.exchange (detail : Text) : Failure :=
  { status := -1, detail := some detail }

structure Generator where
  name : Text
  generate : Request → Except Failure Generated

namespace Request

def bases (r : Request) : ResourceBases :=
  .ofStage r.program.stage

def varyingLine (direction : Text) (number : Nat) (v : Varying) : Text :=
  direction ++ " " ++ Text.decimal number ++ " " ++ v.semantic.name ++ " " ++
    Text.decimal v.index ++ " mask=" ++ Text.hexadecimal 1 v.mask.toNat ++ " slots=" ++
    v.slots.render 1

def basesLine (b : ResourceBases) : Text :=
  "io aux_cb=" ++ Text.decimal b.auxSlot ++ " draw=" ++ Text.hexadecimal 3 b.draw ++ " buf=" ++
    Text.hexadecimal 3 b.buffer ++ " tex=" ++ Text.hexadecimal 3 b.texture ++ " fbtex=" ++
    Text.hexadecimal 3 b.framebuffer ++ " sample=" ++ Text.hexadecimal 3 b.sample ++ " ubo=" ++
    Text.hexadecimal 3 b.uniform

/-- The lines in front of the tokens. -/
def headLines (r : Request) : List Text :=
  ["stage " ++ r.interface.stage.mnemonic,
    "target " ++ Text.hexadecimal 1 r.interface.target,
    "opt " ++ Text.decimal r.optLevel,
    "smem " ++ Text.decimal r.program.sharedMemory,
    basesLine r.bases] ++
  r.interface.inputs.mapIdx (varyingLine "in") ++
  r.interface.outputs.mapIdx (varyingLine "out") ++
  ["tokens".toList]

/-- The request as a generator reads it. -/
def render (r : Request) : Text :=
  Text.unlines r.headLines ++ r.program.render

end Request

end ShaderBackend
