import ShaderBackend.Module.Basic

/-!
Putting a module together, one program after the other.
-/

namespace ShaderBackend

/-- What a program brings into a module. -/
structure ProgramData where
  code : Bytes
  constants : Bytes
  numGprs : UInt32
  /-- Scratch memory of a thread, in bytes. -/
  threadScratch : UInt32
  params : StageParams
  deriving DecidableEq, Repr

structure ModuleBuilder where
  programs : List ProgramHeader := []
  data : Bytes := []
  deriving DecidableEq, Repr

namespace ModuleBuilder

/-- The number of threads that run together. -/
def warpSize : UInt32 := 32

/-- Fill up the data to where the next block can start. -/
def aligned (data : Bytes) : Bytes :=
  data.padTo Module.alignment

/-- The data with a program's code and constants at the end, and where they start. -/
def place (data : Bytes) (p : ProgramData) : Bytes × Nat × Nat :=
  let start := aligned data
  let afterCode := aligned (start ++ p.code)
  if p.constants.isEmpty then (afterCode, start.length, 0)
  else (aligned (afterCode ++ p.constants), start.length, afterCode.length)

/-- Add a program after the ones that are there. -/
def add (b : ModuleBuilder) (p : ProgramData) : ModuleBuilder :=
  let (data, entrypoint, constantsOffset) := place b.data p
  let header : ProgramHeader := {
    entrypoint := UInt32.ofNat entrypoint
    numGprs := p.numGprs
    constantsOffset := UInt32.ofNat constantsOffset
    constantsSize := UInt32.ofNat p.constants.length
    warpScratch := p.threadScratch * warpSize
    params := p.params }
  { programs := b.programs ++ [header], data }

/-- Add a program and tell its index, the place of its header. -/
def push (b : ModuleBuilder) (p : ProgramData) : Nat × ModuleBuilder :=
  let next := b.add p
  (next.programs.length - 1, next)

/-- The module of the programs so far. Header and data together fill a multiple of 64 bytes. -/
def build (b : ModuleBuilder) : Module :=
  let size := alignUp (Module.headerSize + b.data.length) Module.alignment
  { programs := b.programs
    data := b.data ++ List.replicate (size - Module.headerSize - b.data.length) 0 }

end ModuleBuilder

end ShaderBackend
