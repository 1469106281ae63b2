import ShaderBackend.Module.StageParams

/-!
Modules, the files that hold compiled programs. A module starts with a header of 48 bytes; then come
its data, the code and the constants of every program at multiples of 64 bytes, and last a header of
64 bytes for each program. Offsets count from the start of the data.
-/

namespace ShaderBackend

structure ProgramHeader where
  /-- Where the code starts. -/
  entrypoint : UInt32
  numGprs : UInt32
  constantsOffset : UInt32
  constantsSize : UInt32
  /-- Scratch memory of a warp, in bytes. -/
  warpScratch : UInt32
  params : StageParams
  deriving DecidableEq, Repr

def ProgramHeader.stage (p : ProgramHeader) : Stage :=
  p.params.stage

structure Module where
  programs : List ProgramHeader
  data : Bytes
  deriving DecidableEq, Repr

namespace Module

def headerSize : Nat := 48

def programHeaderSize : Nat := 64

def alignment : Nat := 64

/-- The bytes `DKSH`. -/
def magic : UInt32 := 0x48534b44

def version : UInt32 := 0

/-- The size of the header and the data. -/
def moduleSize (m : Module) : UInt32 :=
  UInt32.ofNat (headerSize + m.data.length)

/-- The size of the whole file. -/
def fileSize (m : Module) : Nat :=
  headerSize + m.data.length + m.programs.length * programHeaderSize

/-- Where the code of a program ends: at its constants if it has any, otherwise at the next code
that starts after it, otherwise at the end of the data. -/
def codeEnd (m : Module) (p : ProgramHeader) : Nat :=
  if p.constantsSize != 0 then p.constantsOffset.toNat
  else
    ((m.programs.map (·.entrypoint.toNat)).filter (p.entrypoint.toNat < ·)).min?.getD m.data.length

/-- The code of a program, with the padding after it. -/
def codeRegion? (m : Module) (index : Nat) : Option Bytes :=
  m.programs[index]?.bind fun p => m.data.slice? p.entrypoint.toNat (m.codeEnd p)

/-- The constants of a program. -/
def constants? (m : Module) (index : Nat) : Option Bytes :=
  m.programs[index]?.bind fun p =>
    m.data.slice? p.constantsOffset.toNat (p.constantsOffset.toNat + p.constantsSize.toNat)

end Module

end ShaderBackend
