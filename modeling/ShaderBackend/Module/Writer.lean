import ShaderBackend.Module.Basic

/-!
The bytes of a module.
-/

namespace ShaderBackend

def ProgramHeader.toWords (p : ProgramHeader) : List UInt32 :=
  [p.stage.programType, p.entrypoint, p.numGprs, p.constantsOffset, p.constantsSize,
    p.warpScratch] ++ p.params.encode.toList ++ [0]

def ProgramHeader.toBytes (p : ProgramHeader) : Bytes :=
  p.toWords.flatMap Bytes.ofUInt32

namespace Module

def headerWords (m : Module) : List UInt32 :=
  [magic, version, UInt32.ofNat m.programs.length, m.moduleSize, 0, 0, 0, 0, 0, 0, 0, 0]

def toBytes (m : Module) : Bytes :=
  m.headerWords.flatMap Bytes.ofUInt32 ++ m.data ++ m.programs.flatMap ProgramHeader.toBytes

end Module

end ShaderBackend
