import ShaderBackend.Diagnostic
import ShaderBackend.Module.Basic
import ShaderBackend.Text.Number

/-!
Reading a module back. Everything that the offsets of a program reach has to lie in the data; bytes
after the last program header are ignored.
-/

namespace ShaderBackend

/-- Why bytes are not a module. -/
inductive ModuleError where
  | short (length : Nat)
  | badMagic (found : UInt32)
  | unsupportedVersion (version : UInt32)
  | badSize (size : Nat)
  | truncated (expected : Nat) (programs : UInt32) (found : Nat)
  | unknownType (program : Nat) (tag : UInt32)
  | entrypointOutside (program : Nat) (entrypoint : UInt32)
  | constantsOutside (program : Nat) (stop : Nat)
  deriving DecidableEq, Repr

namespace ModuleError

def cause : ModuleError → Text
  | short length =>
    Text.decimal length ++ " bytes is shorter than the " ++ Text.decimal Module.headerSize ++
      "-byte header"
  | badMagic found => "bad magic " ++ Text.hexadecimal 8 found.toNat
  | unsupportedVersion version => "unsupported version " ++ Text.decimal version.toNat
  | badSize size => "module size " ++ Text.decimal size ++ " is not a multiple of 64"
  | truncated expected programs found =>
    "expected " ++ Text.decimal expected ++ " bytes for " ++ Text.decimal programs.toNat ++
      " programs, found " ++ Text.decimal found
  | unknownType program tag =>
    "program " ++ Text.decimal program ++ " has unknown type " ++ Text.decimal tag.toNat
  | entrypointOutside program entrypoint =>
    "program " ++ Text.decimal program ++ " entrypoint " ++ Text.hexadecimal 1 entrypoint.toNat ++
      " is outside module data"
  | constantsOutside program stop =>
    "program " ++ Text.decimal program ++ " constbuf1 ends at " ++ Text.hexadecimal 1 stop ++
      ", past module data"

def help? : ModuleError → Option Text
  | badMagic _ => some "DKSH files start with the bytes \"DKSH\""
  | _ => none

def diagnostic (e : ModuleError) : Diagnostic :=
  { Diagnostic.bare ("malformed DKSH module: " ++ e.cause) with help := e.help? }

end ModuleError

namespace ProgramHeader

/-- The stage words of a program header. -/
def stageWords (bytes : Bytes) : StageWords :=
  .ofFn fun i => bytes.word32At (24 + 4 * i.val)

/-- A program header, or its tag if there is no such stage. -/
def ofBytes (bytes : Bytes) : Except UInt32 ProgramHeader :=
  let tag := bytes.word32At 0
  match Stage.ofProgramType? tag with
  | none => .error tag
  | some stage => .ok {
      entrypoint := bytes.word32At 4
      numGprs := bytes.word32At 8
      constantsOffset := bytes.word32At 12
      constantsSize := bytes.word32At 16
      warpScratch := bytes.word32At 20
      params := .decode stage (stageWords bytes) }

/-- The header of the `index`-th program, whose offsets lie in data of the given length. -/
def read (dataLength index : Nat) (bytes : Bytes) : Except ModuleError ProgramHeader :=
  match ofBytes bytes with
  | .error tag => .error (.unknownType index tag)
  | .ok p =>
    let stop := p.constantsOffset.toNat + p.constantsSize.toNat
    if dataLength < p.entrypoint.toNat then .error (.entrypointOutside index p.entrypoint)
    else if dataLength < stop then .error (.constantsOutside index stop)
    else .ok p

/-- Consecutive headers, numbered from `index` on. -/
def readAll (dataLength : Nat) : Nat → Nat → Bytes → Except ModuleError (List ProgramHeader)
  | _, 0, _ => .ok []
  | index, count + 1, bytes => do
    let p ← read dataLength index bytes
    let rest ← readAll dataLength (index + 1) count (bytes.drop Module.programHeaderSize)
    return p :: rest

end ProgramHeader

namespace Module

/-- Read a module from the start of a byte string. -/
def ofBytes (bytes : Bytes) : Except ModuleError Module :=
  if bytes.length < headerSize then .error (.short bytes.length)
  else if bytes.word32At 0 != magic then .error (.badMagic (bytes.word32At 0))
  else if bytes.word32At 4 != version then .error (.unsupportedVersion (bytes.word32At 4))
  else
    let count := bytes.word32At 8
    let size := (bytes.word32At 12).toNat
    let expected := size + count.toNat * programHeaderSize
    if size < headerSize || size % alignment != 0 then .error (.badSize size)
    else if bytes.length < expected then .error (.truncated expected count bytes.length)
    else do
      let data := (bytes.drop headerSize).take (size - headerSize)
      let programs ← ProgramHeader.readAll data.length 0 count.toNat (bytes.drop size)
      return { programs, data }

end Module

end ShaderBackend
