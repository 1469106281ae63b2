import ShaderBackend.CommandLine.Arguments
import ShaderBackend.CommandLine.Report
import ShaderBackend.Module.Hash
import ShaderBackend.Module.Reader

/-!
Describing the programs of a module.
-/

namespace ShaderBackend

namespace ProgramHeader

/-- Where the constants are, if there are any. -/
def describeConstants (p : ProgramHeader) : Text :=
  if p.constantsSize = 0 then []
  else
    " constbuf1=" ++ Text.hexadecimal 4 p.constantsOffset.toNat ++ "+" ++
      Text.hexadecimal 1 p.constantsSize.toNat

def describe (p : ProgramHeader) : Text :=
  p.stage.mnemonic ++ " entry=" ++ Text.hexadecimal 4 p.entrypoint.toNat ++ " gprs=" ++
    Text.decimal p.numGprs.toNat ++ " scratch=" ++ Text.hexadecimal 1 p.warpScratch.toNat ++
    p.describeConstants

end ProgramHeader

namespace StageParams

/-- The names of the flags that are set. -/
def flagNames (flags : List (Bool × Text)) : Text :=
  List.intercalate " " ((flags.filter (·.1)).map (·.2))

/-- The parameters worth a line, empty if there are none. -/
def describe : StageParams → Text
  | vertex altEntrypoint altNumGprs =>
    if altNumGprs = 0 then []
    else
      "alt entry=" ++ Text.hexadecimal 4 altEntrypoint.toNat ++ " gprs=" ++
        Text.decimal altNumGprs.toNat
  | fragment p =>
    flagNames [(p.earlyFragmentTests, "early_fragment_tests"),
      (p.postDepthCoverage, "post_depth_coverage"), (p.sampleShading, "sample_shading")]
  | tessEval mode => "tess mode=" ++ Text.hexadecimal 3 mode.toNat
  | compute p =>
    "block=" ++ List.intercalate "x" (p.blockDims.toList.map fun d => Text.decimal d.toNat) ++
      " shared=" ++ Text.hexadecimal 1 p.sharedMemory.toNat ++ " local=" ++
      Text.hexadecimal 1 p.localPositive.toNat ++ " barriers=" ++ Text.decimal p.numBarriers.toNat
  | tessControl => []
  | geometry _ => []

end StageParams

namespace CommandLine

/-- The lines about the `index`-th program of a module. -/
def programLines (index : Nat) (p : ProgramHeader) : List Text :=
  let params := p.params.describe
  ("  [" ++ Text.decimal index ++ "] " ++ p.describe) ::
    if params.isEmpty then [] else ["      ".toList ++ params]

def trailingWarning (count : Nat) : Diagnostic :=
  .warning (Text.decimal count ++ " trailing bytes after the program headers") .dummy

/-- The lines about a module in a file of a given size. -/
def moduleLines (a : InspectArguments) (m : Module) (size : Nat) : List Text :=
  ("Module: " ++ (if a.full then m.hash.hex else m.hash.label) ++ " " ++ a.input) ::
    ("  " ++ Text.decimal m.programs.length ++ " programs, module size " ++
      Text.hexadecimal 1 m.moduleSize.toNat ++ ", file size " ++ Text.hexadecimal 1 size) ::
    (m.programs.mapIdx programLines).flatten

variable {m : Type → Type} [Monad m] [FileAccess m]

def inspect (a : InspectArguments) : Session m Unit := do
  let bytes ← Session.read a.input
  match Module.ofBytes bytes with
  | .error e => Session.fail e.diagnostic.plain
  | .ok found =>
    if found.fileSize < bytes.length then
      Session.printError (trailingWarning (bytes.length - found.fileSize)).plain
    Session.print (Text.unlines (moduleLines a found bytes.length))

end CommandLine

end ShaderBackend
