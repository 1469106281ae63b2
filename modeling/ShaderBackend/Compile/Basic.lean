import ShaderBackend.Code.Padding
import ShaderBackend.Compile.Parameters
import ShaderBackend.Module.Builder
import ShaderBackend.Program.Check

/-!
Compiling a program: its interface gets slots, a generator gets the request, and the code that comes
back is filled up and described by stage parameters.
-/

namespace ShaderBackend

structure CompileOptions where
  /-- The revision of the hardware. -/
  target : Nat := 0x12b
  optLevel : Nat := 3
  deriving DecidableEq, Repr

structure CompiledProgram where
  program : Program
  interface : Interface
  /-- The code as the generator gave it. -/
  rawCode : Bytes
  code : List UInt64
  numGprs : UInt32
  threadScratch : UInt32
  numBarriers : UInt32
  constants : Bytes
  params : StageParams
  deriving DecidableEq, Repr

namespace CompiledProgram

def stage (c : CompiledProgram) : Stage :=
  c.program.stage

def codeBytes (c : CompiledProgram) : Bytes :=
  Bytes.ofWords64 c.code

def toProgramData (c : CompiledProgram) : ProgramData where
  code := c.codeBytes
  constants := c.constants
  numGprs := c.numGprs
  threadScratch := c.threadScratch
  params := c.params

/-- A module with this program alone. -/
def toModule (c : CompiledProgram) : Module :=
  (ModuleBuilder.add {} c.toProgramData).build

end CompiledProgram

/-- Why a program was not compiled. -/
inductive CompileError where
  /-- The program was not checked, and a varying of it has no slot. -/
  | unassignable (reason : SlotError)
  | rejected (diagnostics : List Diagnostic)
  deriving DecidableEq, Repr

namespace Program

/-- What the generator is asked for. -/
def request (p : Program) (options : CompileOptions) : Except SlotError Request := do
  let interface ← (p.interface options.target).assignSlots
  return { interface, program := p, optLevel := options.optLevel }

end Program

namespace Request

/-- Finish the code of a generator, whose name goes into the message if it failed. -/
def complete (r : Request) (generator : Text) (answer : Except Failure Generated) :
    Except Diagnostic CompiledProgram :=
  match answer with
  | .error failure =>
    .error ((Diagnostic.bare failure.message).withNote ("code generator: " ++ generator))
  | .ok g =>
    if g.code.length % 8 != 0 then
      .error (.bare ("code generator returned " ++ Text.decimal g.code.length ++
        " bytes, not a whole number of 64-bit instructions"))
    else .ok {
      program := r.program
      interface := r.interface
      rawCode := g.code
      code := Code.finish g.code.toWords64
      numGprs := g.numGprs
      threadScratch := g.threadScratch
      numBarriers := g.numBarriers
      constants := g.constants
      params := r.program.stageParams g }

end Request

namespace Program

/-- Compile a program that has been read. -/
def compile (p : Program) (generator : Generator) (options : CompileOptions) :
    Except CompileError CompiledProgram :=
  match p.request options with
  | .error reason => .error (.unassignable reason)
  | .ok request =>
    match request.complete generator.name (generator.generate request) with
    | .error diagnostic => .error (.rejected [diagnostic])
    | .ok compiled => .ok compiled

end Program

/-- Compile a source for a stage. -/
def compileSource (source : Text) (stage : Stage) (generator : Generator)
    (options : CompileOptions) : Except CompileError CompiledProgram :=
  match Program.ofSource source stage with
  | .error diagnostics => .error (.rejected diagnostics)
  | .ok p => p.compile generator options

end ShaderBackend
