import ShaderBackend.CommandLine.Arguments
import ShaderBackend.CommandLine.Report
import ShaderBackend.Compile.Basic
import ShaderBackend.Files.Extension
import ShaderBackend.Generator.Process
import ShaderBackend.Module.Hash
import ShaderBackend.Target

/-!
Compiling a file to a module.
-/

namespace ShaderBackend

/-- Write a module to a file. -/
def Module.write {m : Type → Type} [Monad m] [FileAccess m] (built : Module) (path : Text) :
    m (Except Diagnostic Unit) := do
  match ← writeFile path built.toBytes with
  | .ok () => return .ok ()
  | .error fault => return .error (.bare ("cannot write '" ++ path ++ "': " ++ fault.message))

namespace CommandLine

variable {m : Type → Type} [Monad m] [FileAccess m]

def noGenerator (target : Target) : Diagnostic :=
  (Diagnostic.bare ("no code generator configured for target '" ++ target.name ++ "'")).withHelp
    ("pass --codegen <command> or set [codegen] command in targets/" ++ target.name ++ ".toml")

/-- The generator that the arguments name, or else the target. -/
def generatorFor (arguments : BuildArguments) (target : Target) : Option GeneratorCommand :=
  (arguments.generator.orElse fun _ => target.generator).bind GeneratorCommand.ofLine?

/-- Report diagnostics about a source and give up. -/
def reject {α : Type} (file source : Text) (diagnostics : List Diagnostic) : Session m α := do
  diagnostics.forM fun d => Session.printError (renderDiagnostic file source d)
  Session.giveUp

variable [ProcessAccess m]

/-- Compile a program with a generator that is run as a process. -/
def compileWith (generator : GeneratorCommand) (file source : Text) (p : Program)
    (options : CompileOptions) : Session m CompiledProgram := do
  match p.request options with
  | .error reason => Session.fail ("error: " ++ reason.message ++ "\n")
  | .ok request =>
    let answer ← (generator.generate request : m (Except Failure Generated))
    match request.complete generator.command answer with
    | .error diagnostic => reject file source [diagnostic]
    | .ok compiled => return compiled

def build (a : BuildArguments) : Session m Unit := do
  let target ← match ← (Target.resolve a.target : m (Except Diagnostic Target)) with
    | .ok target => pure target
    | .error d => Session.fail d.plain
  let generator ← match generatorFor a target with
    | some generator => pure generator
    | none => Session.fail (noGenerator target).plain
  let source := Text.ofUtf8Lossy (← Session.read a.input)
  let program ← match Program.ofSource source a.stage with
    | .ok p => pure p
    | .error ds => reject a.input source ds
  if let some path := a.tokens then
    Session.write path program.render.toUtf8
    Session.printError
      ("Tokens -> " ++ path ++ " (" ++ Text.decimal program.tokenCount ++ " tokens)\n")
  let options : CompileOptions := { target := target.revision, optLevel := a.optLevel }
  let compiled ← compileWith generator a.input source program options
  if a.slots then Session.print compiled.interface.slotTable
  if let some path := a.raw then
    Session.write path compiled.rawCode
    Session.printError
      ("Raw code -> " ++ path ++ " (" ++ Text.decimal compiled.rawCode.length ++ " bytes)\n")
  let built := compiled.toModule
  let path := a.output.getD (FileName.withExtension a.input "dksh")
  Session.write path built.toBytes
  Session.printError
    ("Compiled -> " ++ path ++ " (" ++ target.name ++ " " ++ compiled.stage.mnemonic ++
      " program, " ++ Text.decimal compiled.code.length ++ " instructions, " ++
      Text.decimal compiled.numGprs.toNat ++ " GPRs)\n")
  Session.printError ("Hash: " ++ built.hash.label ++ "\n")

end CommandLine

end ShaderBackend
