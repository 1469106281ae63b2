import ShaderBackend.Diagnostic
import ShaderBackend.Files.Access
import ShaderBackend.Text.Utf8

/-!
What a run of the program writes, and how it ends. A run is a computation that adds to the two
streams and can be given up, which keeps what was written before.
-/

namespace ShaderBackend.CommandLine

/-- What is on the two streams. -/
structure Report where
  output : Bytes := []
  errors : Bytes := []
  deriving DecidableEq, Repr

/-- A run that is done, with its exit code. -/
structure Outcome where
  exitCode : Nat
  output : Bytes := []
  errors : Bytes := []
  deriving DecidableEq, Repr

/-- The run has been given up. -/
inductive GivenUp where
  | mk

abbrev Session (m : Type → Type) := ExceptT GivenUp (StateT Report m)

variable {m : Type → Type} [Monad m]

namespace Session

def print (t : Text) : Session m Unit :=
  modify fun r => { r with output := r.output ++ Text.toUtf8 t }

def printError (t : Text) : Session m Unit :=
  modify fun r => { r with errors := r.errors ++ Text.toUtf8 t }

def giveUp {α : Type} : Session m α :=
  throw .mk

/-- Report an error and give up. -/
def fail {α : Type} (message : Text) : Session m α := do
  printError message
  giveUp

/-- Run to the end; a run that was given up has exit code 1. -/
def run (s : Session m Unit) : m Outcome := do
  let (result, report) ← StateT.run (ExceptT.run s) {}
  let exitCode := match result with
    | .ok () => 0
    | .error _ => 1
  return { exitCode, output := report.output, errors := report.errors }

variable [FileAccess m]

/-- The contents of a file that is needed. -/
def read (path : Text) : Session m Bytes := do
  match ← (readFile path : m (Except FileFault Bytes)) with
  | .ok bytes => return bytes
  | .error fault => fail ("error: cannot read '" ++ path ++ "': " ++ fault.message ++ "\n")

/-- Write to a file, or to one of the two streams if the path stands for it. -/
def write (path : Text) (bytes : Bytes) : Session m Unit := do
  match streamOfPath? path with
  | some 1 => modify fun r => { r with output := r.output ++ bytes }
  | some 2 => modify fun r => { r with errors := r.errors ++ bytes }
  | _ =>
    match ← (writeFile path bytes : m (Except FileFault Unit)) with
    | .ok () => return
    | .error fault => fail ("error: cannot write '" ++ path ++ "': " ++ fault.message ++ "\n")

end Session

/-- The line and column of a byte of a text, both from one. -/
def position : Nat → Text → Nat × Nat → Nat × Nat
  | 0, _, place => place
  | _, [], place => place
  | offset, c :: rest, (line, column) =>
    position (offset - c.utf8Size) rest (if c = '\n' then (line + 1, 1) else (line, column + 1))

/-- A diagnostic about a source. One that points at a part of it names the line and column. -/
def renderDiagnostic (file source : Text) (d : Diagnostic) : Text :=
  if d.span.isDummy then d.plain
  else
    let (line, column) := position d.span.start source (1, 1)
    let kind : Text := if d.isError then "Error" else "Warning"
    Text.unlines <|
      (kind ++ ": " ++ d.message) ::
        ("   at " ++ file ++ ":" ++ Text.decimal line ++ ":" ++ Text.decimal column) ::
        d.notes.map ("   Note: ".toList ++ ·) ++ d.help.toList.map ("   Help: ".toList ++ ·)

end ShaderBackend.CommandLine
