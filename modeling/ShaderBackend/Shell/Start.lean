import ShaderBackend.Shell.Process
import ShaderBackend.Shell.Program
import ShaderBackend.Shell.Redirection

/-!
Starting shells and other programs. A new shell reads its options, and then a script from its
arguments, from a file or from its input.
-/

namespace ShaderBackend.Shell

variable {m : Type → Type} [Monad m] [FileSystem m]

structure Start where
  takesScript : Bool := false
  args : List Text := []

namespace Start

def readOptions : Nat → Start → List Text → Run m Start
  | 0, start, args => return { start with args }
  | _, start, [] => return start
  | fuel + 1, start, arg :: rest => do
    let goOn (on : Bool) (letters : Text) : Run m Start := do
      let rest ← Builtin.setLetters on (letters.filter fun c => c != 'c' && c != 'l') rest
      readOptions fuel
        { start with takesScript := start.takesScript || letters.contains 'c' } rest
    match arg with
    | ['-', '-'] | ['-'] => return { start with args := rest }
    | '-' :: letters => goOn true letters
    | '+' :: letters => goOn false letters
    | _ => return { start with args := arg :: rest }

/-- Read what a shell is started with. One that is told nothing reads its input, and one that is
asked to talk to its user would control jobs. -/
def read (args : List Text) : Run m Start := do
  let start ← readOptions (args.length + 1) {} args
  if start.args.isEmpty then
    if start.takesScript then Run.fail "-c requires an argument"
    modify fun s => { s with options := s.options.turn .readsInput true }
  if (← get).has .interactive then
    modify fun s => { s with options := s.options.turn .jobControl true }
  return start

end Start

def usualBindings (parent : Nat) : List (Text × Variable) :=
  let plain (t : Text) : Variable := { value := some t }
  [("OPTIND", plain "1"), ("PS1", plain "# "), ("PS2", plain "> "), ("PS4", plain "+ "),
    ("IFS", plain " \t\n"), ("PPID", plain (Text.decimal parent))]

/-- Variables that are passed to a shell, and those it has anyway. What separates fields and how far
options have been taken is not passed on. -/
def startBindings (parent : Nat) (passed : List (Text × Variable)) : List (Text × Variable) :=
  let usual := usualBindings parent
  let isReset (name : Text) : Bool := name = "OPTIND" || name = "IFS" || name = "PPID"
  let kept := passed.map fun (name, v) =>
    let value := if isReset name then (usual.lookup name).bind (·.value) else v.value
    (name, { v with value })
  kept ++ usual.filter fun (name, _) => ! passed.any (·.1 == name)

def newShell (name : Text) (s : State) : State := {
  name
  bindings := startBindings s.process
    ((s.bindings.filter fun (_, v) => v.isExported && v.value.isSome).map fun (name, v) =>
      (name, { v with isFixed := false }))
  line := 0
  directory := s.directory
  mask := s.mask
  limits := s.limits
  handles := s.handles
  descriptors := s.descriptors
  traps := s.traps.filter (·.2.isEmpty)
  process := s.nextProcess
  nextProcess := s.nextProcess + 1
  ancestors := s.process :: s.ancestors
  pending := s.pending }

def programAt (path : Text) : Run m (Except FileFault (Program m)) := do
  (Program.atPath (← Run.resolve path) : m (Except FileFault (Program m)))

/-- Whether there is nothing that could be run. -/
def isNotFound (fault : FileFault) : Bool :=
  fault == .missing || fault == .notDirectory || fault == .nameTooLong

/-- Complain about a program that cannot be run, and give a status for that. -/
def refuseProgram {α : Type} (name : Text) (fault : FileFault) (status : Nat) :
    Run m (Except Nat α) := do
  let reason : Text :=
    if fault == .missing || fault == .notDirectory then "not found" else fault.reason
  Run.complain (name ++ ": " ++ reason)
  return .error status

def locateAt (name path : Text) : Run m (Except Nat (Program m)) := do
  match ← programAt path with
  | .ok p => return .ok p
  | .error fault => refuseProgram name fault (if isNotFound fault then 127 else 126)

/-- Find a program, or say why there is none and give the status for that. -/
def locateProgram (name : Text) (isUsual : Bool) : Run m (Except Nat (Program m)) := do
  if name.contains '/' then locateAt name name
  else
    let found ← if isUsual then searchPath defaultPath name else findProgram name
    match found with
    | .ok path => locateAt name path
    | .error fault => refuseProgram name fault 127

def locateSuccessor (name : Text) : Run m (Except Nat (Program m)) := do
  if name.contains '/' then locateAt name name
  else
    match ← searchPath ((← Run.value? "PATH").getD []) name with
    | .ok path => locateAt name path
    | .error fault => refuseProgram name fault (if isNotFound fault then 127 else 126)

section

variable (run : Task → Run m Nat)

def scriptOf (bytes : Bytes) : Text :=
  (ofBytes bytes).filter (· != '\x00')

def runText (script : Text) (isFile : Bool) : Run m Nat := do
  let r ← Builtin.reader script isFile
  run (.script { r with isBase := isFile } false 0)

def runInput : Run m Nat := do
  let r ← Builtin.reader [] true
  run (.script { r with isBase := true, isInput := true } false 0)

def runFile (path : Text) (args : List Text) : Run m Nat := do
  match ← (readFile (← Run.resolve path) : m (Except FileFault Bytes)) with
  | .ok bytes =>
    modify fun s => { s with name := path, args }
    Builtin.noteOptions
    runText run (scriptOf bytes) true
  | .error .isDirectory => return 0
  | .error fault => Run.fail (Opening.cannotOpen path fault)

def runShell (args : List Text) : Run m Nat := Process.finishing run do
  let start ← Start.read args
  match start.takesScript, start.args with
  | true, script :: rest =>
    modify fun s => { s with name := rest.headD s.name, args := rest.tail }
    Builtin.noteOptions
    let status ← runText run script false
    if (← get).has .readsInput then runInput run else return status
  | _, args =>
    if (← get).has .readsInput then
      modify fun s => { s with args }
      Builtin.noteOptions
      runInput run
    else runFile run (args.headD []) args.tail

def runProgram (p : Program m) (name : Text) (args : List Text) : Run m Ending := do
  match p with
  | .utility action => Process.run run id (action args)
  | .shell => Process.run run (newShell name) (runShell run args)

/-- Replace the shell by a program, so that nothing more is done at its end. -/
def exec : List Text → Run m Nat
  | [] => return 0
  | name :: args => do
    match ← locateSuccessor name with
    | .ok p =>
      modify fun s => { s with traps := s.traps.filter (·.2.isEmpty) }
      throw (.ended (← runProgram run p name args))
    | .error status => throw (.ended (.code status))

end

end ShaderBackend.Shell
