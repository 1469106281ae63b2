import ShaderBackend.Shell.Builtin

/-!
Processes that a shell starts. A process has a state of its own but shares the handles, and the
shell goes on when it has ended.
-/

namespace ShaderBackend.Shell

variable {m : Type → Type} [Monad m] [FileSystem m]

def Stop.ending : Stop → Ending
  | ended e => e
  | failed => .code 2
  | leaveFunction status => .code (status % 256)
  | leaveLoop _ | nextRound _ => .code 0

namespace Process

def run (run : Task → Run m Nat) (start : State → State) (action : Run m Nat) : Run m Ending := do
  let before ← get
  set (start before)
  let result ← Run.caught action
  let after ← get
  set { before with
    handles := after.handles, nextProcess := after.nextProcess, pending := after.pending }
  Builtin.receivePending run
  match result with
  | .ok status => return .code (status % 256)
  | .error stop => return stop.ending

/-- Do something, and then what is to be done at the end of the process. -/
def finishing (run : Task → Run m Nat) (action : Run m Nat) : Run m Nat := do
  let result ← Run.caught action
  let ending : Ending := match result with
    | .ok status => .code status
    | .error stop => stop.ending
  match ending, (← get).traps.lookup 0 with
  | .code status, some last =>
    modify fun s => { s with status, loops := 0, traps := s.traps.filter (·.1 != 0) }
    match ← Run.caught (Builtin.runTrap run last) with
    | .error (.ended e) => throw (.ended e)
    | .error .failed => throw .failed
    | _ => return status
  | _, _ => ofExcept result

/-- Do something in a subshell, which does not have the commands for signals and no jobs. -/
def subshell (run : Task → Run m Nat) (action : Run m Nat) : Run m Ending :=
  let start (s : State) : State :=
    { s with
      isSubshell := true
      traps := s.traps.filter (·.2.isEmpty)
      jobs := []
      scriptLine := s.baseLine }
  Process.run run start (finishing run action)

/-- Report the signal that ended a process, and give the status for it. -/
def report (e : Ending) : Run m Nat := do
  Builtin.report e
  return e.status

/-- Go on after a process. The last thing that a process does takes its place. -/
def conclude (isFinal : Bool) (e : Ending) : Run m Nat := do
  if isFinal && (← get).traps.all (·.2.isEmpty) then throw (.ended e) else report e

def written (index : Nat) : Run m Bytes := do
  match (← get).handles[index]? with
  | some (.sink bytes) => return bytes
  | _ => return []

/-- What a command writes, without the line feeds at the end. -/
def capture (run : Task → Run m Nat) (body : Command) : Run m Text := do
  let index ← Run.addHandle (.sink [])
  let ending ← subshell run do
    Run.point 1 index
    run (.command body false true)
  let status ← report ending
  modify fun s => { s with innerStatus := some status }
  let t := (ofBytes (← written index)).filter (· != '\x00')
  return (t.reverse.dropWhile (· == '\n')).reverse

/-- Run commands, each on what the one before it writes. -/
def pipeline (run : Task → Run m Nat) (isTested : Bool) :
    Option Nat → List Command → Run m Nat
  | _, [] => return 0
  | input, [c] => do
    let ending ← subshell run do
      input.forM (Run.point 0)
      run (.command c isTested true)
    report ending
  | input, c :: rest => do
    let index ← Run.addHandle (.sink [])
    let ending ← subshell run do
      input.forM (Run.point 0)
      Run.point 1 index
      run (.command c isTested true)
    let _ ← report ending
    Run.setHandle index (.source (← written index))
    pipeline run isTested (some index) rest

def foregroundSignals : List Nat :=
  [2, 3]

/-- Run a command that is not waited for, on no input. -/
def background (run : Task → Run m Nat) (body : Command) : Run m Unit := do
  let index ← Run.addHandle (.source [])
  let ending ← subshell run do
    Run.point 0 index
    modify fun s => { s with
      traps := foregroundSignals.map (·, []) ++
        s.traps.filter fun t => ! foregroundSignals.contains t.1 }
    run (.command body false true)
  let process := (← get).nextProcess
  Builtin.addJob process ending
  modify fun s => { s with nextProcess := process + 1 }

end Process

end ShaderBackend.Shell
