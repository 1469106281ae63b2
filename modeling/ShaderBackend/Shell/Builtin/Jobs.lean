import ShaderBackend.Shell.Builtin.Basic
import ShaderBackend.Shell.Signal

/-!
The commands about processes and signals. A process in the background has ended before the shell
goes on, but the shell does not know of it until it waits.
-/

namespace ShaderBackend.Shell.Builtin

variable {m : Type → Type} [Monad m] [FileSystem m]

def runTrap (run : Task → Run m Nat) (action : Text) : Run m Unit := do
  let status := (← get).status
  let _ ← runInside run (← reader action false) false status
  modify fun s => { s with status }

/-- What is to be done at a signal, if it is not up to the system. -/
def trapFor? (s : State) (n : Nat) : Option Text :=
  if n = 9 then none else s.traps.lookup n

def isFatal (s : State) (n : Nat) : Bool :=
  (trapFor? s n).isNone && ! Signal.harmless.contains n

/-- Do what the signals do that have come for this shell. Each is seen once, and those with lower
numbers first. -/
def receivePending (run : Task → Run m Nat) : Run m Unit := do
  let s ← get
  let (own, others) := s.pending.partition (·.1 == s.process)
  if ! s.isSubshell && ! own.isEmpty then
    let signals := own.map (·.2)
    set { s with pending := others }
    match signals.find? (isFatal s) with
    | some n => throw (.ended (.signal n))
    | none =>
      (signals.eraseDups.mergeSort (· ≤ ·)).forM fun n => do
        match trapFor? (← get) n with
        | none | some [] => return
        | some action => runTrap run action

/-- Send a signal to a process. A shell sees it when it goes on, unless it ends at once. -/
def sendSignal (n process : Nat) : Run m Nat := do
  let s ← get
  if process = s.process && ! s.isSubshell && isFatal s n then throw (.ended (.signal n))
  else if process = s.process ∨ s.ancestors.contains process then
    set { s with pending := s.pending ++ [(process, n)] }
    return 0
  else if s.jobs.any fun j => j.process == process && ! j.isWaited then return 0
  else
    Run.complain "No such process\n"
    return 1

/-- The job that a text stands for: the last one, the one before, or that of a number. -/
def job (t : Text) : Run m Job := do
  let jobs := (← get).jobs
  let orFail (found : Option Job) (what : Text) : Run m Job :=
    match found with
    | some j => return j
    | none => Run.fail what
  if t = "%" ∨ t = "%+" ∨ t = "%%" then orFail jobs.head? "No current job"
  else if t = "%-" then orFail jobs[1]? "No previous job"
  else
    let found := match t with
      | '%' :: digits =>
        if digits.all Char.isDigit then
          (Text.readNumber? 10 digits).bind fun n => jobs.find? (·.number == n)
        else none
      | _ => none
    orFail found ("No such job: " ++ t)

def refuseControl {α : Type} (t : Text) : Run m α := do
  let _ ← job t
  Run.fail ("job " ++ t ++ " not created under job control")

def resume (args : List Text) : Run m Nat := do
  match ← plainArguments args with
  | [] =>
    if (← get).jobs.isEmpty then Run.fail "No current job"
    else Run.fail "job (null) not created under job control"
  | t :: _ => refuseControl t

def killUsage : Text :=
  "Usage: kill [-s sigspec | -signum | -sigspec] [pid | job]... or\nkill -l [exitstatus]"

/-- Show the signal of a number or of a status, or all of them. -/
def listSignals : List Text → Run m Nat
  | [] =>
    let names := (List.range Signal.last).map fun n => Signal.name (n + 1)
    put "kill" (Text.unlines ("0".toList :: names))
  | t :: _ => do
    let status ← Run.count t
    let n := if 128 < status then status - 128 else status
    if n = 0 ∨ Signal.last < n then
      Run.fail ("invalid signal number or exit status: " ++ t)
    else put "kill" (Signal.name n ++ "\n")

/-- A signal that can be sent, by its name or number. -/
def signalToSend? (t : Text) : Option Nat :=
  if Signal.upper t = "EXIT" then none else Signal.find? t

def killOne (n : Nat) (t : Text) : Run m Nat := do
  let refuse : Run m Nat := do
    Run.complain "No such process\n"
    return 1
  match t with
  | '%' :: _ =>
    let _ ← job t
    refuse
  | '-' :: group =>
    let process ← Run.count group
    if process = 0 then sendSignal n (← get).process else refuse
  | _ => sendSignal n (← Run.count t)

def kill (args : List Text) : Run m Nat := do
  let usage {α : Type} : Run m α := Run.fail killUsage
  let send (n : Nat) (processes : List Text) : Run m Nat := do
    if processes.isEmpty then usage else forEach processes (killOne n)
  match args with
  | [] => usage
  | ('-' :: t) :: rest =>
    match signalToSend? t with
    | some n => send n rest
    | none =>
      let (options, rest) ← readOptions "l" "s" args
      let named ← (options.filter (·.1 == 's')).mapM fun (_, name) => do
        match signalToSend? name with
        | some n => pure n
        | none => Run.fail ("invalid signal number or name: " ++ name)
      match options.any (·.1 == 'l'), named.getLast? with
      | true, none => listSignals rest
      | true, some _ => usage
      | false, n => send (n.getD 15) rest
  | _ => send 15 args

def shownTraps : Run m Text := do
  let traps := (← get).traps.mergeSort fun a b => a.1 ≤ b.1
  return traps.flatMap fun (n, action) =>
    "trap -- " ++ singleQuoted action ++ " " ++ Signal.name n ++ "\n"

/-- Set what is done at signals, up to one that is not known. -/
def setTraps (action : Option Text) : List Text → Run m Nat
  | [] => return 0
  | name :: rest => do
    match Signal.find? name with
    | some n =>
      modify fun s => { s with
        traps := (action.map fun a => (n, a)).toList ++ s.traps.filter (·.1 != n) }
      setTraps action rest
    | none =>
      Run.printError ("trap: " ++ name ++ ": bad trap\n")
      return 1

def trap (args : List Text) : Run m Nat := do
  match ← plainArguments args with
  | [] => put "trap" (← shownTraps)
  | [name] => setTraps none [name]
  | first :: rest =>
    if ! first.isEmpty && first.all Char.isDigit && (Signal.find? first).isSome then
      setTraps none (first :: rest)
    else setTraps (if first = "-" then none else some first) rest

def markWaited (isMeant : Job → Bool) : Run m Unit :=
  modify fun s => { s with
    jobs := s.jobs.map fun j => if isMeant j then { j with isWaited := true } else j }

def report : Ending → Run m Unit
  | .code _ => return
  | .signal n => (Signal.text? n).forM fun t => Run.printError (t ++ "\n")

def waitFor (t : Text) : Run m Nat := do
  let found ← if t.head? == some '%' then some <$> job t else do
    let n ← Run.count t
    pure ((← get).jobs.find? (·.process == n))
  match found with
  | none => return 127
  | some j =>
    if ! j.isWaited then report j.ending
    markWaited (·.number == j.number)
    return j.ending.status

def wait (args : List Text) : Run m Nat := do
  match ← plainArguments args with
  | [] =>
    markWaited fun _ => true
    return 0
  | names => return (← names.mapM waitFor).getLastD 0

def shownJob (jobs : List Job) (j : Job) (withProcess : Bool) : Text :=
  let mark : Text := if jobs.head?.any (·.number == j.number) then "+"
    else if jobs[1]?.any (·.number == j.number) then "-" else " "
  let state : Text := if ! j.isWaited then "Running"
    else
      match j.ending with
      | .code 0 => "Done"
      | .code n => "Done(" ++ Text.decimal n ++ ")"
      | .signal n => (Signal.text? n).getD []
  let process : Text := if withProcess then Text.decimal j.process ++ " " else []
  let start := "[" ++ Text.decimal j.number ++ "] " ++ mark ++ " " ++ process ++ state
  start ++ List.replicate (max 1 (33 - start.length)) ' ' ++ "\n"

/-- Show a job, which is then forgotten if it is known to have ended. -/
def showJob (withProcess : Bool) (j : Job) : Run m Nat := do
  let jobs := (← get).jobs
  if j.isWaited then
    modify fun s => { s with jobs := s.jobs.filter (·.number != j.number) }
  put "jobs" (shownJob jobs j withProcess)

def showJobs (args : List Text) : Run m Nat := do
  let (options, names) ← readOptions "lp" [] args
  let jobs := (← get).jobs
  let meant ← if names.isEmpty then pure jobs else names.mapM job
  if (options.getLast?.map (·.1)) == some 'p' then
    put "jobs" (meant.flatMap fun j => Text.decimal j.process ++ "\n")
  else return (← meant.mapM (showJob (options.any (·.1 == 'l')))).foldl max 0

/-- Note a process in the background. The numbers of jobs that have been waited for are used
again. -/
def addJob (process : Nat) (ending : Ending) : Run m Unit :=
  modify fun s =>
    let isFree (n : Nat) : Bool := ! s.jobs.any fun j => j.number == n && ! j.isWaited
    let number := (((List.range (s.jobs.length + 1)).map (· + 1)).find? isFree).getD 1
    { s with
      lastProcess := some process
      jobs := { number, process, ending } :: s.jobs.filter (·.number != number) }

end ShaderBackend.Shell.Builtin
