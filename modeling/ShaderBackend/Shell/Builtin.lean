import ShaderBackend.Shell.Builtin.Jobs
import ShaderBackend.Shell.Builtin.Names
import ShaderBackend.Shell.Builtin.Settings

/-!
The commands that are part of the shell. They act on its state; those that run other commands do so
through the runner that is passed in.
-/

namespace ShaderBackend.Shell.Builtin

variable {m : Type → Type} [Monad m] [FileSystem m]

def printf (args : List Text) : Run m Nat := do
  match ← plainArguments args with
  | [] => Run.fail "usage: printf format [arg ...]"
  | template :: args =>
    let f := format template args
    f.complaints.forM fun c => Run.complain c
    f.refusal.forM fun c => Run.complain c
    let status ← put "printf" f.text
    if f.refusal.isSome then throw .failed
    return if f.complaints.isEmpty then status else 1

def exit (args : List Text) : Run m Nat := do
  match args with
  | [] => throw (.ended (.code (← get).status))
  | n :: _ => throw (.ended (.code ((← Run.count n) % 256)))

def returnFrom (args : List Text) : Run m Nat := do
  match args with
  | [] => throw (.leaveFunction (← get).status)
  | n :: _ => throw (.leaveFunction (← Run.count n))

def skipLoops (stop : Nat → Stop) (args : List Text) : Run m Nat := do
  let levels ← match args with
    | [] => pure 1
    | n :: _ => Run.count n
  if args ≠ [] ∧ levels = 0 then Run.fail ("Illegal number: " ++ args.headD [])
  let loops := (← get).loops
  if loops = 0 then return 0 else throw (stop (min levels loops))

/-- Go on from a directory by names, of which two dots lead back. -/
def followNames (start : List Text) (path : Text) : List Text :=
  (List.splitOn '/' path).foldl step start
where
  step (names : List Text) (name : Text) : List Text :=
    if name = [] ∨ name = "." then names
    else if name = ".." then names.dropLast
    else names ++ [name]

/-- The path from one directory to another, without dots in it. Two slashes in front stay. -/
def joinPaths (here path : Text) : Text :=
  match path with
  | '/' :: '/' :: c :: rest =>
    if c == '/' then '/' :: List.intercalate "/" (followNames [] path)
    else "//" ++ List.intercalate "/" (followNames [] (c :: rest))
  | ['/', '/'] => "//"
  | '/' :: _ => '/' :: List.intercalate "/" (followNames [] path)
  | _ =>
    let front : Text := if ("//" : String).toList.isPrefixOf here then "//" else "/"
    front ++ List.intercalate "/" (followNames (followNames [] here) path)

/-- Whether a path is not looked for in other directories. -/
def isExplicit (path : Text) : Bool :=
  match path with
  | '/' :: _ | ['.'] | '.' :: '/' :: _ | ['.', '.'] | '.' :: '.' :: '/' :: _ => true
  | _ => false

/-- The first directory of a name below some others, and whether it is to be shown. -/
def searchDirectory (name : Text) : List Text → Run m (Option (Text × Bool))
  | [] => return none
  | base :: rest => do
    let path := if base.isEmpty then name else base ++ "/" ++ name
    match ← statusOf path with
    | .ok { kind := .directory, .. } => return some (path, ! base.isEmpty)
    | _ => searchDirectory name rest

def enter (path : Text) (isPhysical : Bool) : Run m Bool := do
  let before := (← get).directory
  let place := if isPhysical then path else joinPaths before path
  let resolved ← Run.resolve place
  match ← (fileStatus resolved : m (Except FileFault FileStatus)) with
  | .ok { kind := .directory, .. } =>
    let real ← (realPath resolved : m (Except FileFault Text))
    let directory := match isPhysical, real with
      | true, .ok path => path
      | _, _ => place
    let pass (name value : Text) : Run m Unit := do
      Run.assign name value
      Run.updateVariable name fun v => { v with isExported := true }
    pass "OLDPWD" before
    modify fun s => { s with directory }
    pass "PWD" directory
    return true
  | _ => return false

def changeDirectory (args : List Text) : Run m Nat := do
  let (options, args) ← readOptions "LP" [] args
  let isPhysical := (options.getLast?.map (·.1)) == some 'P'
  let (target, isShown) ← match args with
    | [] => do pure ((← Run.value? "HOME").getD [], false)
    | ['-'] :: _ => do pure ((← Run.value? "OLDPWD").getD [], true)
    | path :: _ => pure (path, false)
  let found ← if isExplicit target then pure none
    else
      let name : Text := if target.isEmpty then "." else target
      searchDirectory name (List.splitOn ':' ((← Run.value? "CDPATH").getD []))
  let (path, fromElsewhere) := found.getD (target, false)
  if ← enter path isPhysical then
    if isShown || fromElsewhere then put "cd" ((← get).directory ++ "\n") else return 0
  else Run.fail ("can't cd to " ++ target)

def showDirectory (args : List Text) : Run m Nat := do
  let (options, _) ← readOptions "LP" [] args
  let here := (← get).directory
  let isPhysical := (options.getLast?.map (·.1)) == some 'P'
  let real ← (realPath here : m (Except FileFault Text))
  let shown := match isPhysical, real with
    | true, .ok path => path
    | _, _ => here
  put "pwd" (shown ++ "\n")

/-- The file of a script: as its path says, or on the search path. -/
def scriptFile (name : Text) : Run m Text := do
  if name.contains '/' then return name
  else
    let directories := List.splitOn ':' ((← Run.value? "PATH").getD [])
    let paths := directories.map fun d => if d.isEmpty then name else d ++ "/" ++ name
    let found ← paths.filterM fun path => do
      match ← statusOf path with
      | .ok { kind := .regular, .. } => return true
      | _ => return false
    match found with
    | path :: _ => return path
    | [] => Run.fail (name ++ ": not found")

def source (run : Task → Run m Nat) (args : List Text) : Run m Nat := do
  match ← plainArguments args with
  | [] => return 0
  | name :: _ =>
    let path ← scriptFile name
    match ← (readFile (← Run.resolve path) : m (Except FileFault Bytes)) with
    | .ok bytes =>
      let r ← reader ((ofBytes bytes).filter (· != '\x00')) true
      modify fun s => { s with command := some path }
      match ← Run.caught (runInside run r false 0) with
      | .ok status => return status
      | .error (.leaveFunction status) => return status
      | .error stop => throw stop
    | .error .isDirectory => return 0
    | .error fault =>
      let reason : Text :=
        if fault == .missing || fault == .notDirectory then "No such file" else fault.reason
      Run.fail ("cannot open " ++ path ++ ": " ++ reason)

/-- The condition of a test, without the bracket that may close it. -/
def test (name : Text) (args : List Text) : Run m Nat := do
  let args ← if name = "[" then
      if args.getLast? == some "]" then pure args.dropLast else Run.fail "missing ]"
    else pure args
  return if ← Condition.holds (args.length + 1) args then 0 else 1

/-- The times that processes have taken, which are not measured. -/
def noTimes : Text :=
  "0m0.000000s 0m0.000000s\n0m0.000000s 0m0.000000s\n"

def find? (run : Task → Run m Nat) (isTested : Bool) (name : Text) :
    Option (List Text → Run m Nat) :=
  if name = ":" ∨ name = "true" then some fun _ => return 0
  else if name = "false" then some fun _ => return 1
  else if name = "echo" then some fun args => put "echo" (echo args true)
  else if name = "printf" then some printf
  else if name = "read" then some read
  else if name = "test" ∨ name = "[" then some (test name)
  else if name = "export" then
    some (declare name (·.isExported) fun v => { v with isExported := true })
  else if name = "readonly" then
    some (declare name (·.isFixed) fun v => { v with isFixed := true })
  else if name = "local" then some declareLocal
  else if name = "unset" then some unset
  else if name = "set" then some setShell
  else if name = "shift" then some shift
  else if name = "exit" then some exit
  else if name = "return" then some returnFrom
  else if name = "break" then some (skipLoops .leaveLoop)
  else if name = "continue" then some (skipLoops .nextRound)
  else if name = "cd" ∨ name = "chdir" then some changeDirectory
  else if name = "pwd" then some showDirectory
  else if name = "kill" then some kill
  else if name = "trap" then some trap
  else if name = "wait" then some wait
  else if name = "jobs" then some showJobs
  else if name = "fg" ∨ name = "bg" then some resume
  else if name = "getopts" then some getopts
  else if name = "type" then some fun args => forEach args fun a => describe a none
  else if name = "hash" then some hash
  else if name = "alias" then some aliasCommand
  else if name = "unalias" then some unalias
  else if name = "command" then some describeCommand
  else if name = "eval" then some fun args => do
    runInside run (← reader (List.intercalate " " args) false) isTested 0
  else if name = "." then some (source run)
  else if name = "umask" then some umask
  else if name = "ulimit" then some ulimit
  else if name = "times" then some fun _ => put "times" noTimes
  else none

end ShaderBackend.Shell.Builtin
