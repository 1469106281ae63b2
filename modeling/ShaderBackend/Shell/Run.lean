import ShaderBackend.Shell.Start

/-!
Running commands. A command gives a status; what else it does is done to the state of the shell, to
its handles and to files. Each command is run by a runner that has less fuel than the one it was
given.
-/

namespace ShaderBackend.Shell

variable {m : Type → Type} [Monad m] [FileSystem m]

structure Call where
  name : Text
  args : List Text
  /-- Whether functions do not count. -/
  isDirect : Bool := false
  /-- Whether programs are where they usually are. -/
  isUsual : Bool := false

namespace Call

/-- What is left of the arguments that only say how a command is found, and whether programs are
where they usually are. -/
def directArgs : List Text → Option (Bool × List Text)
  | ['-', '-'] :: rest => some (false, rest)
  | ('-' :: c :: letters) :: rest =>
    if (c :: letters).all (· == 'p') then (directArgs rest).map fun (_, args) => (true, args)
    else none
  | args => some (false, args)

def ofFields : Nat → Bool → Bool → List Text → Option Call
  | 0, _, _, _ => none
  | _, _, _, [] => none
  | fuel + 1, isDirect, isUsual, name :: args =>
    if name = "command" then
      match directArgs args with
      | none | some (_, []) => some { name, args, isDirect, isUsual }
      | some (becomesUsual, rest) => ofFields fuel true (isUsual || becomesUsual) rest
    else some { name, args, isDirect, isUsual }

def isSpecial (c : Call) : Bool :=
  ! c.isDirect && Builtin.specialNames.contains c.name

end Call

def declaringNames : List Text :=
  ["export", "readonly", "local", "alias"]

/-- The fields of arguments, of which those that are assignments may be left whole. -/
def expandArgument (capture : Command → Run m Text) (declares : Bool) (w : Word) :
    Run m (List Text) := do
  match declares, assignment? w with
  | true, some (.mk name value) => return [name ++ "=" ++ (← expandValue capture value)]
  | _, _ => expandWords capture [w]

/-- The fields of a simple command, after some that are known. What is assigned to in arguments is
not cut into fields. -/
def expandCall (capture : Command → Run m Text) : List Text → List Word → Run m (List Text)
  | known, [] => return known
  | known, w :: rest => do
    let fields := known ++ (← expandWords capture [w])
    match Call.ofFields (fields.length + 1) false false fields with
    | none => expandCall capture fields rest
    | some c =>
      if c.name = "command" then expandCall capture fields rest
      else
        let declares := declaringNames.contains c.name
        return fields ++ (← rest.mapM (expandArgument capture declares)).flatten

/-- Make assignments, and give them as they are shown. -/
def assignAll (capture : Command → Run m Text) (exports : Bool) :
    List Assignment → Run m (List Text)
  | [] => return []
  | .mk name value :: rest => do
    let t ← expandValue capture value
    Run.assign name t
    if exports then Run.updateVariable name fun v => { v with isExported := true }
    return (name ++ "=" ++ t) :: (← assignAll capture exports rest)

/-- The text in front of a command that is shown. It is read like a document, and taken as it is if
that cannot be done. -/
def traceSign (capture : Command → Run m Text) : Run m Text := do
  let sign := (← Run.value? "PS4").getD []
  let s ← get
  let r : Reader := {
    rest := sign, nextKey := s.nextDocument, aliases := s.aliases
    pushed := if s.endsHere then some .endOfFile else none }
  let expanded ← Run.caught do
    match r.whole with
    | .error e =>
      modify fun s => { s with line := e.line, endsHere := false }
      Run.fail e.message
    | .ok (w, r) =>
      modify fun s => { s with
        documents := r.documents ++ s.documents
        nextDocument := r.nextKey
        endsHere := r.pushed.isSome
        isTracing := true }
      expandDocument capture w
  modify fun s => { s with isTracing := false }
  match expanded with
  | .ok t => return t
  | .error .failed => return sign
  | .error stop => throw stop

/-- Show a command before it runs, where errors went before. -/
def trace (capture : Command → Run m Text) (errors : Option Nat) (fields : List Text) :
    Run m Unit := do
  let s ← get
  if s.has .trace && ! s.isTracing then
    Run.keeping [2] do
      errors.forM (Run.point 2)
      let sign ← traceSign capture
      Run.printError (sign ++ List.intercalate " " fields ++ "\n")

section

variable (run : Task → Run m Nat)

def callLimit : Nat := 1000

def callFunction (body : Command) (args : List Text) (isTested : Bool) : Run m Nat := do
  let before ← get
  if before.frames.length ≥ callLimit then
    Run.fail ("Maximum function recursion depth (" ++ Text.decimal callLimit ++ ") reached")
  set { before with args, frames := {} :: before.frames, loops := 0, optionPlace := {} }
  let result ← Run.caught (run (.command body isTested false))
  let frame := (← get).frames.headD {}
  frame.saved.forM fun (name, old) => Run.restoreVariable name old
  modify fun s => { s with
    args := before.args
    frames := before.frames
    loops := before.loops
    options := frame.options.getD s.options
    optionPlace := before.optionPlace }
  match result with
  | .ok status | .error (.leaveFunction status) => return status
  | .error stop => throw stop

def runBuiltin (name : Text) (isSpecial : Bool) (action : Run m Nat) : Run m Nat := do
  let before := (← get).command
  modify fun s => { s with command := some name }
  let result ← Run.caught action
  modify fun s => { s with command := before }
  let status ← match result with
    | .ok status => pure status
    | .error .failed => if isSpecial then throw .failed else pure 2
    | .error stop => throw stop
  modify fun s => { s with status }
  Builtin.receivePending run
  return status

def builtin? (isTested : Bool) (name : Text) : Option (List Text → Run m Nat) :=
  if name = "exec" then some (exec run) else Builtin.find? run isTested name

def invoke (c : Call) (isTested isFinal : Bool) : Run m Nat := do
  let functions := (← get).functions
  match if c.isDirect || c.isSpecial then none else functions.lookup c.name with
  | some body => callFunction run body c.args isTested
  | none =>
    match builtin? run isTested c.name with
    | some action => runBuiltin run c.name c.isSpecial (action c.args)
    | none =>
      match ← locateProgram c.name c.isUsual with
      | .ok p => Process.conclude isFinal (← runProgram run p c.name c.args)
      | .error status => return status

/-- Run a simple command: its words, its redirections, its assignments, and then what it names. -/
def runSimple (assignments : List Assignment) (words : List Word) (redirects : List Redirect)
    (isTested isFinal : Bool) : Run m Nat := do
  let capture := Process.capture run
  modify fun s => { s with innerStatus := none }
  let fields ← expandCall capture [] words
  let openings ← redirects.mapM (Opening.ofRedirect capture)
  let before ← get
  let errors := before.descriptors.lookup 2
  let call := Call.ofFields (fields.length + 1) false false fields
  let isSpecial := match call with
    | some c => c.isSpecial
    | none => false
  let isExec := match call with
    | some c => c.name = "exec"
    | none => false
  Run.keeping (if isExec then [] else openings.map (·.1)) do
    if ! (← Opening.applyAll (Process.capture run) openings) then
      if isSpecial then throw .failed else return 2
    else
      match call with
      | none =>
        let shown ← assignAll capture false assignments
        trace capture errors shown
        return ((← get).innerStatus).getD 0
      | some c =>
        let shown ← assignAll capture (! isSpecial || (isExec && fields.length > 1)) assignments
        trace capture errors (shown ++ fields)
        let result ← Run.caught (invoke run c isTested isFinal)
        if ! isSpecial then
          assignments.forM fun (.mk name _) =>
            Run.restoreVariable name (before.bindings.lookup name)
        ofExcept result

inductive Round where
  | ended (status : Nat)
  | skipped
  | left

def runRound (c : Command) (isTested : Bool) : Run m Round := do
  match ← Run.caught (run (.command c isTested false)) with
  | .ok status => return .ended status
  | .error (.leaveLoop n) => if n ≤ 1 then return .left else throw (.leaveLoop (n - 1))
  | .error (.nextRound n) => if n ≤ 1 then return .skipped else throw (.nextRound (n - 1))
  | .error stop => throw stop

def inLoop (action : Run m Nat) : Run m Nat := do
  let before := (← get).loops
  modify fun s => { s with loops := before + 1 }
  let result ← Run.caught action
  modify fun s => { s with loops := before }
  ofExcept result

def matchesAny (subject : Text) : List Word → Run m Bool
  | [] => return false
  | w :: rest => do
    if (← expandPattern (Process.capture run) w).isMatch subject then return true
    else matchesAny subject rest

def runArms (subject : Text) (isTested isFinal : Bool) : List Arm → Run m Nat
  | [] => return 0
  | .mk patterns body :: rest => do
    if ← matchesAny run subject patterns then run (.command body isTested isFinal)
    else runArms subject isTested isFinal rest

/-- A status that ends the shell if it was told to end at a failure which nothing asks about. -/
def checked (isTested : Bool) (action : Run m Nat) : Run m Nat := do
  let status ← action
  modify fun s => { s with status }
  if status ≠ 0 ∧ ! isTested ∧ (← get).has .exitOnError then throw (.ended (.code status))
  else return status

/-- Remember where the program of a command is, if its name is plain to see. -/
def rememberProgram : Command → Run m Unit
  | .simple _ _ (w :: _) _ => do
    let s ← get
    match literal? w with
    | some name =>
      let isOther := Builtin.specialNames.contains name || Builtin.builtinNames.contains name ||
        s.functions.any (·.1 == name)
      if isName name && ! isOther then
        let _ ← findProgram name
    | none => return
  | _ => return

def atLine (line : Nat) : Run m Unit :=
  modify fun s => { s with line }

def runCommand (isTested isFinal : Bool) : Command → Run m Nat
  | .nothing => return 0
  | .simple line assignments words redirects => checked isTested do
    atLine line
    runSimple run assignments words redirects isTested isFinal
  | .redirected line body redirects => do
    atLine line
    let openings ← redirects.mapM (Opening.ofRedirect (Process.capture run))
    Run.keeping (openings.map (·.1)) do
      if ← Opening.applyAll (Process.capture run) openings then run (.command body isTested false)
      else checked isTested (return 2)
  | .subshell line body redirects => checked isTested do
    atLine line
    let openings ← redirects.mapM (Opening.ofRedirect (Process.capture run))
    let ending ← Process.subshell run do
      if ← Opening.applyAll (Process.capture run) openings then run (.command body isTested true)
      else throw .failed
    Process.conclude isFinal ending
  | .sequence first second => do
    let _ ← run (.command first isTested false)
    run (.command second isTested isFinal)
  | .both first second => do
    let status ← run (.command first true false)
    if status = 0 then run (.command second isTested isFinal) else return status
  | .either first second => do
    let status ← run (.command first true false)
    if status = 0 then return status else run (.command second isTested isFinal)
  | .negation body => do
    let status ← run (.command body true false)
    return if status = 0 then 1 else 0
  | .pipeline commands => checked isTested do
    commands.forM rememberProgram
    Process.pipeline run isTested none commands
  | .background body => do
    Process.background run body
    return 0
  | .branch condition yes no => do
    let status ← run (.command condition true false)
    run (.command (if status = 0 then yes else no) isTested isFinal)
  | .loop whileFailing condition body =>
    inLoop (run (.rounds whileFailing condition body isTested 0))
  | .each line name words body => do
    atLine line
    let fields ← expandWords (Process.capture run) words
    inLoop (run (.roundsOver name fields body isTested 0))
  | .choice line subject arms => do
    atLine line
    runArms run (← expandWhole (Process.capture run) subject) isTested isFinal arms
  | .definition name body => do
    modify fun s => { s with functions := (name, body) :: s.functions.filter (·.1 != name) }
    return 0

def showLines (r : Reader) (lines : Text) : Run m Unit := do
  if r.isFile && (← get).has .verbose then Run.printError lines

def firstLines : Nat → Text → Text
  | 0, _ => []
  | _, [] => []
  | count + 1, c :: rest => c :: firstLines (if c == '\n' then count else count + 1) rest

/-- Take more of a script from the input, if there is nothing left of it. -/
def takeScript (r : Reader) : Run m Reader := do
  if r.isInput && r.rest.isEmpty then
    match ← Utility.takeInput with
    | .ok bytes => return { r with rest := scriptOf bytes }
    | .error _ => return r
  else return r

/-- Run the lines of a script, of which each is read when those before it have run. -/
def runLines (r : Reader) (isTested : Bool) (status : Nat) : Run m Nat := do
  let r ← takeScript r
  let s ← get
  let r := { r with nextKey := max r.nextKey s.nextDocument, documents := [], aliases := s.aliases }
  match r.next with
  | .error e =>
    showLines r (firstLines (e.line - r.line + 1) r.rest)
    atLine e.line
    Run.fail e.message
  | .ok l =>
    showLines r (r.rest.take (r.rest.length - l.reader.rest.length))
    modify fun s => { s with
      documents := l.reader.documents ++ s.documents
      nextDocument := l.reader.nextKey
      scriptLine := l.reader.line
      baseLine := if r.isBase then l.reader.line else s.baseLine
      endsHere := l.isLast }
    let status ← match l.body with
      | .nothing => pure status
      | body => run (.command body isTested false)
    if l.isLast then
      modify fun s => { s with endsHere := true }
      return status
    else run (.script l.reader isTested status)

/-- Do what is asked for, with a runner for all that is inside it. -/
def step : Task → Run m Nat
  | .command c isTested isFinal => do
    if (← get).has .noExecution then return 0
    let status ← runCommand run isTested isFinal c
    modify fun s => { s with status }
    return status
  | .script r isTested status => runLines run r isTested status
  | .rounds whileFailing condition body isTested status => do
    match ← runRound run condition true with
    | .left => return status
    | .skipped => run (.rounds whileFailing condition body isTested status)
    | .ended n =>
      if (n == 0) == whileFailing then return status
      else
        match ← runRound run body isTested with
        | .left => return 0
        | .skipped => run (.rounds whileFailing condition body isTested 0)
        | .ended n => run (.rounds whileFailing condition body isTested n)
  | .roundsOver _ [] _ _ status => return status
  | .roundsOver name (value :: rest) body isTested _ => do
    Run.assign name value
    match ← runRound run body isTested with
    | .left => return 0
    | .skipped => run (.roundsOver name rest body isTested 0)
    | .ended n => run (.roundsOver name rest body isTested n)

end

/-- Run what is asked for, with commands nested at most as deep as the fuel. -/
def runTask : Nat → Task → Run m Nat
  | 0, _ => Run.fail "too deep"
  | fuel + 1, t => step (runTask fuel) t

/-- How deep commands are nested, and how often loops go round. -/
def depthLimit : Nat := 1000000000000

def initialState (directory : Text) (input : Bytes) : State :=
  let passed (t : Text) : Variable := { value := some t, isExported := true }
  { name := []
    bindings := [("PATH", passed defaultPath), ("HOME", passed "/root"), ("PWD", passed directory)]
    directory
    handles := #[.source input, .sink [], .sink []]
    descriptors := [(0, 0), (1, 1), (2, 2)]
    process := 1
    nextProcess := 2 }

def launch (command : Text) (args : List Text) (input : Bytes) :
    m (Except FileFault ProcessOutcome) := do
  let bytes (t : Text) : Text := ofBytes (Text.toUtf8 t)
  match ← Program.locate command with
  | .error fault => return .error fault
  | .ok p =>
    let run : Run m Ending := runProgram (runTask depthLimit) p (bytes command) (args.map bytes)
    let (result, final) ← run.run.run (initialState (← currentDirectory) input)
    let ending := match result with
      | .ok e => e
      | .error stop => stop.ending
    let written (index : Nat) : Bytes := match final.handles[index]? with
      | some (.sink bytes) => bytes
      | _ => []
    return .ok { ending, output := written 1, errors := written 2 }

/-- Where files can be reached, the programs that work on them can be run. -/
instance : ProcessAccess m where
  runProcess := launch

end ShaderBackend.Shell
