import ShaderBackend.Files.System
import ShaderBackend.Process
import ShaderBackend.Shell.Flag
import ShaderBackend.Shell.Reader
import ShaderBackend.Text.Utf8

/-!
A running shell. Descriptors lead to handles, which are shared: a subshell has descriptors and
variables of its own, but what it reads and writes has been read and written for all. Files are seen
only through `FileSystem`, so that a run is determined by the files it starts with.
-/

namespace ShaderBackend

def Ending.status : Ending → Nat
  | code n => n
  | signal n => 128 + n

namespace Shell

def ofBytes (b : Bytes) : Text :=
  b.map fun b => Char.ofNat b.toNat

def toBytes (t : Text) : Bytes :=
  t.map fun c => UInt8.ofNat c.toNat

structure Variable where
  value : Option Text := none
  isExported : Bool := false
  isFixed : Bool := false
  deriving DecidableEq, Repr

structure Access where
  reads : Bool := false
  writes : Bool := false
  /-- What is written goes to the end. -/
  appends : Bool := false
  deriving DecidableEq, Repr

inductive Handle where
  /-- The end of a pipe from which bytes come. -/
  | source (bytes : Bytes)
  /-- A place that keeps what is written to it. -/
  | sink (bytes : Bytes)
  | file (path : Text) (position : Nat) (access : Access)
  /-- A file of which no bytes are kept. -/
  | device (path : Text) (access : Access)
  | directory
  deriving DecidableEq, Repr

/-- A limit on what processes may use: what holds, and what can be set at most. -/
structure Limit where
  soft : Option Nat := none
  hard : Option Nat := none
  deriving DecidableEq, Repr

/-- What a running function has made its own, as it was before. -/
structure Frame where
  saved : List (Text × Option Variable) := []
  options : Option Options := none

structure Job where
  number : Nat
  process : Nat
  ending : Ending
  /-- Whether its ending has been asked for. -/
  isWaited : Bool := false
  deriving DecidableEq, Repr

structure OptionPlace where
  /-- The next argument, from one on. -/
  index : Nat := 1
  /-- The place in the argument before it. -/
  offset : Option Nat := none
  deriving DecidableEq, Repr

/-- Why a shell does not go on with the next command. -/
inductive Stop where
  /-- The process has ended. -/
  | ended (e : Ending)
  /-- A fault that ends the shell, unless it is that of a command which may fail. -/
  | failed
  | leaveLoop (levels : Nat)
  | nextRound (levels : Nat)
  | leaveFunction (status : Nat)
  deriving DecidableEq, Repr

structure State where
  name : Text
  args : List Text := []
  bindings : List (Text × Variable) := []
  functions : List (Text × Command) := []
  /-- Other texts that commands stand for. -/
  aliases : List (Text × Text) := []
  /-- The programs that have been found, with their paths. -/
  found : List (Text × Text) := []
  frames : List Frame := []
  options : Options := {}
  status : Nat := 0
  /-- How the last command whose output was taken ended. -/
  innerStatus : Option Nat := none
  /-- Whether the end of the script came with the line that is running. -/
  endsHere : Bool := false
  /-- Whether the text in front of a command that is shown is being worked out. -/
  isTracing : Bool := false
  line : Nat := 1
  /-- The line that the script has been read up to. -/
  scriptLine : Nat := 1
  /-- The line that the file has been read up to that the shell was started with. -/
  baseLine : Nat := 1
  /-- The command of the shell itself that is running. -/
  command : Option Text := none
  /-- The directory that paths start from. -/
  directory : Text
  optionPlace : OptionPlace := {}
  /-- What others may not do with files that are made. -/
  mask : Nat := 0o022
  /-- What was set instead of the usual limits. -/
  limits : List (Char × Limit) := []
  handles : Array Handle
  descriptors : List (Nat × Nat)
  traps : List (Nat × Text) := []
  documents : List (Nat × Word) := []
  nextDocument : Nat := 0
  loops : Nat := 0
  process : Nat
  nextProcess : Nat
  /-- The shells that this one was started from. -/
  ancestors : List Nat := []
  /-- Signals for processes that have not seen them yet. -/
  pending : List (Nat × Nat) := []
  isSubshell : Bool := false
  lastProcess : Option Nat := none
  jobs : List Job := []

def State.has (s : State) (f : Flag) : Bool :=
  s.options.has f

abbrev Run (m : Type → Type) := ExceptT Stop (StateT State m)

variable {m : Type → Type} [Monad m]

namespace Run

/-- The path that a text of bytes stands for, from the directory that the shell is in. -/
def resolve (path : Text) : Run m Text := do
  let decoded := Text.ofUtf8Lossy (toBytes path)
  if path.isEmpty || path.head? == some '/' then return decoded
  else return (← get).directory ++ "/" ++ decoded

def addHandle (h : Handle) : Run m Nat := do
  let s ← get
  set { s with handles := s.handles.push h }
  return s.handles.size

def setHandle (index : Nat) (h : Handle) : Run m Unit :=
  modify fun s => { s with handles := s.handles.setIfInBounds index h }

def handle? (descriptor : Nat) : Run m (Option (Nat × Handle)) := do
  let s ← get
  return (s.descriptors.lookup descriptor).bind fun index =>
    s.handles[index]?.map fun h => (index, h)

def point (descriptor index : Nat) : Run m Unit :=
  modify fun s => { s with
    descriptors := (descriptor, index) :: s.descriptors.filter (·.1 != descriptor) }

def close (descriptor : Nat) : Run m Unit :=
  modify fun s => { s with descriptors := s.descriptors.filter (·.1 != descriptor) }

/-- Do something, and then let some descriptors lead to where they did before. -/
def keeping {α : Type} (kept : List Nat) (action : Run m α) : Run m α := do
  let before := (← get).descriptors.filter (kept.contains ·.1)
  let restore : Run m Unit := modify fun s => { s with
    descriptors := before ++ s.descriptors.filter (! kept.contains ·.1) }
  let result ← try action catch stop => do
    restore
    throw stop
  restore
  return result

/-- Do something, and see what stops it. -/
def caught {α : Type} (action : Run m α) : Run m (Except Stop α) := do
  try return .ok (← action) catch stop => return .error stop

def value? (name : Text) : Run m (Option Text) := do
  return ((← get).bindings.lookup name).bind (·.value)

def updateVariable (name : Text) (change : Variable → Variable) : Run m Unit :=
  modify fun s =>
    let old := (s.bindings.lookup name).getD {}
    { s with bindings := (name, change old) :: s.bindings.filter (·.1 != name) }

/-- The number that a text is, in the range of what a count can be; blanks around it and a sign are
allowed. -/
def count? (t : Text) : Option Nat :=
  let isBlank (c : Char) : Bool := c == ' ' || ('\t' ≤ c && c ≤ '\r')
  let (isNegative, digits) := match t.dropWhile isBlank with
    | '-' :: rest => (true, rest)
    | '+' :: rest => (false, rest)
    | rest => (false, rest)
  let good := digits.takeWhile Char.isDigit
  let n := good.foldl (fun n c => n * 10 + (c.toNat - '0'.toNat)) 0
  if good.isEmpty || ! (digits.drop good.length).all isBlank then none
  else if n < 0x80000000 && ! (isNegative && n != 0) then some n
  else none

def startOptions (index : Nat) : Run m Unit :=
  modify fun s => { s with optionPlace := { index := if index = 0 then 1 else index } }

def restoreVariable (name : Text) (old : Option Variable) : Run m Unit := do
  modify fun s =>
    let others := s.bindings.filter (·.1 != name)
    { s with bindings := match old with
      | some v => (name, v) :: others
      | none => others }
  if name = "OPTIND" then startOptions (((old.bind (·.value)).bind count?).getD 1)
  else if name = "PATH" then modify fun s => { s with found := [] }

section

variable [FileSystem m]

/-- Write bytes to where a descriptor leads. -/
def write (descriptor : Nat) (bytes : Bytes) : Run m (Except Text Unit) := do
  let written (result : Except FileFault Unit) : Except Text Unit :=
    result.mapError FileFault.reason
  match ← handle? descriptor with
  | some (index, .sink old) =>
    setHandle index (.sink (old ++ bytes))
    return .ok ()
  | some (index, .file path position access) =>
    if ! access.writes then return .error "Bad file descriptor"
    else
      let old := match ← (readFile path : m (Except FileFault Bytes)) with
        | .ok bytes => bytes
        | .error _ => []
      let start := if access.appends then old.length else position
      let gap := List.replicate (start - old.length) 0
      let whole := old.take start ++ gap ++ bytes ++ old.drop (start + bytes.length)
      let result ← (writeFile path whole : m (Except FileFault Unit))
      setHandle index (.file path (start + bytes.length) access)
      return written result
  | some (_, .device path access) =>
    if ! access.writes then return .error "Bad file descriptor"
    else return written (← (writeFile path bytes : m (Except FileFault Unit)))
  | _ => return .error "Bad file descriptor"

/-- What can still be read from a descriptor. -/
def remaining (descriptor : Nat) : Run m (Except Text Bytes) := do
  match ← handle? descriptor with
  | some (_, .source bytes) => return .ok bytes
  | some (_, .file path position access) =>
    if ! access.reads then return .error "Bad file descriptor"
    else
      match ← (readFile path : m (Except FileFault Bytes)) with
      | .ok bytes => return .ok (bytes.drop position)
      | .error fault => return .error fault.reason
  | some (_, .device path access) =>
    if ! access.reads then return .error "Bad file descriptor"
    else return (← (readFile path : m (Except FileFault Bytes))).mapError FileFault.reason
  | some (_, .directory) => return .error "Is a directory"
  | _ => return .error "Bad file descriptor"

def advance (descriptor count : Nat) : Run m Unit := do
  match ← handle? descriptor with
  | some (index, .source bytes) => setHandle index (.source (bytes.drop count))
  | some (index, .file path position access) =>
    setHandle index (.file path (position + count) access)
  | _ => return

def print (t : Text) : Run m Unit := do
  let _ ← write 1 (toBytes t)

def printError (t : Text) : Run m Unit := do
  let _ ← write 2 (toBytes t)

def complain (what : Text) : Run m Unit := do
  let s ← get
  let command : Text := match s.command with
    | some c => c ++ ": "
    | none => []
  printError (s.name ++ ": " ++ Text.decimal s.line ++ ": " ++ command ++ what ++ "\n")

def fail {α : Type} (what : Text) : Run m α := do
  complain what
  throw .failed

def count (t : Text) : Run m Nat := do
  match count? t with
  | some n => return n
  | none => fail ("Illegal number: " ++ t)

def noteChange (name value : Text) : Run m Unit := do
  if name = "OPTIND" then
    startOptions (← count value)
  else if name = "PATH" then modify fun s => { s with found := [] }

def assign (name value : Text) : Run m Unit := do
  let s ← get
  match s.bindings.lookup name with
  | some { isFixed := true, .. } => fail (name ++ ": is read only")
  | _ =>
    updateVariable name fun v =>
      { v with value := some value, isExported := v.isExported || s.has .exportsAll }
    noteChange name value

end

end Run

end Shell

end ShaderBackend
