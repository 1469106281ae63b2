import ShaderBackend.Shell.Builtin.Basic

/-!
The commands that give values to variables and take them away.
-/

namespace ShaderBackend.Shell.Builtin

variable {m : Type → Type} [Monad m] [FileSystem m]

/-- A part of a line that is read: a character, one that a backslash quotes, or the end of a line
that goes on. -/
inductive LinePart where
  | char (c : Char)
  | quoted (c : Char)
  | join
  deriving DecidableEq, Repr

/-- The parts of a line, how many bytes they take, and whether the line ended. A backslash quotes
what follows it, unless lines are taken as they are. -/
def takeLine (raw quotes : Bool) : Text → List LinePart × Nat × Bool
  | [] => ([], 0, false)
  | c :: rest =>
    if c == '\x00' then
      let (parts, n, ended) := takeLine raw quotes rest
      (parts, n + 1, ended)
    else if quotes then
      let (parts, n, ended) := takeLine raw false rest
      ((if c == '\n' then .join else .quoted c) :: parts, n + 1, ended)
    else if c == '\n' then ([], 1, true)
    else if c == '\\' && ! raw then
      let (parts, n, ended) := takeLine raw true rest
      (parts, n + 1, ended)
    else
      let (parts, n, ended) := takeLine raw false rest
      (.char c :: parts, n + 1, ended)

structure Sharing where
  fields : List Text := []
  /-- The current field, last character first. -/
  current : Text := []
  /-- How many more fields can end. -/
  left : Nat
  /-- How much of the last field counts if nothing else follows. -/
  kept : Option Nat := none
  isAfterBlank : Bool := false

namespace Sharing

def addLast (sh : Sharing) (c : Char) (isSeparator isBlank : Bool) : Sharing :=
  let kept := if isBlank then sh.kept.orElse fun _ => some sh.current.length
    else if isSeparator && sh.isAfterBlank then sh.kept else none
  { sh with current := c :: sh.current, kept, isAfterBlank := isBlank && sh.isAfterBlank }

/-- A separator that ends a field. Of the last one it becomes a part, as more may follow. -/
def endField (sh : Sharing) (c : Char) (isBlank : Bool) : Sharing :=
  if sh.current.isEmpty && isBlank then sh
  else if sh.left ≤ 1 then
    { sh with
      left := 0, current := c :: sh.current, kept := some sh.current.length,
      isAfterBlank := isBlank }
  else
    { sh with
      left := sh.left - 1, fields := sh.fields ++ [sh.current.reverse], current := [],
      isAfterBlank := isBlank }

/-- Blanks around a separator belong to it, but what is quoted comes between them. -/
def add (separators : Text) (sh : Sharing) : LinePart → Sharing
  | .join => { sh with isAfterBlank := false }
  | .quoted c => { sh with current := c :: sh.current, isAfterBlank := false }
  | .char c =>
    let isSeparator := separators.contains c
    let isBlank := isSeparator && Splitting.isBlank c
    if sh.left = 0 then sh.addLast c isSeparator isBlank
    else if ! isSeparator then { sh with current := c :: sh.current, isAfterBlank := false }
    else if sh.isAfterBlank then { sh with isAfterBlank := isBlank }
    else sh.endField c isBlank

end Sharing

/-- The values of variables that a line is read into. The last one takes all that is left. -/
def shareOut (separators : Text) (names : List Text) (line : List LinePart) : List (Text × Text) :=
  let sh := line.foldl (Sharing.add separators) { left := names.length }
  let last := sh.current.reverse
  let fields := sh.fields ++ [last.take (sh.kept.getD last.length)]
  names.mapIdx fun k name => (name, fields.getD k [])

def read (args : List Text) : Run m Nat := do
  let (options, names) ← readOptions "r" "p" args
  if names.isEmpty then Run.fail "arg count"
  match names.find? fun n => ! isName n with
  | some bad => Run.fail (bad ++ ": bad variable name")
  | none =>
    let separators ← separators
    let (line, count, ended) ← match ← Run.remaining 0 with
      | .ok bytes => pure (takeLine (options.any (·.1 == 'r')) false (ofBytes bytes))
      | .error _ => pure ([], 0, false)
    Run.advance 0 count
    (shareOut separators names line).forM fun (name, value) => Run.assign name value
    return if ended then 0 else 1

def nameAndValue (t : Text) : Text × Option Text :=
  match Text.cut? '=' t with
  | some (name, value) => (name, some value)
  | none => (t, none)

def shownVariable (start name : Text) (v : Variable) : Text :=
  let value : Text := match v.value with
    | some value => "=" ++ singleQuoted value
    | none => []
  start ++ name ++ value ++ "\n"

/-- The variables that satisfy `p`, in the order of their names. -/
def shownVariables (start : Text) (p : Variable → Bool) : Run m Text := do
  let chosen := (← get).bindings.filter fun (_, v) => p v
  let sorted := chosen.mergeSort fun a b => ! decide (b.1 < a.1)
  return sorted.flatMap fun (name, v) => shownVariable start name v

/-- Give variables values and a property, or show those that have it. -/
def declare (command : Text) (has : Variable → Bool) (change : Variable → Variable)
    (args : List Text) : Run m Nat := do
  let isShown := match args with
    | ('-' :: 'p' :: _) :: _ => true
    | _ => false
  let names ← if isShown then pure [] else plainArguments args
  if names.isEmpty then put command (← shownVariables (command ++ " ") has)
  else
    names.forM fun arg => do
      let (name, value) := nameAndValue arg
      if isName name then
        match value with
        | some v => Run.assign name v
        | none => pure ()
        Run.updateVariable name change
      else Run.fail (name ++ ": bad variable name")
    return 0

def saveLocal (frame : Frame) (name : Text) : Run m Frame := do
  let s ← get
  if name = "-" then return { frame with options := some (frame.options.getD s.options) }
  else if ! isName name then Run.fail (name ++ ": bad variable name")
  else if frame.saved.any (·.1 == name) then return frame
  else return { frame with saved := frame.saved ++ [(name, s.bindings.lookup name)] }

/-- Make variables those of the running function. A dash stands for the options of the shell. -/
def declareLocal (args : List Text) : Run m Nat := do
  match (← get).frames with
  | [] => Run.fail "not in a function"
  | frame :: frames =>
    let frame ← args.foldlM (fun frame arg => saveLocal frame (nameAndValue arg).1) frame
    modify fun s => { s with frames := frame :: frames }
    args.forM fun arg => do
      match nameAndValue arg with
      | (name, some v) => Run.assign name v
      | (_, none) => pure ()
    return 0

/-- The variables that are known to the shell even if they are unset. -/
def knownNames : List Text :=
  (["IFS", "MAIL", "MAILPATH", "OPTIND", "PATH", "PS1", "PS2", "PS4", "TERM"] : List String).map
    String.toList

def unsetVariable (name : Text) : Run m Unit := do
  if ! isName name then Run.fail (name ++ ": bad variable name")
  match (← get).bindings.lookup name with
  | some { isFixed := true, .. } => Run.fail (name ++ ": is read only")
  | _ =>
    if knownNames.contains name then
      Run.noteChange name []
      Run.updateVariable name fun v => { v with value := none }
    else Run.restoreVariable name none

def unset (args : List Text) : Run m Nat := do
  let (options, names) ← readOptions "vf" [] args
  let ofFunctions := (options.getLast?.map (·.1)) == some 'f'
  names.forM fun name => do
    if ofFunctions then
      modify fun s => { s with functions := s.functions.filter (·.1 != name) }
    else unsetVariable name
  return 0

/-- Whether a letter is an option, and whether it takes a value. -/
def optionKind : Text → Char → Option Bool
  | [], _ => none
  | known :: ':' :: rest, c => if known == c then some true else optionKind rest c
  | known :: rest, c => if known == c then some false else optionKind rest c

/-- Where an option is taken from: the argument it stands in from its letter on, and where the next
argument is. -/
def optionStart (args : List Text) (place : OptionPlace) : Option (Text × Nat) :=
  let current : Option Text := do
    let offset ← place.offset
    if place.index ≤ 1 then none
    else
      let rest := (← args[place.index - 2]?).drop offset
      if rest.isEmpty then none else some rest
  match current with
  | some rest => some (rest, place.index)
  | none =>
    match args[place.index - 1]? with
    | some ('-' :: c :: rest) =>
      if c == '-' && rest.isEmpty then none else some (c :: rest, place.index + 1)
    | _ => none

def nextOption (known name : Text) (args : List Text) (place : OptionPlace) : Run m Nat := do
  let isQuiet := known.head? == some ':'
  let unsetValue : Run m Unit := Run.restoreVariable "OPTARG" none
  let finish (letter : Char) (index : Nat) (offset : Option Nat) (status : Nat) : Run m Nat := do
    Run.assign "OPTIND" (Text.decimal index)
    if ! isName name then Run.fail (name ++ ": bad variable name")
    Run.assign name [letter]
    modify fun s => { s with optionPlace := { index, offset } }
    return status
  match optionStart args place with
  | none =>
    let isEnd := args[place.index - 1]? == some "--"
    finish '?' (if isEnd then place.index + 1 else place.index) none 1
  | some (letters, index) =>
    let c := letters.headD '?'
    let rest := letters.drop 1
    let whole := (args[index - 2]?).getD []
    let here := some (whole.length - rest.length)
    match optionKind known c with
    | none =>
      if isQuiet then Run.assign "OPTARG" [c]
      else
        Run.printError ("Illegal option -" ++ [c] ++ "\n")
        unsetValue
      finish '?' index here 0
    | some false =>
      Run.assign "OPTARG" []
      finish c index here 0
    | some true =>
      match rest, args[index - 1]? with
      | [], none =>
        if isQuiet then
          Run.assign "OPTARG" [c]
          finish ':' index none 0
        else
          Run.printError ("No arg for -" ++ [c] ++ " option\n")
          unsetValue
          finish '?' index none 0
      | [], some value =>
        Run.assign "OPTARG" value
        finish c (index + 1) none 0
      | value, _ =>
        Run.assign "OPTARG" value
        finish c index none 0

def getopts : List Text → Run m Nat
  | known :: name :: rest => do
    let s ← get
    let args := if rest.isEmpty then s.args else rest
    let place := if s.optionPlace.index > args.length + 1 then {} else s.optionPlace
    nextOption known name args place
  | _ => Run.fail "Usage: getopts optstring var [arg...]"

end ShaderBackend.Shell.Builtin
