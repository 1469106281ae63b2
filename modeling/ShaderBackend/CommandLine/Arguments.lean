import ShaderBackend.CommandLine.Help
import ShaderBackend.Stage
import ShaderBackend.Text.Number

/-!
The arguments of the program: a command, then options and one file in any order. An option with a
value takes it from the same argument or from the next one, and each option is given at most once.
-/

namespace ShaderBackend.CommandLine

structure BuildArguments where
  input : Text
  stage : Stage
  output : Option Text := none
  tokens : Option Text := none
  raw : Option Text := none
  target : Text := "gm20b"
  optLevel : Nat := 3
  generator : Option Text := none
  slots : Bool := false
  deriving DecidableEq, Repr

structure InspectArguments where
  input : Text
  full : Bool := false
  deriving DecidableEq, Repr

/-- What the program is asked to do. -/
inductive Invocation where
  | build (arguments : BuildArguments)
  | inspect (arguments : InspectArguments)
  | version
  | help (topic : HelpTopic)
  deriving DecidableEq, Repr

/-- Why the arguments ask for nothing. -/
inductive UsageError where
  | noCommand
  | unknownCommand (name : Text)
  | unexpectedArgument (argument : Text)
  | missingValue (option : Text)
  | unexpectedValue (option : Text)
  | invalidValue (option value : Text)
  | repeated (option : Text)
  | missingArgument (name : Text)
  deriving DecidableEq, Repr

def UsageError.message : UsageError → Text
  | noCommand => "a command is required"
  | unknownCommand name => "unrecognized command '" ++ name ++ "'"
  | unexpectedArgument argument => "unexpected argument '" ++ argument ++ "'"
  | missingValue option => "a value is required for '" ++ option ++ "'"
  | unexpectedValue option => "'" ++ option ++ "' takes no value"
  | invalidValue option value => "invalid value '" ++ value ++ "' for '" ++ option ++ "'"
  | repeated option => "'" ++ option ++ "' cannot be used more than once"
  | missingArgument name => "'" ++ name ++ "' is required"

/-- An option of a command. -/
structure OptionRule where
  /-- How the option is called in messages and looked up afterwards. -/
  key : Text
  long : Option Text := none
  short : Option Char := none
  /-- The values that the option takes; a flag takes none. -/
  accepts : Option (Text → Bool) := none

/-- What has been read of the arguments of a command. -/
structure Given where
  values : List (Text × Text) := []
  input : Option Text := none
  deriving DecidableEq, Repr

/-- Why reading arguments stopped before their end. -/
inductive Stop where
  | usage (e : UsageError)
  | help
  deriving DecidableEq, Repr

namespace Given

/-- Note an option with its value. -/
def add (g : Given) (o : OptionRule) (value : Text) : Except Stop Given :=
  if g.values.any (·.1 == o.key) then .error (.usage (.repeated o.key))
  else .ok { g with values := g.values ++ [(o.key, value)] }

/-- Note an option whose value has to be acceptable. -/
def addValue (g : Given) (o : OptionRule) (accepts : Text → Bool) (value : Text) :
    Except Stop Given :=
  if accepts value then g.add o value else .error (.usage (.invalidValue o.key value))

def addInput (g : Given) (path : Text) : Except Stop Given :=
  match g.input with
  | some _ => .error (.usage (.unexpectedArgument path))
  | none =>
    if path.isEmpty then .error (.usage (.invalidValue "<INPUT>" path))
    else .ok { g with input := some path }

def value? (g : Given) (key : Text) : Option Text :=
  g.values.lookup key

def has (g : Given) (key : Text) : Bool :=
  (g.value? key).isSome

end Given

/-- An argument that is no value of an option. -/
def looksLikeOption : Text → Bool
  | '-' :: _ :: _ => true
  | _ => false

/-- What an argument means by itself. -/
inductive Reading where
  | input (path : Text)
  | flag (o : OptionRule)
  /-- An option, its values, and its value if that is in the same argument. -/
  | valued (o : OptionRule) (accepts : Text → Bool) (value : Option Text)
  /-- Only files follow. -/
  | endOfOptions
  | stop (s : Stop)

def readLong (options : List OptionRule) (argument body : Text) : Reading :=
  let (name, value) := match Text.cut? '=' body with
    | some (name, value) => (name, some value)
    | none => (body, none)
  match options.find? (·.long == some name) with
  | some o =>
    match o.accepts, value with
    | some accepts, value => .valued o accepts value
    | none, none => .flag o
    | none, some _ => .stop (.usage (.unexpectedValue o.key))
  | none =>
    if name = "help" ∧ value = none then .stop .help
    else .stop (.usage (.unexpectedArgument argument))

def readShort (options : List OptionRule) (argument : Text) (letter : Char) (rest : Text) :
    Reading :=
  match options.find? (·.short == some letter) with
  | some o =>
    match o.accepts with
    | some accepts =>
      match rest with
      | [] => .valued o accepts none
      | '=' :: value => .valued o accepts (some value)
      | value => .valued o accepts (some value)
    | none => .flag o
  | none =>
    if letter = 'h' then .stop .help else .stop (.usage (.unexpectedArgument argument))

def readArgument (options : List OptionRule) (argument : Text) : Reading :=
  match argument with
  | ['-', '-'] => .endOfOptions
  | '-' :: '-' :: body => readLong options argument body
  | '-' :: letter :: rest => readShort options argument letter rest
  | path => .input path

/-- Take the remaining arguments as files. -/
def readInputs (g : Given) : List Text → Except Stop Given
  | [] => .ok g
  | path :: rest => do
    let g ← g.addInput path
    readInputs g rest

/-- Read the arguments of a command from left to right. -/
def readArguments (options : List OptionRule) (g : Given) : List Text → Except Stop Given
  | [] => .ok g
  | argument :: rest =>
    match readArgument options argument with
    | .input path => do
      let g ← g.addInput path
      readArguments options g rest
    | .flag o => do
      let g ← g.add o []
      readArguments options g rest
    | .valued o accepts (some value) => do
      let g ← g.addValue o accepts value
      readArguments options g rest
    | .valued o accepts none =>
      match rest with
      | [] => .error (.usage (.missingValue o.key))
      | value :: rest =>
        if looksLikeOption value then .error (.usage (.missingValue o.key))
        else do
          let g ← g.addValue o accepts value
          readArguments options g rest
    | .endOfOptions => readInputs g rest
    | .stop s => .error s

def isPath (t : Text) : Bool :=
  ! t.isEmpty

/-- A level below `2 ^ 32`. A minus sign is accepted in front of zero. -/
def readLevel? : Text → Option Nat
  | '-' :: c :: digits =>
    if (c :: digits).all (· == '0') then some 0 else none
  | t => Text.readNumber? 10 t

def isLevel (t : Text) : Bool :=
  (readLevel? t).isSome

def buildOptions : List OptionRule :=
  [{ key := "--stage", long := some "stage"
     accepts := some fun t => (Stage.ofMnemonic? t).isSome },
    { key := "--output", long := some "output", short := some 'o', accepts := some isPath },
    { key := "--tgsi", long := some "tgsi", accepts := some isPath },
    { key := "--raw", long := some "raw", accepts := some isPath },
    { key := "--target", long := some "target", accepts := some fun _ => true },
    { key := "-O", short := some 'O', accepts := some isLevel },
    { key := "--codegen", long := some "codegen", accepts := some fun _ => true },
    { key := "--slots", long := some "slots" }]

def inspectOptions : List OptionRule :=
  [{ key := "--full", long := some "full" }]

def readBuild (args : List Text) : Except Stop Invocation := do
  let g ← readArguments buildOptions {} args
  match g.input, (g.value? "--stage").bind Stage.ofMnemonic? with
  | some input, some stage =>
    return .build {
      input
      stage
      output := g.value? "--output"
      tokens := g.value? "--tgsi"
      raw := g.value? "--raw"
      target := (g.value? "--target").getD "gm20b"
      optLevel := ((g.value? "-O").bind readLevel?).getD 3
      generator := g.value? "--codegen"
      slots := g.has "--slots" }
  | none, _ => .error (.usage (.missingArgument "<INPUT>"))
  | _, none => .error (.usage (.missingArgument "--stage"))

def readInspect (args : List Text) : Except Stop Invocation := do
  let g ← readArguments inspectOptions {} args
  match g.input with
  | some input => return .inspect { input, full := g.has "--full" }
  | none => .error (.usage (.missingArgument "<INPUT>"))

/-- Help that is asked for among the arguments of a command is about that command. -/
def about (topic : HelpTopic) (result : Except Stop Invocation) : Except UsageError Invocation :=
  match result with
  | .ok invocation => .ok invocation
  | .error .help => .ok (.help topic)
  | .error (.usage e) => .error e

/-- Help about the program or about one command. -/
def readHelp : List Text → Except UsageError Invocation
  | [] => .ok (.help .program)
  | [command] =>
    match HelpTopic.ofCommand? command with
    | some topic => .ok (.help topic)
    | none => .error (.unknownCommand command)
  | _ :: command :: _ => .error (.unknownCommand command)

/-- What the arguments ask for. -/
def read : List Text → Except UsageError Invocation
  | [] => .error .noCommand
  | command :: args =>
    if command = "build" then about .build (readBuild args)
    else if command = "inspect" then about .inspect (readInspect args)
    else if command = "help" then readHelp args
    else if command = "--version" then .ok .version
    else if command = "--help" then .ok (.help .program)
    else
      match command with
      | '-' :: 'V' :: _ => .ok .version
      | '-' :: 'h' :: _ => .ok (.help .program)
      | _ => .error (.unknownCommand command)

end ShaderBackend.CommandLine
