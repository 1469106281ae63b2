import ShaderBackend.Shell.Expansion
import ShaderBackend.Shell.Output
import ShaderBackend.Shell.Quoting

/-!
What programs have in common: the letters of their options, the files they read, and what they say
when something is wrong.
-/

namespace ShaderBackend.Shell

/-- Why the arguments of a program are not read to their end. -/
inductive ArgumentStop where
  | refused (what : Text)
  | help
  | version
  deriving DecidableEq, Repr

/-- The letters of the options in front of the operands, each with its value if it takes one. -/
structure Arguments where
  options : List (Char × Text) := []
  operands : List Text := []
  stop : Option ArgumentStop := none

structure OptionNames where
  /-- The letters of options without a value. -/
  flags : Text
  /-- The letters of options with a value. -/
  valued : Text := []
  /-- The long names of options, with their letters. -/
  long : List (Text × Char) := []

namespace Arguments

/-- The options in one argument after its dash; those that take a value take what follows. -/
def letters (names : OptionNames) : Text → List Text → Except Text (List (Char × Text) × List Text)
  | [], rest => .ok ([], rest)
  | c :: more, rest =>
    if names.valued.contains c then
      match more, rest with
      | [], value :: rest => .ok ([(c, value)], rest)
      | [], [] => .error ("option requires an argument -- '" ++ [c] ++ "'")
      | value, rest => .ok ([(c, value)], rest)
    else if names.flags.contains c then do
      let (options, rest) ← letters names more rest
      return ((c, []) :: options, rest)
    else .error ("invalid option -- '" ++ [c] ++ "'")

inductive LongOption where
  | letter (c : Char)
  | stop (s : ArgumentStop)

def commonNames : List (Text × LongOption) :=
  [("help", .stop .help), ("version", .stop .version)]

/-- The option of a long name, which may be cut short as long as no other name starts like it. -/
def longOption (names : OptionNames) (argument : Text) : LongOption :=
  let shown : Text := "--" ++ argument
  let refuse (what : Text) : LongOption := .stop (.refused what)
  let name := argument.takeWhile (· != '=')
  let known := names.long.map (fun (name, c) => (name, LongOption.letter c)) ++ commonNames
  let takenUp (entry : Text × LongOption) : LongOption :=
    if argument.contains '=' then
      refuse ("option '--" ++ entry.1 ++ "' doesn't allow an argument")
    else entry.2
  match known.find? (·.1 == name), known.filter fun entry => name.isPrefixOf entry.1 with
  | some entry, _ => takenUp entry
  | none, [entry] => takenUp entry
  | none, [] => refuse ("unrecognized option '" ++ shown ++ "'")
  | none, several =>
    let shownNames : Text := several.flatMap fun entry => " '--".toList ++ entry.1 ++ ['\'']
    refuse ("option '" ++ shown ++ "' is ambiguous; possibilities:" ++ shownNames)

/-- Options may stand among the operands, up to a pair of dashes. -/
def readWithin (names : OptionNames) : Nat → List Text → Arguments
  | 0, _ => {}
  | _, [] => {}
  | fuel + 1, arg :: rest =>
    match arg with
    | ['-', '-'] => { operands := rest }
    | '-' :: '-' :: name =>
      match longOption names name with
      | .stop s => { stop := some s }
      | .letter c =>
        let others := readWithin names fuel rest
        { others with options := (c, []) :: others.options }
    | '-' :: c :: more =>
      match letters names (c :: more) rest with
      | .error what => { stop := some (.refused what) }
      | .ok (options, rest) =>
        let others := readWithin names fuel rest
        { others with options := options ++ others.options }
    | operand =>
      let others := readWithin names fuel rest
      { others with operands := operand :: others.operands }

def read (names : OptionNames) (args : List Text) : Arguments :=
  readWithin names (args.length + 1) args

def has (a : Arguments) (c : Char) : Bool :=
  a.options.any (·.1 == c)

def value? (a : Arguments) (c : Char) : Option Text :=
  (a.options.filter (·.1 == c)).getLast?.map (·.2)

end Arguments

namespace Utility

variable {m : Type → Type} [Monad m] [FileSystem m]

def complain (program what : Text) : Run m Unit :=
  Run.printError (program ++ ": " ++ what ++ "\n")

def refuse (program what : Text) : Run m Nat := do
  complain program what
  Run.printError ("Try '" ++ program ++ " --help' for more information.\n")
  return 1

/-- Do what a program does, unless its arguments ask for something else. -/
def start (program : Text) (a : Arguments) (action : Run m Nat) : Run m Nat := do
  match a.stop with
  | none => action
  | some (.refused what) => refuse program what
  | some .help =>
    Run.print ("Usage: " ++ program ++ " [OPTION]... [FILE]...\n")
    return 0
  | some .version =>
    Run.print (program ++ " (GNU coreutils) 9.1\n" ++
      "There is NO WARRANTY, to the extent permitted by law.\n")
    return 0

/-- All that can still be read from a descriptor. -/
def takeFrom (descriptor : Nat) : Run m (Except Text Bytes) := do
  match ← Run.remaining descriptor with
  | .ok bytes =>
    Run.advance descriptor bytes.length
    return .ok bytes
  | .error reason => return .error reason

def takeInput : Run m (Except Text Bytes) :=
  takeFrom 0

/-- The contents of a file, read from its start. -/
def wholeFile (path : Text) : Run m (Except Text Bytes) := do
  match ← (readFile path : m (Except FileFault Bytes)) with
  | .ok bytes => return .ok bytes
  | .error fault => return .error fault.reason

/-- The contents of a file, or of the input for a dash. A path that stands for a descriptor leads to
what that does. -/
def contents (path : Text) : Run m (Except Text Bytes) := do
  if path = "-" then takeInput
  else
    match streamOfPath? path with
    | none => wholeFile (← Run.resolve path)
    | some descriptor =>
      match ← Run.handle? descriptor with
      | none => return .error FileFault.missing.reason
      | some (_, .file path _ _) => wholeFile path
      | some _ => takeFrom descriptor

/-- Write to the output, and give the code that a program then ends with. -/
def put (program : Text) (bytes : Bytes) : Run m Nat := do
  if bytes.isEmpty then return 0
  else
    match ← Run.write 1 bytes with
    | .ok () => return 0
    | .error reason =>
      complain program ("write error: " ++ reason)
      return 1

/-- The lines of some bytes, each with its line feed. -/
def byteLines : Bytes → List Bytes
  | [] => []
  | b :: rest =>
    if b == 0x0a then [b] :: byteLines rest
    else
      match rest, byteLines rest with
      | [], _ => [[b]]
      | _, line :: lines => (b :: line) :: lines
      | _, [] => [[b]]

/-- Make the bytes all that a file holds, or add them to it. -/
def store (path : Text) (bytes : Bytes) (appends : Bool) : Run m (Except FileFault Unit) := do
  match streamOfPath? path with
  | some descriptor =>
    let _ ← Run.write descriptor bytes
    return .ok ()
  | none =>
    let path ← Run.resolve path
    let old := match appends, ← (readFile path : m (Except FileFault Bytes)) with
      | true, .ok old => old
      | _, _ => []
    (writeFile path (old ++ bytes) : m (Except FileFault Unit))

end Utility

end ShaderBackend.Shell
