import ShaderBackend.Shell.Utility.Basic

/-!
Copying files to the output, with the lines numbered and characters made visible if that is asked
for.
-/

namespace ShaderBackend.Shell.Utility

structure LineStyle where
  numbers : Bool := false
  /-- Only lines that are not empty are numbered. -/
  numbersText : Bool := false
  /-- Of several empty lines only the first is shown. -/
  squeezes : Bool := false
  showsEnds : Bool := false
  showsTabs : Bool := false
  showsControls : Bool := false
  deriving DecidableEq

namespace LineStyle

def ofArguments (a : Arguments) : LineStyle where
  numbers := a.has 'n' || a.has 'b'
  numbersText := a.has 'b'
  squeezes := a.has 's'
  showsEnds := a.has 'E' || a.has 'e' || a.has 'A'
  showsTabs := a.has 'T' || a.has 't' || a.has 'A'
  showsControls := a.has 'v' || a.has 'e' || a.has 't' || a.has 'A'

/-- A byte that has no sign of its own. -/
def caret (b : UInt8) : Bytes :=
  if b == 0x7f then [0x5e, 0x3f] else if b < 0x20 then [0x5e, b + 0x40] else [b]

def showByte (s : LineStyle) (b : UInt8) : Bytes :=
  if b == 0x09 then if s.showsTabs then [0x5e, 0x49] else [b]
  else if ! s.showsControls then [b]
  else if b ≥ 0x80 then [0x4d, 0x2d] ++ caret (b - 0x80)
  else caret b

/-- The bytes of a line without its end. A carriage return at the end is part of what is shown. -/
def showText (s : LineStyle) (text : Bytes) (ended : Bool) : Bytes :=
  match s.showsEnds && ended && ! s.showsControls, text.getLast? with
  | true, some 0x0d => text.dropLast.flatMap s.showByte ++ [0x5e, 0x4d]
  | _, _ => text.flatMap s.showByte

/-- What has been shown so far. -/
structure Progress where
  line : Nat := 0
  /-- Whether the last line has ended. -/
  atStart : Bool := true
  /-- Whether the last line was empty. -/
  afterEmpty : Bool := false

def showLine (s : LineStyle) (p : Progress) (line : Bytes) : Progress × Bytes :=
  let ended := line.getLast? == some 0x0a
  let text := if ended then line.dropLast else line
  let isEmpty := p.atStart && text.isEmpty
  if s.squeezes && isEmpty && p.afterEmpty then (p, [])
  else
    let isNumbered := s.numbers && p.atStart && ! (s.numbersText && text.isEmpty)
    let number := if isNumbered then p.line + 1 else p.line
    let front : Bytes :=
      if isNumbered then toBytes (Text.padLeft ' ' 6 (Text.decimal number)) ++ [0x09] else []
    let back : Bytes := if ended then (if s.showsEnds then [0x24] else []) ++ [0x0a] else []
    ({ line := number, atStart := ended, afterEmpty := isEmpty },
      front ++ s.showText text ended ++ back)

def showLines (s : LineStyle) : Progress → List Bytes → Progress × Bytes
  | p, [] => (p, [])
  | p, line :: rest =>
    let (p, shown) := s.showLine p line
    let (p, more) := s.showLines p rest
    (p, shown ++ more)

end LineStyle

variable {m : Type → Type} [Monad m] [FileSystem m]

def catNames : OptionNames where
  flags := "AbeEnstTuv"
  long := [("number-nonblank", 'b'), ("number", 'n'), ("squeeze-blank", 's'),
    ("show-nonprinting", 'v'), ("show-ends", 'E'), ("show-tabs", 'T'), ("show-all", 'A')]

def catHelp : Text :=
  Text.unlines <| ([
    "Usage: cat [OPTION]... [FILE]...",
    "Concatenate FILE(s) to standard output.",
    "",
    "With no FILE, or when FILE is -, read standard input.",
    "",
    "  -A, --show-all           equivalent to -vET",
    "  -b, --number-nonblank    number nonempty output lines, overrides -n",
    "  -e                       equivalent to -vE",
    "  -E, --show-ends          display $ at end of each line",
    "  -n, --number             number all output lines",
    "  -s, --squeeze-blank      suppress repeated empty output lines",
    "  -t                       equivalent to -vT",
    "  -T, --show-tabs          display TAB characters as ^I",
    "  -u                       (ignored)",
    "  -v, --show-nonprinting   use ^ and M- notation, except for LFD and TAB",
    "      --help        display this help and exit",
    "      --version     output version information and exit",
    "",
    "Examples:",
    "  cat f - g  Output f's contents, then standard input, then g's contents.",
    "  cat        Copy standard input to standard output."] : List String).map String.toList

/-- Where a descriptor leads that leads to a file, and where in it the next byte is. -/
def placeOfDescriptor (descriptor : Nat) : Run m (Option (Text × Nat)) := do
  match ← Run.handle? descriptor with
  | some (_, .file path position _) =>
    match ← (realPath path : m (Except FileFault Text)) with
    | .ok place => return some (place, position)
    | .error _ => return none
  | _ => return none

/-- The file that is read for an operand, and where reading starts. -/
def placeOfOperand (path : Text) : Run m (Option (Text × Nat)) := do
  if path = "-" then placeOfDescriptor 0
  else
    match streamOfPath? path with
    | some descriptor => return (← placeOfDescriptor descriptor).map fun (place, _) => (place, 0)
    | none =>
      match ← (realPath (← Run.resolve path) : m (Except FileFault Text)) with
      | .ok place => return some (place, 0)
      | .error _ => return none

/-- Whether the output goes to the file that is read, of which something is left. -/
def readsOutput (path : Text) : Run m Bool := do
  match ← placeOfDescriptor 1, ← placeOfOperand path with
  | some (output, _), some (input, position) =>
    if output ≠ input then return false
    else
      match ← (fileStatus input : m (Except FileFault FileStatus)) with
      | .ok status => return status.kind == .regular && position < status.size
      | .error _ => return false
  | _, _ => return false

/-- Copy files one after the other. One that cannot be read is left out; nothing more is done when
nothing can be written. -/
def catFiles (s : LineStyle) (p : LineStyle.Progress) : List Text → Run m Nat
  | [] => return 0
  | path :: rest => do
    let leaveOut (reason : Text) : Run m Nat := do
      complain "cat" (shownName path ++ ": " ++ reason)
      return max 1 (← catFiles s p rest)
    if ← readsOutput path then leaveOut "input file is output file"
    else
      match ← contents path with
      | .ok bytes =>
        let (p, shown) := if s = {} then (p, bytes) else s.showLines p (byteLines bytes)
        let status ← put "cat" shown
        if status = 0 then catFiles s p rest else return status
      | .error reason => leaveOut reason

/-- Copy files, and then close the input if it was read. -/
def catAll (s : LineStyle) (paths : List Text) : Run m Nat := do
  if (← Run.handle? 1).isNone then
    complain "cat" "standard output: Bad file descriptor"
    return 1
  let status ← catFiles s {} paths
  if paths.contains "-" && (← Run.handle? 0).isNone then
    complain "cat" "closing standard input: Bad file descriptor"
    return 1
  return status

def cat (args : List Text) : Run m Nat := do
  let a := Arguments.read catNames args
  if a.stop = some .help then put "cat" (toBytes catHelp)
  else
    start "cat" a do
      catAll (.ofArguments a) (if a.operands.isEmpty then ["-"] else a.operands)

end ShaderBackend.Shell.Utility
