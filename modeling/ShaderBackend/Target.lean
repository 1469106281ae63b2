import ShaderBackend.Diagnostic
import ShaderBackend.Files.Access
import ShaderBackend.Text.Number
import ShaderBackend.Text.Utf8

/-!
Compilation targets. A target is a revision of the hardware with its names, and the command that
generates code for it. One target is built in; others are described by files of `key = value` lines
in sections, in which the last assignment to a key counts and unknown keys are ignored.
-/

namespace ShaderBackend

structure Target where
  name : Text
  displayName : Text
  family : Text
  revision : Nat
  /-- The command line of the code generator. -/
  generator : Option Text
  deriving DecidableEq, Repr

/-- Why a target file describes no target. -/
inductive TargetError where
  | notAssignment (line : Text)
  | invalidRevision (value : Text)
  | missingName
  | zeroRevision
  | missingRevision
  | argumentsWithoutCommand
  deriving DecidableEq, Repr

def TargetError.message : TargetError → Text
  | notAssignment line => "expected 'key = value', found '" ++ line ++ "'"
  | invalidRevision value => "invalid target.revision: " ++ value
  | missingName => "missing target.name"
  | zeroRevision => "target.revision must be > 0"
  | missingRevision => "missing target.revision"
  | argumentsWithoutCommand => "codegen.args given without codegen.command"

/-- What the assignments of a target file have said so far. -/
structure TargetSettings where
  name : Text := []
  displayName : Text := []
  family : Text := []
  revision : Option Nat := none
  command : Text := []
  arguments : List Text := []
  deriving DecidableEq, Repr

/-- A line of a target file. -/
inductive TargetLine where
  | ignored
  /-- The start of a section. -/
  | heading (name : Text)
  | assignment (key value : Text)
  | unreadable (line : Text)
  deriving DecidableEq, Repr

namespace TargetLine

/-- The name in the brackets of a heading. -/
def heading? : Text → Option Text
  | '[' :: rest => if rest.getLast? = some ']' then some (Text.trim rest.dropLast) else none
  | _ => none

/-- A line without the blanks around it. -/
def ofTrimmed (line : Text) : TargetLine :=
  if line.isEmpty || line.head? == some '#' then ignored
  else
    match heading? line with
    | some name => heading name
    | none =>
      match Text.cut? '=' line with
      | some (key, value) => assignment (Text.trim key) (Text.trim value)
      | none => unreadable line

def ofText (line : Text) : TargetLine :=
  ofTrimmed (Text.trim line)

end TargetLine

namespace TargetSettings

/-- Without the quotes at either end. -/
def unquote (t : Text) : Text :=
  Text.dropEndWhile (· == '"') (t.dropWhile (· == '"'))

/-- A number, hexadecimal after `0x` or `0X`. -/
def readRevision? : Text → Option Nat
  | '0' :: 'x' :: digits => Text.readNumber? 16 digits
  | '0' :: 'X' :: digits => Text.readNumber? 16 digits
  | t => Text.readNumber? 10 t

/-- The nonempty items of a bracketed list. -/
def readList (t : Text) : List Text :=
  let inner := Text.dropEndWhile (· == ']') (t.dropWhile (· == '['))
  ((List.splitOn ',' inner).map fun item => unquote (Text.trim item)).filter (! ·.isEmpty)

/-- Take over an assignment. -/
def assign (s : TargetSettings) (heading key value : Text) :
    Except TargetError TargetSettings :=
  if heading = "target" then
    if key = "name" then .ok { s with name := unquote value }
    else if key = "display_name" then .ok { s with displayName := unquote value }
    else if key = "family" then .ok { s with family := unquote value }
    else if key = "revision" then
      match readRevision? value with
      | some revision => .ok { s with revision := some revision }
      | none => .error (.invalidRevision value)
    else .ok s
  else if heading = "codegen" then
    if key = "command" then .ok { s with command := unquote value }
    else if key = "args" then .ok { s with arguments := readList value }
    else .ok s
  else .ok s

/-- Take over the lines of a file, of which the first that is wrong decides. -/
def readLines (s : TargetSettings) (heading : Text) :
    List TargetLine → Except TargetError TargetSettings
  | [] => .ok s
  | .ignored :: rest => readLines s heading rest
  | .heading name :: rest => readLines s name rest
  | .assignment key value :: rest => do
    let s ← s.assign heading key value
    readLines s heading rest
  | .unreadable line :: _ => .error (.notAssignment line)

/-- The target of complete settings. -/
def target (s : TargetSettings) : Except TargetError Target :=
  if s.name.isEmpty then .error .missingName
  else
    match s.revision with
    | none => .error .missingRevision
    | some 0 => .error .zeroRevision
    | some revision =>
      if s.command.isEmpty && ! s.arguments.isEmpty then .error .argumentsWithoutCommand
      else .ok {
        name := s.name
        displayName := if s.displayName.isEmpty then s.name else s.displayName
        family := s.family
        revision
        generator :=
          if s.command.isEmpty then none
          else some (List.intercalate " " (s.command :: s.arguments)) }

end TargetSettings

namespace Target

/-- The target that needs no file. -/
def builtin : Target where
  name := "gm20b"
  displayName := "Tegra X1 (GM20B)"
  family := "maxwell"
  revision := 0x12b
  generator := none

/-- Read a target file. -/
def parse (content : Text) : Except TargetError Target := do
  let lines := (List.splitOn '\n' content).map TargetLine.ofText
  let settings ← TargetSettings.readLines {} [] lines
  settings.target

/-- A name that stays inside the directory of target files. -/
def isValidName (name : Text) : Bool :=
  ! (name.isEmpty || name.contains '/' || name.contains '\\' || Text.hasPart ".." name ||
    name.head? == some '.')

/-- Where the file of a target is. -/
def path (name : Text) : Text :=
  "targets/" ++ name ++ ".toml"

/-- The target in what was read from a file. -/
def ofFile (path : Text) (content : Except FileFault Bytes) : Except Diagnostic Target :=
  let text := content.bind fun bytes =>
    match Text.ofUtf8? bytes with
    | some text => .ok text
    | none => .error .notText
  match text with
  | .error fault =>
    .error (.bare ("cannot read target config '" ++ path ++ "': " ++ fault.message))
  | .ok text =>
    match parse text with
    | .error e => .error (.bare (path ++ ": " ++ e.message))
    | .ok target => .ok target

def invalidName (name : Text) : Diagnostic :=
  .bare ("invalid target name '" ++ name ++ "'")

def unknown (name : Text) : Diagnostic :=
  (Diagnostic.bare ("unknown target '" ++ name ++ "' (looked for '" ++ path name ++ "')")).withHelp
    "available targets: gm20b, gk104, gf100"

/-- Whether a file that could not be read is there all the same. -/
def isPresent : Except FileFault Bytes → Bool
  | .error .missing | .error .notDirectory | .error .nameTooLong | .error .nulInName => false
  | _ => true

variable {m : Type → Type} [Monad m] [FileAccess m]

/-- Read the target that a file describes. -/
def load (path : Text) : m (Except Diagnostic Target) := do
  return ofFile path (← readFile path)

/-- Find a target by its name. -/
def resolve (name : Text) : m (Except Diagnostic Target) := do
  if isValidName name then
    if name = builtin.name then return .ok builtin
    else
      let content ← readFile (path name)
      return if isPresent content then ofFile (path name) content else .error (unknown name)
  else return .error (invalidName name)

end Target

end ShaderBackend
