import ShaderBackend.Shell.Command
import ShaderBackend.Text.Number

/-!
The state of reading a script: what is left of it, and the documents that begin at the next line. A
token that was read too far is put back.
-/

namespace ShaderBackend.Shell

inductive Token where
  | endOfFile
  | newline
  | semicolon
  | ampersand
  | andIf
  | orIf
  | bar
  | openParen
  | closeParen
  | endArm
  | redirect (descriptor : Nat) (kind : RedirectKind)
  /-- A document follows, whose lines may lose the tabs in front. -/
  | document (descriptor : Nat) (dropTabs : Bool)
  /-- A word, with its text if nothing in it is quoted or replaced. -/
  | word (w : Word) (literal : Option Text)
  | keyword (k : Text)

namespace Token

def name : Token → Text
  | endOfFile => "end of file"
  | newline => "newline"
  | semicolon => "\";\""
  | ampersand => "\"&\""
  | andIf => "\"&&\""
  | orIf => "\"||\""
  | bar => "\"|\""
  | openParen => "\"(\""
  | closeParen => "\")\""
  | endArm => "\";;\""
  | redirect .. => "redirection"
  | document .. => "redirection"
  | word .. => "word"
  | keyword k => "\"" ++ k ++ "\""

def keywords : List Text :=
  ["!", "case", "do", "done", "elif", "else", "esac", "fi", "for", "if", "in", "then", "until",
    "while", "\x7b", "\x7d"]

def closingKeywords : List Text :=
  ["do", "done", "elif", "else", "esac", "fi", "then", "\x7d"]

def endsList : Token → Bool
  | endOfFile | closeParen | endArm => true
  | keyword k => closingKeywords.contains k
  | _ => false

def isKeyword (k : Text) : Token → Bool
  | keyword other => k == other
  | _ => false

end Token

structure PendingDocument where
  key : Nat
  delimiter : Text
  quoted : Bool
  dropTabs : Bool

/-- Whether a document is being read, and where it ends. -/
inductive DocumentPlace where
  | outside
  /-- The document is all that is left. -/
  | text
  /-- The document ends at a line that is the delimiter. -/
  | lines (delimiter : Text) (dropTabs : Bool)
  /-- The document has ended, and this comes after it. -/
  | ended (after : Text)
  deriving DecidableEq

structure ActiveAlias where
  name : Text
  /-- How much is left of the script after it. -/
  restLength : Nat
  /-- Whether the word after it can be an alias too. -/
  goesOn : Bool

structure Reader where
  rest : Text
  line : Nat := 1
  pushed : Option Token := none
  pending : List PendingDocument := []
  documents : List (Nat × Word) := []
  nextKey : Nat := 0
  aliases : List (Text × Text) := []
  active : List ActiveAlias := []
  /-- Whether the script comes from a file. -/
  isFile : Bool := false
  /-- Whether this is the file that the shell was started with. -/
  isBase : Bool := false
  /-- Whether the script comes from the input, which may go on. -/
  isInput : Bool := false
  document : DocumentPlace := .outside
  /-- The last word that was read. -/
  lastWord : Word := []
  /-- Whether the word that is read is a delimiter, in which nothing is replaced. -/
  atDelimiter : Bool := false

namespace Reader

/-- Whether an alias is still being read, or has ended with the last word. -/
def isReading (r : Reader) (a : ActiveAlias) : Bool :=
  a.restLength ≤ r.rest.length

/-- What a word stands for, unless it is in what it stands for itself. -/
def aliasOf? (r : Reader) (word : Text) : Option Text :=
  if r.active.any fun a => a.name == word && r.isReading a then none else r.aliases.lookup word

def reading (r : Reader) (name value : Text) : Reader :=
  if value.isEmpty then r
  else
    let goesOn := value.getLast? == some ' ' || value.getLast? == some '\t'
    { r with
      rest := value ++ r.rest
      active := { name, restLength := r.rest.length, goesOn } :: r.active.filter r.isReading }

/-- Whether reading on has gone past an alias after which the next word can be one too. -/
def goesOnTo (before after : Reader) : Bool :=
  before.active.any fun a => a.goesOn && before.isReading a && ! after.isReading a

/-- More than the number of tokens that can be left, as long as aliases do not make it grow without
end. -/
def bound (r : Reader) : Nat :=
  r.rest.length + 2 + if r.aliases.isEmpty then 0 else 1000000

/-- The aliases that are being read, as seen from a text inside what is read. -/
def activeInside (r : Reader) : List ActiveAlias :=
  (r.active.filter r.isReading).map fun a => { a with restLength := 0 }

end Reader

/-- Why a script cannot be read on, and the line where that was found. -/
structure ReadError where
  line : Nat
  message : Text

abbrev Read := StateT Reader (Except ReadError)

namespace Read

def fail {α : Type} (message : Text) : Read α := do
  throw ⟨(← get).line, "Syntax error: " ++ message⟩

def unexpected {α : Type} (t : Token) : Read α :=
  fail (t.name ++ " unexpected")

def unexpectedFor {α : Type} (t expected : Token) : Read α :=
  fail (t.name ++ " unexpected (expecting " ++ expected.name ++ ")")

def skip (count : Nat) : Read Unit :=
  modify fun r => { r with
    rest := r.rest.drop count
    line := r.line + (r.rest.take count).count '\n' }

def rest : Read Text := do
  return (← get).rest

def line : Read Nat := do
  return (← get).line

/-- What is left after line feeds that backslashes take away, and how many those are. -/
def joined : Text → Text × Nat
  | '\\' :: '\n' :: rest =>
    let (rest, count) := joined rest
    (rest, count + 1)
  | t => (t, 0)

def joinLines : Read Unit :=
  modify fun r =>
    let (rest, count) := joined r.rest
    { r with rest, line := r.line + count }

def peek : Read (Option Char) := do
  joinLines
  return (← rest).head?

def next : Read (Option Char) := do
  let c ← peek
  modify fun r => { r with rest := r.rest.tail }
  return c

def putBack (t : Token) : Read Unit :=
  modify fun r => { r with pushed := some t }

/-- Go past the characters that satisfy `p`. -/
def takeWhile (p : Char → Bool) : Read Text := do
  let taken := (← rest).takeWhile p
  skip taken.length
  return taken

/-- Go past the characters of lines that are joined that satisfy `p`. -/
def takeJoined (p : Char → Bool) : Nat → Read Text
  | 0 => return []
  | fuel + 1 => do
    match ← peek with
    | some c =>
      if p c then
        let _ ← next
        return c :: (← takeJoined p fuel)
      else return []
    | none => return []

end Read

def isNameStart (c : Char) : Bool :=
  c.isAlpha || c == '_'

def isNameRest (c : Char) : Bool :=
  isNameStart c || c.isDigit

def isName : Text → Bool
  | c :: rest => isNameStart c && rest.all isNameRest
  | [] => false

end ShaderBackend.Shell
