import ShaderBackend.Text.Basic

/-!
The ways of working that a shell can be told to take, by a letter or by a name.
-/

namespace ShaderBackend.Shell

inductive Flag where
  | exitOnError
  | noPatterns
  | ignoreEnd
  | interactive
  | jobControl
  | noExecution
  | readsInput
  | trace
  | verbose
  | viKeys
  | emacsKeys
  /-- Files that are there are not written over. -/
  | keepsFiles
  | exportsAll
  | notifies
  | noUnset
  | privileged
  | noLog
  | debug
  deriving DecidableEq, Repr

namespace Flag

/-- All flags, in the order in which they are shown. -/
def all : List Flag :=
  [exitOnError, noPatterns, ignoreEnd, interactive, jobControl, noExecution, readsInput, trace,
    verbose, viKeys, emacsKeys, keepsFiles, exportsAll, notifies, noUnset, privileged, noLog, debug]

def name : Flag → Text
  | exitOnError => "errexit"
  | noPatterns => "noglob"
  | ignoreEnd => "ignoreeof"
  | interactive => "interactive"
  | jobControl => "monitor"
  | noExecution => "noexec"
  | readsInput => "stdin"
  | trace => "xtrace"
  | verbose => "verbose"
  | viKeys => "vi"
  | emacsKeys => "emacs"
  | keepsFiles => "noclobber"
  | exportsAll => "allexport"
  | notifies => "notify"
  | noUnset => "nounset"
  | privileged => "privileged"
  | noLog => "nolog"
  | debug => "debug"

def letter? : Flag → Option Char
  | exitOnError => some 'e'
  | noPatterns => some 'f'
  | ignoreEnd => some 'I'
  | interactive => some 'i'
  | jobControl => some 'm'
  | noExecution => some 'n'
  | readsInput => some 's'
  | trace => some 'x'
  | verbose => some 'v'
  | viKeys => some 'V'
  | emacsKeys => some 'E'
  | keepsFiles => some 'C'
  | exportsAll => some 'a'
  | notifies => some 'b'
  | noUnset => some 'u'
  | privileged => some 'p'
  | noLog => none
  | debug => none

def ofLetter? (c : Char) : Option Flag :=
  all.find? (·.letter? == some c)

def ofName? (name : Text) : Option Flag :=
  all.find? (·.name == name)

end Flag

structure Options where
  flags : List Flag := []
  deriving DecidableEq, Repr

namespace Options

def has (o : Options) (f : Flag) : Bool :=
  o.flags.contains f

/-- The flags that go out when the letter of another is given. -/
def excluded : Flag → List Flag
  | .viKeys => [.emacsKeys]
  | .emacsKeys => [.viKeys]
  | _ => []

def turn (o : Options) (f : Flag) (on : Bool) : Options :=
  let others := o.flags.filter (· != f)
  { flags := if on then f :: others else others }

/-- The letters of the flags that are on, those shown last first. -/
def letters (o : Options) : Text :=
  ((Flag.all.filter o.has).filterMap Flag.letter?).reverse

def table (o : Options) : Text :=
  let line (f : Flag) : Text :=
    let value : Text := if o.has f then "on\n" else "off\n"
    f.name ++ List.replicate (16 - f.name.length) ' ' ++ value
  "Current option settings\n" ++ Flag.all.flatMap line

def commands (o : Options) : Text :=
  let line (f : Flag) : Text :=
    let start : Text := if o.has f then "set -o " else "set +o "
    start ++ f.name ++ "\n"
  Flag.all.flatMap line

end Options

end ShaderBackend.Shell
