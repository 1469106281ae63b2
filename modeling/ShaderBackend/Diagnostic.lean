import ShaderBackend.Text.Excerpt

/-!
Messages to the user. A diagnostic may point at a span of the source, and may carry notes and one
line of help.
-/

namespace ShaderBackend

inductive Severity where
  | error
  | warning
  deriving DecidableEq, Repr

def Severity.word : Severity → Text
  | .error => "error"
  | .warning => "warning"

structure Diagnostic where
  severity : Severity
  message : Text
  span : Span
  notes : List Text := []
  help : Option Text := none
  deriving DecidableEq, Repr

namespace Diagnostic

def error (message : Text) (span : Span) : Diagnostic :=
  { severity := .error, message, span }

def warning (message : Text) (span : Span) : Diagnostic :=
  { severity := .warning, message, span }

/-- An error that is not about any part of the source. -/
def bare (message : Text) : Diagnostic :=
  error message Span.dummy

def withNote (d : Diagnostic) (note : Text) : Diagnostic :=
  { d with notes := d.notes ++ [note] }

def withHelp (d : Diagnostic) (help : Text) : Diagnostic :=
  { d with help := some help }

def isError (d : Diagnostic) : Bool :=
  d.severity == .error

/-- The diagnostic as lines of text, without its place. -/
def plain (d : Diagnostic) : Text :=
  Text.unlines <|
    (d.severity.word ++ ": " ++ d.message) ::
      d.notes.map ("  note: ".toList ++ ·) ++ d.help.toList.map ("  help: ".toList ++ ·)

end Diagnostic

end ShaderBackend
