import ShaderBackend.Text.Basic

/-!
Commands as they are written. A word is a list of parts, of which some are replaced when the command
runs; a command is a tree of words, redirections and other commands. In the shell a text has one
character for each byte.
-/

namespace ShaderBackend.Shell

inductive Parameter where
  | positional (n : Nat)
  | count
  /-- The arguments, each for itself. -/
  | each
  /-- The arguments as one text. -/
  | all
  | processId
  | status
  /-- The process that was started last in the background. -/
  | lastProcess
  | options
  | named (name : Text)
  deriving DecidableEq, Repr

/-- What is done about a parameter that has no value. -/
inductive Fallback where
  | substitute
  | assign
  | complain
  /-- Nothing, and a word in the place of a value. -/
  | invert
  deriving DecidableEq, Repr

inductive RedirectKind where
  | read
  | write
  /-- Write also over a file that is to be kept. -/
  | overwrite
  | append
  | readWrite
  /-- Use what another descriptor leads to. -/
  | share
  /-- Read the lines that follow, of which the number is the key. -/
  | document (key : Nat)
  deriving DecidableEq, Repr

mutual

inductive Part where
  | text (t : Text) (quoted : Bool)
  | parameter (p : Parameter) (use : Use) (quoted : Bool)
  /-- What a command writes. -/
  | output (body : Command) (quoted : Bool)
  | arithmetic (expression : List Part) (quoted : Bool)

inductive Use where
  | value
  | length
  /-- Another word if the parameter is unset, or also if it is empty. -/
  | fallback (f : Fallback) (orEmpty : Bool) (word : List Part)
  /-- Without the part at one end that matches a pattern. -/
  | trim (atEnd longest : Bool) (pattern : List Part)
  | invalid

inductive Redirect where
  | mk (descriptor : Nat) (kind : RedirectKind) (target : List Part)

inductive Assignment where
  | mk (name : Text) (value : List Part)

inductive Arm where
  | mk (patterns : List (List Part)) (body : Command)

inductive Command where
  | nothing
  | simple (line : Nat) (assignments : List Assignment) (words : List (List Part))
      (redirects : List Redirect)
  | redirected (line : Nat) (body : Command) (redirects : List Redirect)
  | subshell (line : Nat) (body : Command) (redirects : List Redirect)
  | sequence (first second : Command)
  | both (first second : Command)
  | either (first second : Command)
  | negation (body : Command)
  | pipeline (commands : List Command)
  | background (body : Command)
  | branch (condition yes no : Command)
  /-- A loop that goes on as long as the condition succeeds, or as long as it fails. -/
  | loop (whileFailing : Bool) (condition body : Command)
  | each (line : Nat) (name : Text) (words : List (List Part)) (body : Command)
  | choice (line : Nat) (subject : List Part) (arms : List Arm)
  | definition (name : Text) (body : Command)

end

abbrev Word := List Part

instance : Inhabited Command := ⟨.nothing⟩

end ShaderBackend.Shell
