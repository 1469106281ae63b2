import ShaderBackend.Generator.Reply
import ShaderBackend.Process
import ShaderBackend.Text.Blank
import ShaderBackend.Text.Utf8

/-!
Code generators that are programs. A generator is started for each request, reads the text of it,
and writes its reply.
-/

namespace ShaderBackend

/-- A generator's program and its arguments. -/
structure GeneratorCommand where
  command : Text
  args : List Text := []
  deriving DecidableEq, Repr

namespace GeneratorCommand

/-- The words of a command line. -/
def ofLine? (line : Text) : Option GeneratorCommand :=
  match Text.words line with
  | [] => none
  | command :: args => some { command, args }

/-- The status that stands for how a generator ended: the code, made negative. -/
def failureStatus : Ending → Int32
  | .code n => -(Int32.ofNat n)
  | .signal _ => -1

/-- What a generator's process answered. A process that failed without a reply tells why on its
error stream. -/
def answer (o : ProcessOutcome) : Except Failure Generated :=
  if o.ending != .code 0 && o.output.length < Reply.headerLength then
    let errors := Text.trim (Text.ofUtf8Lossy o.errors)
    .error {
      status := failureStatus o.ending
      detail := if errors.isEmpty then none else some errors }
  else Reply.decode o.output

variable {m : Type → Type} [Monad m] [ProcessAccess m]

/-- Why a program could not be started. -/
def refusal (g : GeneratorCommand) (reason : Text) : Failure :=
  .exchange ("failed to run '" ++ g.command ++ "': " ++ reason)

/-- Have a program generate code. No text with a NUL can be passed to a program. -/
def generate (g : GeneratorCommand) (r : Request) : m (Except Failure Generated) := do
  if (g.command :: g.args).any (·.contains '\x00') then
    return .error (g.refusal "nul byte found in provided data")
  else
    match ← runProcess g.command g.args (Text.toUtf8 r.render) with
    | .error fault => return .error (g.refusal fault.message)
    | .ok outcome => return answer outcome

end GeneratorCommand

end ShaderBackend
