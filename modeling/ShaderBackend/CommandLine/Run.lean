import ShaderBackend.CommandLine.Build
import ShaderBackend.CommandLine.Inspect

/-!
A run of the program on its arguments.
-/

namespace ShaderBackend.CommandLine

def versionText : Text :=
  "dkshc 0.1.0\n"

variable {m : Type → Type} [Monad m] [FileAccess m] [ProcessAccess m]

/-- Do what the arguments ask for. Arguments that ask for nothing give exit code 2. -/
def run (args : List Text) : m Outcome :=
  match read args with
  | .error e => return { exitCode := 2, errors := Text.toUtf8 ("error: " ++ e.message ++ "\n") }
  | .ok .version => return { exitCode := 0, output := Text.toUtf8 versionText }
  | .ok (.help topic) => return { exitCode := 0, output := Text.toUtf8 topic.text }
  | .ok (.build arguments) => (build arguments).run
  | .ok (.inspect arguments) => (inspect arguments).run

end ShaderBackend.CommandLine
