import ShaderBackend.Files.Access

/-!
Other programs, as an effect. A program is started with arguments and an input, and is waited for.
-/

namespace ShaderBackend

/-- How a process ended. -/
inductive Ending where
  | code (n : Nat)
  | signal (n : Nat)
  deriving DecidableEq, Repr

/-- What a process did. -/
structure ProcessOutcome where
  ending : Ending
  output : Bytes := []
  errors : Bytes := []
  deriving DecidableEq, Repr

class ProcessAccess (m : Type → Type) where
  /-- Start a program by its name, with arguments and an input, and wait for its end. -/
  runProcess : Text → List Text → Bytes → m (Except FileFault ProcessOutcome)

export ProcessAccess (runProcess)

end ShaderBackend
