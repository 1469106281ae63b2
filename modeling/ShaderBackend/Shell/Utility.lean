import ShaderBackend.Shell.Utility.Cat
import ShaderBackend.Shell.Utility.Filter
import ShaderBackend.Shell.Utility.Tree

/-!
The programs that a shell can start. Each gives the code it ends with.
-/

namespace ShaderBackend.Shell.Utility

variable {m : Type → Type} [Monad m] [FileSystem m]

def printf : List Text → Run m Nat
  | [] => refuse "printf" "missing operand"
  | template :: args => do
    let f := format template args
    let status ← put "printf" (toBytes f.text)
    (f.complaints ++ f.refusal.toList).forM (complain "printf")
    return if f.complaints.isEmpty && f.refusal.isNone then status else 1

def find? (name : Text) : Option (List Text → Run m Nat) :=
  if name = "cat" then some cat
  else if name = "head" then some head
  else if name = "tail" then some tail
  else if name = "wc" then some wc
  else if name = "tr" then some tr
  else if name = "tee" then some tee
  else if name = "rm" then some rm
  else if name = "cp" then some (transfer "cp" false)
  else if name = "mv" then some (transfer "mv" true)
  else if name = "mkdir" then some mkdir
  else if name = "touch" then some touch
  else if name = "true" then some fun _ => return 0
  else if name = "false" then some fun _ => return 1
  else if name = "sleep" then some fun _ => return 0
  else if name = "echo" then some fun args => put "echo" (toBytes (echo args false))
  else if name = "printf" then some printf
  else none

end ShaderBackend.Shell.Utility
