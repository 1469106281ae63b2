import ShaderBackend.Shell.Builtin.Names
import ShaderBackend.Shell.Utility

/-!
The programs that a shell can start, and where they are found.
-/

namespace ShaderBackend.Shell

inductive Program (m : Type → Type) where
  | shell
  | utility (action : List Text → Run m Nat)

namespace Program

variable {m : Type → Type} [Monad m] [FileSystem m]

def find? (name : Text) : Option (Program m) :=
  if name = "sh" ∨ name = "dash" then some shell else (Utility.find? name).map utility

/-- Where programs are. -/
def directory : Text :=
  "/usr/bin/"

def atPath (path : Text) : m (Except FileFault (Program m)) := do
  match ← fileStatus path with
  | .error fault => return .error fault
  | .ok status =>
    if status.kind == .regular && status.isExecutable then
      let real := (← realPath path).toOption.getD path
      match (directory.isPrefixOf? real).bind find? with
      | some p => return .ok p
      | none => return .error .denied
    else return .error .denied

/-- The first program of a name in some directories. What is there and is no program is the fault
that counts. -/
def inDirectories (name : Text) : FileFault → List Text → m (Except FileFault (Program m))
  | fault, [] => return .error fault
  | fault, directory :: rest => do
    match ← atPath (directory ++ "/" ++ name) with
    | .ok p => return .ok p
    | .error .denied => inDirectories name .denied rest
    | .error _ => inDirectories name fault rest

def nameLimit : Nat := 255

/-- The program that a command names by its path, or by its name alone. -/
def locate (command : Text) : m (Except FileFault (Program m)) := do
  if command.contains '/' then atPath command
  else if command.isEmpty then return .error .missing
  else if nameLimit < Text.utf8Length command then return .error .nameTooLong
  else inDirectories command .missing (List.splitOn ':' defaultPath)

end Program

end ShaderBackend.Shell
