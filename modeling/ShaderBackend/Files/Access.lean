import ShaderBackend.Bytes
import ShaderBackend.Text.Number

/-!
Access to files, as an effect. The program reads and writes whole files; which files are there is
left to the instance.
-/

namespace ShaderBackend

/-- Why a file cannot be read or written. -/
inductive FileFault where
  | missing
  | noDevice
  | denied
  | alreadyThere
  | notDirectory
  | isDirectory
  | noSpace
  | nameTooLong
  | notEmpty
  | notText
  | nulInName
  deriving DecidableEq, Repr

namespace FileFault

def reason : FileFault → Text
  | missing => "No such file or directory"
  | noDevice => "No such device or address"
  | denied => "Permission denied"
  | .alreadyThere => "File exists"
  | notDirectory => "Not a directory"
  | isDirectory => "Is a directory"
  | noSpace => "No space left on device"
  | nameTooLong => "File name too long"
  | notEmpty => "Directory not empty"
  | notText => "stream did not contain valid UTF-8"
  | nulInName => "file name contained an unexpected NUL byte"

/-- The number that the system gives the fault, if it comes from there. -/
def number? : FileFault → Option Nat
  | missing => some 2
  | noDevice => some 6
  | denied => some 13
  | .alreadyThere => some 17
  | notDirectory => some 20
  | isDirectory => some 21
  | noSpace => some 28
  | nameTooLong => some 36
  | notEmpty => some 39
  | notText => none
  | nulInName => none

def message (f : FileFault) : Text :=
  f.reason ++
    match f.number? with
    | some n => " (os error " ++ Text.decimal n ++ ")"
    | none => []

end FileFault

class FileAccess (m : Type → Type) where
  readFile : Text → m (Except FileFault Bytes)
  /-- Make the bytes all that a file holds. -/
  writeFile : Text → Bytes → m (Except FileFault Unit)

export FileAccess (readFile writeFile)

/-- The stream that a path of the system stands for. -/
def streamOfPath? (path : Text) : Option Nat :=
  if path.head? == some '/' then
    match (List.splitOn '/' path).filter fun (name : Text) => ! name.isEmpty && name != "." with
    | [directory, name] =>
      if directory ≠ "dev" then none
      else if name = "stdin" then some 0
      else if name = "stdout" then some 1
      else if name = "stderr" then some 2
      else none
    | [directory, list, n] =>
      if directory = "dev" ∧ list = "fd" then streamNumber? n else none
    | [system, self, list, n] =>
      if system = "proc" ∧ self = "self" ∧ list = "fd" then streamNumber? n else none
    | _ => none
  else none
where
  streamNumber? (n : Text) : Option Nat :=
    match Text.readNumber? 10 n with
    | some value => if Text.decimal value = n then some value else none
    | none => none

end ShaderBackend
