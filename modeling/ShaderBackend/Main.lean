import ShaderBackend.CommandLine.Run
import ShaderBackend.Shell.Run

/-!
The program: files are those of the machine, and the two streams are written at the end of the run.
-/

namespace ShaderBackend

/-- The fault that the system reports. -/
def FileFault.ofSystem : IO.Error → FileFault
  | .permissionDenied .. => .denied
  | .inappropriateType .. => .isDirectory
  | .alreadyExists .. => .alreadyThere
  | .unsatisfiedConstraints .. => .notEmpty
  | _ => .missing

/-- Do something with files, and see what is wrong. -/
def attempt {α : Type} (action : IO α) : IO (Except FileFault α) := do
  try return .ok (← action) catch e => return .error (.ofSystem e)

/-- What the machine's own kinds of files are here. -/
def FileKind.ofSystem : IO.FS.FileType → FileKind
  | .dir => .directory
  | .file => .regular
  | _ => .device

instance : FileSystem IO where
  readFile path := attempt do return (← IO.FS.readBinFile (String.ofList path)).toList
  writeFile path bytes := attempt (IO.FS.writeBinFile (String.ofList path) ⟨bytes.toArray⟩)
  listDirectory path := attempt do
    let entries ← ((← IO.currentDir) / String.ofList path).readDir
    return (entries.map (·.fileName.toList)).toList
  createDirectory path := attempt (IO.FS.createDir (String.ofList path))
  removeFile path := attempt (IO.FS.removeFile (String.ofList path))
  removeDirectory path := attempt (IO.FS.removeDir (String.ofList path))
  currentDirectory := do return (← IO.currentDir).toString.toList
  fileStatus path := attempt do
    let found ← ((← IO.currentDir) / String.ofList path).metadata
    let real := (← IO.FS.realPath (String.ofList path)).toString
    return {
      kind := .ofSystem found.type
      size := found.byteSize.toNat
      isExecutable := real.startsWith "/usr/bin/" }
  realPath path := attempt do return (← IO.FS.realPath (String.ofList path)).toString.toList

end ShaderBackend

def main (args : List String) : IO UInt32 := do
  let outcome : ShaderBackend.CommandLine.Outcome ←
    ShaderBackend.CommandLine.run (args.map String.toList)
  (← IO.getStdout).write ⟨outcome.output.toArray⟩
  (← IO.getStderr).write ⟨outcome.errors.toArray⟩
  return UInt32.ofNat outcome.exitCode
