import ShaderBackend.Files.Access

/-!
Access to all that a system keeps in directories, for programs that also list, make and remove what
is there and ask what it is.
-/

namespace ShaderBackend

inductive FileKind where
  | regular
  | directory
  | device
  | pipe
  deriving DecidableEq, Repr

/-- What is known of a file without reading it. -/
structure FileStatus where
  kind : FileKind
  size : Nat := 0
  isExecutable : Bool := false
  deriving DecidableEq, Repr

class FileSystem (m : Type → Type) extends FileAccess m where
  /-- The names in a directory, in any order. -/
  listDirectory : Text → m (Except FileFault (List Text))
  createDirectory : Text → m (Except FileFault Unit)
  removeFile : Text → m (Except FileFault Unit)
  /-- Remove a directory that holds nothing. -/
  removeDirectory : Text → m (Except FileFault Unit)
  /-- The directory that paths start from. -/
  currentDirectory : m Text
  fileStatus : Text → m (Except FileFault FileStatus)
  /-- The path from the root to a file that is there, through no links. -/
  realPath : Text → m (Except FileFault Text)

export FileSystem (listDirectory createDirectory removeFile removeDirectory currentDirectory
  fileStatus realPath)

end ShaderBackend
