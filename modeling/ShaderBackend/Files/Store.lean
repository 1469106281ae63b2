import ShaderBackend.Files.System
import ShaderBackend.Text.Basic

/-!
A store of files in memory, and the few files and devices of the system around it. Paths start from
its top directory.
-/

namespace ShaderBackend

structure Location where
  names : List Text
  deriving DecidableEq, Repr

namespace Location

def root : Location := { names := [] }

def top : Location := { names := ["tmp", "work"] }

def parent (l : Location) : Location :=
  { names := l.names.dropLast }

def isWithin (l outer : Location) : Bool :=
  outer.names.isPrefixOf l.names

def path (l : Location) : Text :=
  if l.names.isEmpty then "/" else l.names.flatMap ('/' :: ·)

/-- The names that lead somewhere else, and where. -/
def links : List (List Text × List Text) :=
  [(["bin"], ["usr", "bin"]), (["sbin"], ["usr", "sbin"]), (["lib"], ["usr", "lib"]),
    (["dev", "fd"], ["proc", "self", "fd"]), (["dev", "stdin"], ["proc", "self", "fd", "0"]),
    (["dev", "stdout"], ["proc", "self", "fd", "1"]),
    (["dev", "stderr"], ["proc", "self", "fd", "2"])]

/-- Where a name in a directory leads. -/
def child (l : Location) (name : Text) : Location :=
  let names := l.names ++ [name]
  { names := (links.lookup names).getD names }

end Location

/-- What is no file but can be read or written like one. -/
inductive Device where
  /-- Nothing is read, and what is written is lost. -/
  | null
  /-- Nothing can be written. -/
  | full
  /-- A terminal, which is not there. -/
  | terminal
  /-- What the program itself reads or writes. -/
  | stream
  deriving DecidableEq, Repr

structure Files where
  entries : List (Location × Bytes) := []
  /-- Directories that are there even if nothing is in them. -/
  directories : List Location := []
  deriving DecidableEq, Repr

namespace Files

inductive Entry where
  | file (bytes : Bytes)
  | program
  | device (d : Device)
  | directory
  | absent

def devices : List (List Text × Device) :=
  [(["dev", "null"], .null), (["dev", "zero"], .null), (["dev", "full"], .full),
    (["dev", "tty"], .terminal), (["proc", "self", "fd", "0"], .stream),
    (["proc", "self", "fd", "1"], .stream), (["proc", "self", "fd", "2"], .stream)]

def systemDirectories : List Location :=
  ([["dev"], ["tmp"], ["etc"], ["usr"], ["usr", "bin"], ["usr", "sbin"], ["usr", "lib"],
    ["usr", "local"], ["usr", "local", "bin"], ["usr", "local", "sbin"], ["home"], ["root"],
    ["var"], ["proc"], ["proc", "self"], ["proc", "self", "fd"], ["tmp", "work"]] :
    List (List String)).map fun names => { names := names.map String.toList }

/-- Where the system shows its processes, and no file can be made. -/
def processes : Location := { names := ["proc"] }

def programs : List Location :=
  (["cat", "cp", "dash", "echo", "false", "head", "mkdir", "mv", "printf", "rm", "sh", "sleep",
    "tail", "tee", "touch", "tr", "true", "wc"] : List String).map fun name =>
    { names := ["usr", "bin", name.toList] }

def programBytes : Bytes :=
  [0x7f, 0x45, 0x4c, 0x46] ++ List.replicate 60 0

def entry (f : Files) (l : Location) : Entry :=
  match devices.lookup l.names with
  | some d => .device d
  | none =>
    match f.entries.lookup l with
    | some bytes => .file bytes
    | none =>
      if programs.contains l then .program
      else if l.names.isEmpty || systemDirectories.contains l || f.directories.any (·.isWithin l) ||
        f.entries.any (·.1.isWithin l) then .directory
      else .absent

/-- Replace the file at a location, or add it. -/
def put (f : Files) (l : Location) (bytes : Bytes) : Files :=
  if f.entries.any (·.1 == l) then
    { f with entries := f.entries.map fun e => if e.1 == l then (l, bytes) else e }
  else { f with entries := f.entries ++ [(l, bytes)] }

def nameLimit : Nat := 255

def pathLimit : Nat := 4095

/-- Follow names from a directory. Each but the last has to lead to a directory; an empty name
leads to where it starts. -/
def follow (f : Files) : Location → List Text → Except FileFault Location
  | here, [] => .ok here
  | here, name :: rest =>
    match f.entry here with
    | .absent => .error .missing
    | .directory =>
      if name = [] ∨ name = "." then follow f here rest
      else if name = ".." then follow f here.parent rest
      else if nameLimit < Text.utf8Length name then .error .nameTooLong
      else follow f (here.child name) rest
    | _ => .error .notDirectory

/-- Where a path leads from the top directory. -/
def locate (f : Files) (path : Text) : Except FileFault Location :=
  if path.contains '\x00' then .error .nulInName
  else if pathLimit < Text.utf8Length path then .error .nameTooLong
  else
    match path with
    | [] => .error .missing
    | '/' :: rest => f.follow .root (List.splitOn '/' rest)
    | _ => f.follow .top (List.splitOn '/' path)

def read (f : Files) (path : Text) : Except FileFault Bytes := do
  match f.entry (← f.locate path) with
  | .file bytes => return bytes
  | .program => return programBytes
  | .device .terminal => .error .noDevice
  | .device _ => return []
  | .directory => .error .isDirectory
  | .absent => .error .missing

def status (f : Files) (path : Text) : Except FileFault FileStatus := do
  match f.entry (← f.locate path) with
  | .file bytes => return { kind := .regular, size := bytes.length }
  | .program => return { kind := .regular, size := programBytes.length, isExecutable := true }
  | .device .stream => return { kind := .pipe }
  | .device _ => return { kind := .device }
  | .directory => return { kind := .directory, size := 4096, isExecutable := true }
  | .absent => .error .missing

/-- A path without the slashes at its end, and whether there were any. -/
def withoutSlashes (path : Text) : Text × Bool :=
  let kept := (path.reverse.dropWhile (· == '/')).reverse
  if kept.isEmpty then (path, false) else (kept, kept.length < path.length)

/-- Where a file would be made. A name with a slash after it stands for a directory. -/
def locateNew (f : Files) (path : Text) : Except FileFault Location := do
  let (kept, isMarked) := withoutSlashes path
  let l ← f.locate kept
  match f.entry l with
  | .directory => .error .isDirectory
  | _ => if isMarked then .error .isDirectory else return l

def write (f : Files) (path : Text) (bytes : Bytes) : Except FileFault Files := do
  let l ← f.locateNew path
  match f.entry l with
  | .device .terminal => .error .noDevice
  | .device .full => if bytes.isEmpty then return f else .error .noSpace
  | .device _ => return f
  | .absent => if l.isWithin processes then .error .missing else return f.put l bytes
  | _ => return f.put l bytes

def list (f : Files) (path : Text) : Except FileFault (List Text) := do
  let l ← f.locate path
  match f.entry l with
  | .absent => .error .missing
  | .directory =>
    let known := f.entries.map (·.1) ++ f.directories ++ systemDirectories ++ programs ++
      (devices.map (·.1) ++ Location.links.map (·.1)).map Location.mk
    let below := known.filter (·.isWithin l)
    return (below.filterMap fun inner => (inner.names.drop l.names.length).head?).eraseDups
  | _ => .error .notDirectory

def makeDirectory (f : Files) (path : Text) : Except FileFault Files := do
  let l ← f.locate (withoutSlashes path).1
  match f.entry l with
  | .absent => return { f with directories := f.directories ++ [l] }
  | _ => .error .alreadyThere

/-- Remove a file. Its directory stays. -/
def remove (f : Files) (path : Text) : Except FileFault Files := do
  let l ← f.locate path
  match f.entry l with
  | .absent => .error .missing
  | .directory => .error .isDirectory
  | _ =>
    return {
      entries := f.entries.filter (·.1 != l)
      directories := f.directories ++ [l.parent] }

/-- Remove a directory that holds nothing. Its own directory stays. -/
def removeEmpty (f : Files) (path : Text) : Except FileFault Files := do
  let l ← f.locate path
  match f.entry l with
  | .absent => .error .missing
  | .directory =>
    if (f.entries.map (·.1) ++ f.directories).any fun inner => inner.isWithin l && inner != l then
      .error .notEmpty
    else return { f with directories := f.directories.filter (· != l) ++ [l.parent] }
  | _ => .error .notDirectory

/-- Let a change take place if it can. -/
def update (change : Files → Except FileFault Files) : StateM Files (Except FileFault Unit) := do
  match change (← get) with
  | .ok files => set files; return .ok ()
  | .error fault => return .error fault

end Files

instance : FileSystem (StateM Files) where
  readFile path := do return (← get).read path
  writeFile path bytes := Files.update (·.write path bytes)
  listDirectory path := do return (← get).list path
  createDirectory path := Files.update (·.makeDirectory path)
  removeFile path := Files.update (·.remove path)
  removeDirectory path := Files.update (·.removeEmpty path)
  currentDirectory := return Location.top.path
  fileStatus path := do return (← get).status path
  realPath path := do
    let files ← get
    return do
      let _ ← files.status path
      return (← files.locate path).path

end ShaderBackend
