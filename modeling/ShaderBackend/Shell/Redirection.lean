import ShaderBackend.Shell.Expansion

/-!
What the redirections of a command do to its descriptors. All of them are worked out before the
first is opened.
-/

namespace ShaderBackend.Shell

inductive Opening where
  | file (kind : RedirectKind) (path : Text)
  | share (descriptor : Nat)
  | close
  /-- A document, which is worked out when it is opened. -/
  | text (body : Word)

namespace Opening

variable {m : Type → Type} [Monad m] [FileSystem m]

/-- Refuse what is no descriptor. -/
def refuseDescriptor {α : Type} : Run m α := do
  modify fun s => { s with line := s.scriptLine }
  Run.fail "Syntax error: Bad fd number"

/-- Work out where a redirection leads. -/
def ofRedirect (capture : Command → Run m Text) : Redirect → Run m (Nat × Opening)
  | .mk descriptor kind target => do
    match kind with
    | .document key => return (descriptor, .text (((← get).documents.lookup key).getD []))
    | .share =>
      match ← expandWhole capture target with
      | ['-'] => return (descriptor, .close)
      | [c] =>
        if c.isDigit then return (descriptor, .share (c.toNat - '0'.toNat))
        else refuseDescriptor
      | _ => refuseDescriptor
    | kind => return (descriptor, .file kind (← expandWhole capture target))

/-- Complain about a redirection, which then has failed. -/
def refuse (what : Text) : Run m Bool := do
  Run.complain what
  return false

def reason (fault : FileFault) (whenMissing : Text) : Text :=
  if fault == .missing || fault == .notDirectory then whenMissing else fault.reason

def cannotOpen (path : Text) (fault : FileFault) : Text :=
  "cannot open " ++ path ++ ": " ++ reason fault "No such file"

def cannotCreate (path : Text) (fault : FileFault) : Text :=
  "cannot create " ++ path ++ ": " ++ reason fault "Directory nonexistent"

def access : RedirectKind → Access
  | .read => { reads := true }
  | .append => { writes := true, appends := true }
  | .readWrite => { reads := true, writes := true }
  | _ => { writes := true }

def openForReading (resolved : Text) : Run m (Except FileFault Handle) := do
  match ← (fileStatus resolved : m (Except FileFault FileStatus)) with
  | .error fault => return .error fault
  | .ok { kind := .directory, .. } => return .ok .directory
  | .ok { kind := .regular, .. } => return .ok (.file resolved 0 (access .read))
  | .ok _ =>
    let found ← (readFile resolved : m (Except FileFault Bytes))
    return found.map fun _ => .device resolved (access .read)

/-- Open a file for writing. One that is there stays as it is if something is added to it or it is
also read. -/
def openForWriting (kind : RedirectKind) (resolved : Text) : Run m (Except FileFault Handle) := do
  let status ← (fileStatus resolved : m (Except FileFault FileStatus))
  let keeps := kind == .append || kind == .readWrite
  match status with
  | .ok { kind := .regular, .. } =>
    if keeps then return .ok (.file resolved 0 (access kind))
  | _ => pure ()
  let isFile := match status with
    | .ok { kind := .device, .. } | .ok { kind := .pipe, .. } => false
    | _ => true
  let result ← (writeFile resolved [] : m (Except FileFault Unit))
  return result.map fun () =>
    if isFile then .file resolved 0 (access kind) else .device resolved (access kind)

/-- Open the file at a path for a redirection. A file that is there is not written over if files are
to be kept. -/
def openFile (kind : RedirectKind) (path resolved : Text) : Run m (Except Text Handle) := do
  if kind == .read then
    return (← openForReading resolved).mapError (cannotOpen path)
  else
    let status ← (fileStatus resolved : m (Except FileFault FileStatus))
    let keepsFiles := (← get).has .keepsFiles
    match kind == .write && keepsFiles, status with
    | true, .ok { kind := .regular, .. } => return .error (cannotCreate path .alreadyThere)
    | true, .ok _ => return (← openForWriting kind resolved).mapError (cannotOpen path)
    | _, _ => return (← openForWriting kind resolved).mapError (cannotCreate path)

/-- Let a descriptor lead where it is to lead. -/
def apply (capture : Command → Run m Text) (descriptor : Nat) : Opening → Run m Bool
  | close => do
    Run.close descriptor
    return true
  | text body => do
    match ← Run.caught (expandDocument capture body) with
    | .ok t =>
      Run.point descriptor (← Run.addHandle (.source (toBytes t)))
      return true
    | .error .failed => return false
    | .error stop => throw stop
  | share other => do
    match ← Run.handle? other with
    | some (index, _) =>
      Run.point descriptor index
      return true
    | none => refuse (Text.decimal other ++ ": Bad file descriptor")
  | file kind path => do
    let resolved ← Run.resolve path
    let openAt (place : Text) : Run m Bool := do
      match ← openFile kind path place with
      | .ok h =>
        Run.point descriptor (← Run.addHandle h)
        return true
      | .error what => refuse what
    match streamOfPath? resolved with
    | none => openAt resolved
    | some other =>
      match ← Run.handle? other with
      | some (_, .file place _ _) | some (_, .device place _) => openAt place
      | some (index, _) =>
        Run.point descriptor index
        return true
      | none =>
        refuse (if kind == .read then cannotOpen path .missing else cannotCreate path .missing)

/-- Open one after the other until one fails. -/
def applyAll (capture : Command → Run m Text) : List (Nat × Opening) → Run m Bool
  | [] => return true
  | (descriptor, o) :: rest => do
    if ← o.apply capture descriptor then applyAll capture rest else return false

end Opening

end ShaderBackend.Shell
