import ShaderBackend.Shell.Utility.Basic

/-!
Programs that make, copy and remove files and directories.
-/

namespace ShaderBackend.Shell.Utility

variable {m : Type → Type} [Monad m] [FileSystem m]

def removeTree : Nat → Text → Run m (Except FileFault Unit)
  | 0, _ => return .error .notEmpty
  | depth + 1, path => do
    match ← (listDirectory path : m (Except FileFault (List Text))) with
    | .error _ => (removeFile path : m (Except FileFault Unit))
    | .ok names =>
      names.forM fun name => do
        let _ ← removeTree depth (path ++ "/" ++ name)
      (removeDirectory path : m (Except FileFault Unit))

def rm (args : List Text) : Run m Nat := do
  let a := Arguments.read { flags := "frRiv" } args
  start "rm" a do
    if a.operands.isEmpty && ! a.has 'f' then refuse "rm" "missing operand"
    else
      let results ← a.operands.mapM fun path => do
        let resolved ← Run.resolve path
        let result ← if a.has 'r' || a.has 'R' then do
            if ← isPresent path then removeTree 64 resolved else pure (.error .missing)
          else (removeFile resolved : m (Except FileFault Unit))
        match result with
        | .ok () => return 0
        | .error fault =>
          if a.has 'f' && fault == .missing then return 0
          else
            complain "rm" ("cannot remove '" ++ path ++ "': " ++ fault.reason)
            return 1
      return results.foldl max 0

def baseName (path : Text) : Text :=
  (path.reverse.dropWhile (· == '/')).takeWhile (· != '/') |>.reverse

/-- Where something with a name goes that is copied to a path. -/
def destination (source target : Text) : Run m Text := do
  let found ← (readFile (← Run.resolve target) : m (Except FileFault Bytes))
  match found with
  | .error .isDirectory => return target ++ "/" ++ baseName source
  | _ => return target

def transfer (program : Text) (moves : Bool) (args : List Text) : Run m Nat := do
  let a := Arguments.read { flags := "fipv" } args
  start program a <| match a.operands with
  | [] => refuse program "missing file operand"
  | [only] => refuse program ("missing destination file operand after '" ++ only ++ "'")
  | operands => do
    let target := operands.getLastD []
    let results ← operands.dropLast.mapM fun source => do
      match ← (readFile (← Run.resolve source) : m (Except FileFault Bytes)) with
      | .error .isDirectory =>
        complain program ("-r not specified; omitting directory '" ++ source ++ "'")
        return 1
      | .error fault =>
        complain program ("cannot stat '" ++ source ++ "': " ++ fault.reason)
        return 1
      | .ok bytes =>
        let path ← destination source target
        match ← store path bytes false with
        | .ok () =>
          if moves && path != source then
            let _ ← (removeFile (← Run.resolve source) : m (Except FileFault Unit))
          return 0
        | .error fault =>
          complain program ("cannot create regular file '" ++ path ++ "': " ++ fault.reason)
          return 1
    return results.foldl max 0

def leadingPaths (path : Text) : List Text :=
  let names := List.splitOn '/' path
  (List.range names.length).map fun n => List.intercalate "/" (names.take (n + 1))

def mkdir (args : List Text) : Run m Nat := do
  let a := Arguments.read { flags := "pv", valued := "m" } args
  start "mkdir" a do
    let results ← a.operands.mapM fun path => do
      let resolved ← Run.resolve path
      if a.has 'p' then
        (leadingPaths resolved).forM fun path => do
          if ! path.isEmpty then
            let _ ← (createDirectory path : m (Except FileFault Unit))
        return 0
      else
        match ← (createDirectory resolved : m (Except FileFault Unit)) with
        | .ok () => return 0
        | .error fault =>
          complain "mkdir" ("cannot create directory '" ++ path ++ "': " ++ fault.reason)
          return 1
    return results.foldl max 0

def touch (args : List Text) : Run m Nat := do
  let a := Arguments.read { flags := "acm" } args
  start "touch" a do
    let results ← a.operands.mapM fun path => do
      if ← isPresent path then return 0
      else
        match ← store path [] false with
        | .ok () => return 0
        | .error fault =>
          complain "touch" ("cannot touch '" ++ path ++ "': " ++ fault.reason)
          return 1
    return results.foldl max 0

end ShaderBackend.Shell.Utility
