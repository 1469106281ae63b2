import ShaderBackend.Shell.Builtin.Basic

/-!
What the names of commands stand for, and the commands that tell or change it.
-/

namespace ShaderBackend.Shell

/-- The directories that are searched if nothing else is said. -/
def defaultPath : Text :=
  "/usr/local/sbin:/usr/local/bin:/usr/sbin:/usr/bin:/sbin:/bin"

variable {m : Type → Type} [Monad m] [FileSystem m]

/-- The first program of a name in some directories, or why there is none. A file that is no program
is a reason, but the search goes on. -/
def searchDirectories (name : Text) : FileFault → List Text → Run m (Except FileFault Text)
  | fault, [] => return .error fault
  | fault, directory :: rest => do
    let path := if directory.isEmpty then name else directory ++ "/" ++ name
    match ← (fileStatus (← Run.resolve path) : m (Except FileFault FileStatus)) with
    | .ok status =>
      if status.kind == .regular && status.isExecutable then return .ok path
      else searchDirectories name .denied rest
    | .error .missing | .error .notDirectory => searchDirectories name fault rest
    | .error other => searchDirectories name other rest

def searchPath (path name : Text) : Run m (Except FileFault Text) :=
  searchDirectories name .missing (List.splitOn ':' path)

/-- The program of a name, which is remembered. -/
def findProgram (name : Text) : Run m (Except FileFault Text) := do
  let path := (← Run.value? "PATH").getD []
  match (← get).found.lookup name with
  | some path => return .ok path
  | none =>
    match ← searchPath path name with
    | .ok program =>
      modify fun s => { s with found := s.found ++ [(name, program)] }
      return .ok program
    | .error fault => return .error fault

namespace Builtin

def builtinNames : List Text :=
  (["[", "alias", "bg", "cd", "chdir", "command", "echo", "false", "fg", "getopts", "hash", "jobs",
    "kill", "printf", "pwd", "read", "test", "true", "type", "ulimit", "umask", "unalias", "wait"] :
    List String).map String.toList

def specialNames : List Text :=
  "local".toList :: specialCommands

/-- What a name stands for, as the shell would find it. -/
inductive Found where
  | keyword
  | aliased (value : Text)
  | special
  | function
  | builtin
  | program (path : Text) (isRemembered : Bool)
  | nothing

/-- What a name stands for, on a search path if one is given. -/
def find (name : Text) (path : Option Text) : Run m Found := do
  let s ← get
  if Token.keywords.contains name then return .keyword
  else
    match s.aliases.lookup name with
    | some value => return .aliased value
    | none =>
      if specialNames.contains name then return .special
      else if s.functions.any (·.1 == name) then return .function
      else if builtinNames.contains name then return .builtin
      else if name.contains '/' then
        return if ← isPresent name then .program name false else .nothing
      else
        match path, s.found.lookup name with
        | none, some program => return .program program true
        | _, _ =>
          let usual := (← Run.value? "PATH").getD []
          match ← searchPath (path.getD usual) name with
          | .ok program => return .program program false
          | .error _ => return .nothing

def shownAlias (name value : Text) : Text :=
  name ++ "=" ++ singleQuoted value ++ "\n"

def describe (name : Text) (path : Option Text) : Run m Nat := do
  let say (t : Text) : Run m Nat := put "type" (name ++ t ++ "\n")
  match ← find name path with
  | .keyword => say " is a shell keyword"
  | .aliased value => say (" is an alias for " ++ value)
  | .special => say " is a special shell builtin"
  | .function => say " is a shell function"
  | .builtin => say " is a shell builtin"
  | .program path isRemembered =>
    say ((if isRemembered then " is a tracked alias for " else " is ") ++ path)
  | .nothing =>
    let _ ← say ": not found"
    return 127

def locate (name : Text) (path : Option Text) : Run m Nat := do
  match ← find name path with
  | .program path _ => put "command" (path ++ "\n")
  | .aliased value => put "command" ("alias " ++ shownAlias name value)
  | .nothing => return 127
  | _ => put "command" (name ++ "\n")

def describeCommand (args : List Text) : Run m Nat := do
  let (options, names) ← readOptions "pvV" [] args
  let has (c : Char) : Bool := options.any (·.1 == c)
  let path := if has 'p' then some defaultPath else none
  match names with
  | [] => return 0
  | name :: _ =>
    if has 'V' then describe name path else if has 'v' then locate name path else return 0

/-- The key by which names are kept together. -/
def tableKey (name : Text) : Nat :=
  name.foldl (fun n c => n + c.toNat) ((name.headD '\x00').toNat * 16)

def inTableOrder {α : Type} (size : Nat) (names : List (Text × α)) : List (Text × α) :=
  names.mergeSort fun a b => tableKey a.1 % size ≤ tableKey b.1 % size

/-- Show, forget or look for programs. -/
def hash (args : List Text) : Run m Nat := do
  let (options, names) ← readOptions "r" [] args
  if ! options.isEmpty then
    modify fun s => { s with found := [] }
    return 0
  else if names.isEmpty then
    put "hash" ((inTableOrder 31 (← get).found).flatMap fun (_, path) => path ++ "\n")
  else
    forEach names fun name => do
      modify fun s => { s with found := s.found.filter (·.1 != name) }
      let s ← get
      if name.contains '/' || specialNames.contains name || builtinNames.contains name ||
        s.functions.any (·.1 == name) then return 0
      else
        match ← findProgram name with
        | .ok _ => return 0
        | .error fault =>
          let reason : Text := if fault == .missing then "not found" else fault.reason
          Run.complain (name ++ ": " ++ reason)
          return 1

def setAlias (name value : Text) : Run m Unit :=
  modify fun s => { s with
    aliases := if s.aliases.any (·.1 == name) then
        s.aliases.map fun e => if e.1 == name then (name, value) else e
      else s.aliases ++ [(name, value)] }

/-- The name and the value of an alias that an argument sets. The name has at least one
character. -/
def aliasSetting? : Text → Option (Text × Text)
  | [] => none
  | c :: rest => (Text.cut? '=' rest).map fun (name, value) => (c :: name, value)

def aliasCommand (args : List Text) : Run m Nat := do
  let aliases := (← get).aliases
  if args.isEmpty then
    put "alias" ((inTableOrder 39 aliases).flatMap fun (name, value) => shownAlias name value)
  else
    forEach args fun arg => do
      match aliasSetting? arg with
      | some (name, value) =>
        setAlias name value
        return 0
      | none =>
        match (← get).aliases.lookup arg with
        | some value => put "alias" (shownAlias arg value)
        | none =>
          Run.printError ("alias: " ++ arg ++ " not found\n")
          return 1

def unalias (args : List Text) : Run m Nat := do
  let (options, names) ← readOptions "a" [] args
  if ! options.isEmpty then
    modify fun s => { s with aliases := [] }
    return 0
  else
    forEach names fun name => do
      let s ← get
      if s.aliases.any (·.1 == name) then
        set { s with aliases := s.aliases.filter (·.1 != name) }
        return 0
      else
        Run.printError ("unalias: " ++ name ++ " not found\n")
        return 1

end Builtin

end ShaderBackend.Shell
