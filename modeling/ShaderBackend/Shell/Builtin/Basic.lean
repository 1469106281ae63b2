import ShaderBackend.Shell.Condition
import ShaderBackend.Shell.Grammar
import ShaderBackend.Shell.Quoting

/-!
What the commands of the shell have in common: what they can run, how they write, and how the
letters of their options are read.
-/

namespace ShaderBackend.Shell

inductive Task where
  /-- A command, whose failure may be asked about, and which may be the last thing that a process
  does. -/
  | command (c : Command) (isTested isFinal : Bool)
  /-- The lines of a script, after some that ended with a status. -/
  | script (r : Reader) (isTested : Bool) (status : Nat)
  /-- The rounds of a loop that are left, after some that ended with a status. -/
  | rounds (whileFailing : Bool) (condition body : Command) (isTested : Bool) (status : Nat)
  /-- The rounds of a loop over fields. -/
  | roundsOver (name : Text) (fields : List Text) (body : Command) (isTested : Bool) (status : Nat)

namespace Builtin

variable {m : Type → Type} [Monad m] [FileSystem m]

def reader (script : Text) (isFile : Bool) : Run m Reader := do
  return { rest := script, nextKey := (← get).nextDocument, isFile }

def runInside (run : Task → Run m Nat) (r : Reader) (isTested : Bool) (status : Nat) :
    Run m Nat := do
  let line := (← get).scriptLine
  let result ← Run.caught (run (.script r isTested status))
  modify fun s => { s with scriptLine := line }
  ofExcept result

def put (name t : Text) : Run m Nat := do
  if t.isEmpty then return 0
  match ← Run.write 1 (toBytes t) with
  | .ok () => return 0
  | .error _ =>
    Run.complain (name ++ ": I/O error")
    return 1

/-- The options of a command that are letters, and the other arguments. -/
def letterOptions (known valued : Text) : Nat → List Text → Run m (List (Char × Text) × List Text)
  | 0, args => return ([], args)
  | _, [] => return ([], [])
  | fuel + 1, arg :: rest => do
    match arg with
    | ['-', '-'] => return ([], rest)
    | '-' :: c :: more =>
      if valued.contains c then
        match more, rest with
        | [], value :: rest =>
          let (options, rest) ← letterOptions known valued fuel rest
          return ((c, value) :: options, rest)
        | [], [] => Run.fail ("No arg for -" ++ [c] ++ " option")
        | value, rest =>
          let (options, rest) ← letterOptions known valued fuel rest
          return ((c, value) :: options, rest)
      else if known.contains c then
        let next := if more.isEmpty then rest else ('-' :: more) :: rest
        let (options, rest) ← letterOptions known valued fuel next
        return ((c, []) :: options, rest)
      else Run.fail ("Illegal option -" ++ [c])
    | _ => return ([], arg :: rest)

/-- The options of a command, and the other arguments. -/
def readOptions (known valued : Text) (args : List Text) : Run m (List (Char × Text) × List Text) :=
  letterOptions known valued (args.flatten.length + args.length + 1) args

/-- The arguments of a command that has no options. -/
def plainArguments (args : List Text) : Run m (List Text) := do
  return (← readOptions [] [] args).2

/-- Run a command for each of some arguments, and give the greatest status. -/
def forEach (args : List Text) (action : Text → Run m Nat) : Run m Nat := do
  return (← args.mapM action).foldl max 0

end Builtin

end ShaderBackend.Shell
