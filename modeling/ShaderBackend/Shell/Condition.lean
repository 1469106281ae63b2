import ShaderBackend.Shell.Expansion
import ShaderBackend.Shell.Output

/-!
Conditions on texts, numbers and files.
-/

namespace ShaderBackend.Shell

namespace Condition

def unaryOperators : List Text :=
  (["-n", "-z", "-b", "-c", "-d", "-e", "-f", "-g", "-h", "-k", "-p", "-r", "-s", "-t", "-u", "-w",
    "-x", "-L", "-O", "-G", "-S"] : List String).map String.toList

def binaryOperators : List Text :=
  (["=", "!=", "<", ">", "-eq", "-ne", "-gt", "-ge", "-lt", "-le", "-nt", "-ot", "-ef"] :
    List String).map String.toList

inductive Word where
  | unary (o : Text)
  | binary (o : Text)
  | andAlso
  | orElse
  | negation
  | openParen
  | closeParen
  | operand
  | nothing
  deriving DecidableEq, Repr

def operator? (t : Text) : Option Word :=
  if unaryOperators.contains t then some (.unary t)
  else if binaryOperators.contains t then some (.binary t)
  else if t = "-a" then some .andAlso
  else if t = "-o" then some .orElse
  else if t = "!" then some .negation
  else if t = "(" then some .openParen
  else if t = ")" then some .closeParen
  else none

def isBinary (t : Text) : Bool :=
  binaryOperators.contains t

def isOperand : List Text → Bool
  | _ :: [] => true
  | _ :: _ :: [] => false
  | _ :: next :: _ :: _ => isBinary next
  | [] => true

def classify : List Text → Word
  | [] => .nothing
  | t :: rest =>
    match operator? t with
    | some (.unary o) => if isOperand (t :: rest) then .operand else .unary o
    | some .openParen => if rest.isEmpty then .operand else .openParen
    | some w => w
    | none => .operand

variable {m : Type → Type} [Monad m] [FileSystem m]

def number (t : Text) : Run m Int := do
  let digits := t.dropWhile isBlankChar
  let (sign, digits) := match digits with
    | '-' :: rest => ((-1 : Int), rest)
    | '+' :: rest => (1, rest)
    | _ => (1, digits)
  let good := digits.takeWhile Char.isDigit
  let n : Int := sign * (good.foldl (fun n c => n * 10 + (c.toNat - '0'.toNat)) 0 : Nat)
  if good.isEmpty || ! (digits.drop good.length).all isBlankChar || (fit true n).2 then
    Run.fail ("Illegal number: " ++ t)
  else return n

/-- Where a path leads, through no links. -/
def placeOf (path : Text) : Run m (Except FileFault Text) := do
  (realPath (← Run.resolve path) : m (Except FileFault Text))

def isLink (path : Text) : Run m Bool := do
  let kept := (path.reverse.dropWhile (· != '/')).reverse
  let name := path.drop kept.length
  if name.isEmpty || name = "." || name = ".." then return false
  else
    let directory ← placeOf (if kept.isEmpty then "." else kept)
    match directory, ← placeOf path with
    | .ok directory, .ok place =>
      return place != (if directory = "/" then directory else directory ++ "/") ++ name
    | _, _ => return false

def fileHas (o : Text) (status : FileStatus) : Bool :=
  if o = "-f" then status.kind == .regular
  else if o = "-d" then status.kind == .directory
  else if o = "-c" then status.kind == .device
  else if o = "-p" then status.kind == .pipe
  else if o = "-x" then status.isExecutable
  else if o = "-s" then status.size != 0
  else o = "-e" || o = "-r" || o = "-w" || o = "-O" || o = "-G"

def unary (o operand : Text) : Run m Bool := do
  if o = "-n" then return ! operand.isEmpty
  else if o = "-z" then return operand.isEmpty
  else if o = "-t" then
    let _ ← number operand
    return false
  else if o = "-h" ∨ o = "-L" then isLink operand
  else
    match ← statusOf operand with
    | .ok status => return fileHas o status
    | .error _ => return false

def samePlace (a b : Text) : Run m Bool := do
  match ← placeOf a, ← placeOf b with
  | .ok a, .ok b => return a == b
  | _, _ => return false

def binary (o a b : Text) : Run m Bool := do
  if o = "=" then return a == b
  else if o = "!=" then return a != b
  else if o = "<" then return decide (a < b)
  else if o = ">" then return decide (b < a)
  else if o = "-nt" ∨ o = "-ot" then return false
  else if o = "-ef" then samePlace a b
  else
    let x ← number a
    let y ← number b
    return if o = "-eq" then x == y
      else if o = "-ne" then x != y
      else if o = "-gt" then x > y
      else if o = "-ge" then x ≥ y
      else if o = "-lt" then x < y
      else x ≤ y

/-- The value of a condition at the start of the arguments, read with what the first of them is, and
the arguments from its last one on. -/
inductive Level where
  | disjunction
  | conjunction
  | negated
  | single

def evaluate : Nat → Level → Word → List Text → Run m (Bool × List Text)
  | 0, _, _, args => return (false, args)
  | fuel + 1, level, w, args => do
    match level with
    | .disjunction =>
      let (value, args) ← evaluate fuel .conjunction w args
      match classify args.tail with
      | .orElse =>
        let next := args.drop 2
        let (more, args) ← evaluate fuel .disjunction (classify next) next
        return (value || more, args)
      | _ => return (value, args)
    | .conjunction =>
      let (value, args) ← evaluate fuel .negated w args
      match classify args.tail with
      | .andAlso =>
        let next := args.drop 2
        let (more, args) ← evaluate fuel .conjunction (classify next) next
        return (value && more, args)
      | _ => return (value, args)
    | .negated =>
      if w = .negation then
        let next := classify args.tail
        let others := if next = .nothing then args else args.tail
        let (value, args) ← evaluate fuel .negated next others
        return (! value, args)
      else evaluate fuel .single w args
    | .single =>
      match w, args with
      | .nothing, _ => return (false, args)
      | .openParen, _ :: rest =>
        if classify rest = .closeParen then return (false, rest)
        else
          let (value, args) ← evaluate fuel .disjunction (classify rest) rest
          if classify args.tail = .closeParen then return (value, args.tail)
          else Run.fail "closing paren expected"
      | .unary o, _ :: operand :: rest => return (← unary o operand, operand :: rest)
      | .unary o, _ => Run.fail (o ++ ": argument expected")
      | _, a :: o :: b :: rest =>
        if isBinary o then return (← binary o a b, b :: rest) else return (! a.isEmpty, args)
      | _, a :: o :: [] =>
        if isBinary o then Run.fail (o ++ ": argument expected") else return (! a.isEmpty, args)
      | _, a :: _ => return (! a.isEmpty, args)
      | _, [] => return (false, [])

/-- The value of a condition with any number of arguments. Conditions of three or four arguments are
read from the operator in their middle, or from what is around them. -/
def holds : Nat → List Text → Run m Bool
  | 0, _ => return false
  | fuel + 1, args => do
    let rest (w : Word) (args : List Text) : Run m Bool := do
      let (value, left) ← evaluate (2 * args.length + 8) .disjunction w args
      match left with
      | t :: _ :: _ =>
        Run.fail ((if t.isEmpty then [] else t ++ ": ".toList) ++ "unexpected operator")
      | _ => return value
    match args with
    | [] => return false
    | [a, o, b] =>
      if isBinary o then rest .operand args
      else if a = "!" then return ! (← holds fuel [o, b])
      else if a = "(" ∧ b = ")" then rest (classify [o]) [o]
      else rest (classify args) args
    | [a, o, p, b] =>
      if a = "!" then return ! (← holds fuel [o, p, b])
      else if a = "(" ∧ b = ")" then rest (classify [o, p]) [o, p]
      else rest (classify args) args
    | _ => rest (classify args) args

end Condition

end ShaderBackend.Shell
