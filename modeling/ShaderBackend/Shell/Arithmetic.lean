import ShaderBackend.Text.Number

/-!
Arithmetic on 64-bit integers, with the operators and precedences of the shell. A variable stands
for the number that its value is; an assignment changes it for what follows. The value of an
expression is worked out while it is read, so that of two faults the first counts.
-/

namespace ShaderBackend.Shell

namespace Arithmetic

inductive Lexeme where
  | number (n : Int)
  | name (t : Text)
  | operator (o : Text)
  deriving DecidableEq, Repr

/-- Why an expression has no value. -/
inductive Fault where
  /-- The expression is wrong in itself. -/
  | malformed (what : Text)
  /-- A variable has a value that is no number. -/
  | notNumber (value : Text)
  deriving DecidableEq, Repr

def Fault.message (expression : Text) : Fault → Text
  | malformed what => "arithmetic expression: " ++ what ++ ": \"" ++ expression ++ "\""
  | notNumber value => "Illegal number: " ++ value

def greatest : Int := 0x7fffffffffffffff

def wrap (n : Int) : Int :=
  Int.bmod n 0x10000000000000000

/-- The value of digits, which stays at the greatest number once it is reached. -/
def digits (base : Nat) (t : Text) : Int :=
  min greatest ((t.foldl (fun n c => n * base + (Text.digitValue? c).getD 0) 0 : Nat) : Int)

def isBelow (base : Nat) (c : Char) : Bool :=
  ((Text.digitValue? c).getD base) < base

/-- The number at the start of a text, and its length: octal after a zero, hexadecimal after
`0x`. -/
def number (t : Text) : Int × Nat :=
  match t with
  | '0' :: x :: rest =>
    let hexadecimal := rest.takeWhile (isBelow 16)
    if (x == 'x' || x == 'X') && ! hexadecimal.isEmpty then
      (digits 16 hexadecimal, hexadecimal.length + 2)
    else
      let octal := t.takeWhile (isBelow 8)
      (digits 8 octal, octal.length)
  | _ =>
    let decimal := t.takeWhile (isBelow 10)
    (digits 10 decimal, decimal.length)

def operators : List Text :=
  (["<<=", ">>=", "<<", ">>", "<=", ">=", "==", "!=", "&&", "||", "+=", "-=", "*=", "/=", "%=",
    "&=", "|=", "^=", "+", "-", "*", "/", "%", "<", ">", "=", "&", "|", "^", "!", "~", "(", ")",
    "?", ":"] : List String).map String.toList

def isSpace (c : Char) : Bool :=
  c == ' ' || ('\t' ≤ c && c ≤ '\r')

def lexemes : Nat → Text → List Lexeme
  | 0, _ => []
  | _, [] => []
  | fuel + 1, c :: rest =>
    if isSpace c then lexemes fuel rest
    else if c.isDigit then
      let (n, length) := number (c :: rest)
      .number n :: lexemes fuel ((c :: rest).drop length)
    else if c.isAlpha || c == '_' then
      let name := (c :: rest).takeWhile fun c => c.isAlphanum || c == '_'
      .name name :: lexemes fuel ((c :: rest).drop name.length)
    else
      match operators.find? (·.isPrefixOf (c :: rest)) with
      | some o => .operator o :: lexemes fuel ((c :: rest).drop o.length)
      | none => .operator [c] :: lexemes fuel rest

def strength? (o : Text) : Option Nat :=
  if o = "||" then some 1
  else if o = "&&" then some 2
  else if o = "|" then some 3
  else if o = "^" then some 4
  else if o = "&" then some 5
  else if o = "==" ∨ o = "!=" then some 6
  else if o = "<" ∨ o = ">" ∨ o = "<=" ∨ o = ">=" then some 7
  else if o = "<<" ∨ o = ">>" then some 8
  else if o = "+" ∨ o = "-" then some 9
  else if o = "*" ∨ o = "/" ∨ o = "%" then some 10
  else none

/-- The operator of an assignment, empty if the value is taken as it is. -/
def assignment? (o : Text) : Option Text :=
  if o = "=" then some []
  else if ["<<=", ">>=", "+=", "-=", "*=", "/=", "%=", "&=", "|=", "^="].contains
      (String.ofList o) then
    some o.dropLast
  else none

def valueNumber (value : Text) : Except Fault Int :=
  let t := value.dropWhile isSpace
  let (sign, t) := match t with
    | '-' :: rest => ((-1 : Int), rest)
    | '+' :: rest => (1, rest)
    | _ => (1, t)
  let (n, length) := number t
  if length = 0 ∨ ! (t.drop length).all isSpace then
    if value.all isSpace then .ok 0 else .error (.notNumber value)
  else .ok (sign * n)

def truth (b : Bool) : Int :=
  if b then 1 else 0

def unsigned (n : Int) : Nat :=
  (n % 0x10000000000000000).toNat

def apply (o : Text) (a b : Int) : Except Fault Int :=
  if o = "+" then .ok (wrap (a + b))
  else if o = "-" then .ok (wrap (a - b))
  else if o = "*" then .ok (wrap (a * b))
  else if o = "/" ∨ o = "%" then
    if b = 0 then .error (.malformed "division by zero")
    else .ok (wrap (if o = "/" then Int.tdiv a b else Int.tmod a b))
  else if o = "<<" then .ok (wrap (a <<< (unsigned b % 64)))
  else if o = ">>" then .ok (a >>> (unsigned b % 64))
  else if o = "<" then .ok (truth (a < b))
  else if o = ">" then .ok (truth (a > b))
  else if o = "<=" then .ok (truth (a ≤ b))
  else if o = ">=" then .ok (truth (a ≥ b))
  else if o = "==" then .ok (truth (a == b))
  else if o = "!=" then .ok (truth (a != b))
  else if o = "&" then .ok (wrap ((unsigned a &&& unsigned b : Nat) : Int))
  else if o = "|" then .ok (wrap ((unsigned a ||| unsigned b : Nat) : Int))
  else if o = "^" then .ok (wrap ((unsigned a ^^^ unsigned b : Nat) : Int))
  else .ok b

/-- What is left of an expression, and the values that assignments have given, the last one
first. -/
structure Progress where
  rest : List Lexeme
  changes : List (Text × Text) := []

abbrev Evaluation := StateT Progress (Except Fault)

namespace Evaluation

def skip (rest : List Lexeme) : Evaluation Unit :=
  modify fun p => { p with rest }

def expect (o : Text) (orElse : Text) : Evaluation Unit := do
  match (← get).rest with
  | .operator p :: rest => if p = o then skip rest else throw (.malformed orElse)
  | _ => throw (.malformed orElse)

section

variable (bindings : Text → Option Text)

def lookup (name : Text) : Evaluation Int := do
  let value := ((← get).changes.lookup name).orElse fun _ => bindings name
  match valueNumber (value.getD []) with
  | .ok n => return n
  | .error fault => throw fault

/-- Give a variable a value, by an operator on the one it has or as it is. -/
def assign (target o : Text) (right : Int) : Evaluation Int := do
  let left ← if o.isEmpty then pure 0 else lookup bindings target
  match apply o left right with
  | .ok n =>
    modify fun p => { p with changes := (target, Text.signedDecimal n) :: p.changes }
    return n
  | .error fault => throw fault

/-- Whether the right operand counts, after the left one. -/
def countsRight (o : Text) (left : Int) : Bool :=
  if o = "&&" then left != 0 else if o = "||" then left == 0 else true

def combine (o : Text) (left right : Int) : Except Fault Int :=
  if o = "&&" then .ok (truth (left != 0 && right != 0))
  else if o = "||" then .ok (truth (left != 0 || right != 0))
  else apply o left right

mutual

/-- The value of an assignment, or of what can stand on its right. Where nothing counts, nothing is
looked up, assigned or divided. -/
def assignment : Nat → Bool → Evaluation Int
  | 0, _ => throw (.malformed "expecting primary")
  | fuel + 1, counts => do
    match (← get).rest with
    | .name target :: .operator o :: rest =>
      match assignment? o with
      | some o =>
        skip rest
        let right ← assignment fuel counts
        if counts then assign bindings target o right else return right
      | none => conditional fuel counts
    | _ => conditional fuel counts

def conditional : Nat → Bool → Evaluation Int
  | 0, _ => throw (.malformed "expecting primary")
  | fuel + 1, counts => do
    let first ← primary fuel counts
    let c ← binary fuel counts 1 first
    match (← get).rest with
    | .operator o :: rest =>
      if o = "?" then
        skip rest
        let a ← assignment fuel (counts && c != 0)
        expect ":" "expecting ':'"
        let b ← conditional fuel (counts && c == 0)
        return if c = 0 then b else a
      else return c
    | _ => return c

/-- Go on after an operand, as long as operators of at least some strength follow. -/
def binary : Nat → Bool → Nat → Int → Evaluation Int
  | 0, _, _, _ => throw (.malformed "expecting primary")
  | fuel + 1, counts, least, left => do
    match (← get).rest with
    | .operator o :: rest =>
      match strength? o with
      | some s =>
        if least ≤ s then
          skip rest
          let countsToo := counts && countsRight o left
          let operand ← primary fuel countsToo
          let right ← binary fuel countsToo (s + 1) operand
          match if counts then combine o left right else .ok right with
          | .ok n => binary fuel counts least n
          | .error fault => throw fault
        else return left
      | none => return left
    | _ => return left

def primary : Nat → Bool → Evaluation Int
  | 0, _ => throw (.malformed "expecting primary")
  | fuel + 1, counts => do
    match (← get).rest with
    | .number n :: rest =>
      skip rest
      return n
    | .name t :: rest =>
      skip rest
      if counts then lookup bindings t else return 0
    | .operator o :: rest =>
      if o = "(" then
        skip rest
        let n ← assignment fuel counts
        expect ")" "expecting ')'"
        return n
      else if o = "+" ∨ o = "-" ∨ o = "!" ∨ o = "~" then
        skip rest
        let n ← primary fuel counts
        return if o = "-" then wrap (-n)
          else if o = "!" then truth (n == 0)
          else if o = "~" then -n - 1
          else n
      else throw (.malformed "expecting primary")
    | [] => throw (.malformed "expecting primary")

end

end

end Evaluation

/-- The value of an expression, and the variables it gives a new value, the last one first. -/
def evaluate (bindings : Text → Option Text) (expression : Text) :
    Except Fault (Int × List (Text × Text)) := do
  let rest := lexemes expression.length expression
  let (n, progress) ← (Evaluation.assignment bindings (4 * rest.length + 4) true).run { rest }
  if progress.rest.isEmpty then return (n, progress.changes)
  else throw (.malformed "expecting EOF")

end Arithmetic

end ShaderBackend.Shell
