import ShaderBackend.Diagnostic
import ShaderBackend.Program.Basic

/-!
What can be wrong with a line of a program, and the place it is wrong at. A reader gives back a
value and a list of problems, and nothing in their type keeps it from giving both or neither.
-/

namespace ShaderBackend

/-- The last register of a varying file is below this number. -/
def maxVaryingRegisters : Nat := 80

inductive Fault where
  | headerExpected (line : Text)
  | propertyShape
  | registerExpected
  | bracketExpected (register : Text)
  | unknownFile (name : Text)
  | unterminatedBracket
  | malformedRegister (register : Text)
  | numberExpected (found : Text)
  | emptyRange (first last : Nat)
  | invalidMask (mask : Text)
  | unorderedMask (mask : Text)
  | emptyMask
  | unexpectedTail (tail : Text)
  | registerPastLast (file : RegisterFile) (last : Nat)
  | malformedSemantic (text : Text)
  | semanticIndexPastLast (index : Nat)
  | unknownImmediateType (kind : Text)
  | bracesExpected
  | immediateSize (count : Nat)
  | invalidLabel (word : Text)
  | instructionExpected (line : Text)
  deriving DecidableEq, Repr

namespace Fault

def quoted (t : Text) : Text :=
  "'" ++ t ++ "'"

def message : Fault → Text
  | headerExpected line => "expected processor header, found " ++ quoted line
  | propertyShape => "expected 'PROPERTY <NAME> <VALUE>'"
  | registerExpected => "expected a register after DCL"
  | bracketExpected register => "expected '[' in register " ++ quoted register
  | unknownFile name => "unknown register file " ++ quoted name
  | unterminatedBracket => "unterminated '['"
  | malformedRegister register => "malformed register " ++ quoted register
  | numberExpected found => "expected a number, found " ++ quoted found
  | emptyRange first last =>
    "empty register range " ++ Text.decimal first ++ ".." ++ Text.decimal last
  | invalidMask mask => "invalid write mask " ++ quoted ('.' :: mask)
  | unorderedMask mask =>
    "write mask " ++ quoted ('.' :: mask) ++ " must list components in xyzw order"
  | emptyMask => "empty write mask"
  | unexpectedTail tail => "unexpected " ++ quoted tail ++ " after register"
  | registerPastLast file last =>
    file.name ++ " register " ++ Text.decimal last ++ " is past the last of " ++
      Text.decimal maxVaryingRegisters
  | malformedSemantic text => "malformed semantic " ++ quoted text
  | semanticIndexPastLast index =>
    "semantic index " ++ Text.decimal index ++ " is past the last of " ++
      Text.decimal maxSemanticIndex
  | unknownImmediateType kind => "unknown immediate type " ++ quoted kind
  | bracesExpected => "expected '\x7b ... \x7d' after immediate type"
  | immediateSize count =>
    "immediate must have 1 to 4 values, found " ++ Text.decimal count
  | invalidLabel word => "invalid instruction label " ++ quoted word
  | instructionExpected line => "expected an instruction, found " ++ quoted line

end Fault

/-- A fault and the bytes it is about. -/
structure Problem where
  fault : Fault
  span : Span
  deriving DecidableEq, Repr

def Problem.diagnostic (p : Problem) : Diagnostic :=
  .error p.fault.message p.span

/-- What a reader gives back: a value, if there is one, and what it reported on the way. -/
structure Reading (α : Type) where
  value : Option α
  problems : List Problem
  deriving DecidableEq, Repr

namespace Reading

variable {α β : Type}

@[match_pattern] abbrev ok (a : α) : Reading α := ⟨some a, []⟩

/-- Go on with the value. Without one the rest is not read, and what was reported stays. -/
protected def bind (x : Reading α) (f : α → Reading β) : Reading β :=
  match x.value with
  | some a => ⟨(f a).value, x.problems ++ (f a).problems⟩
  | none => ⟨none, x.problems⟩

instance : Monad Reading where
  pure := ok
  bind := Reading.bind

protected def map (f : α → β) (x : Reading α) : Reading β :=
  ⟨x.value.map f, x.problems⟩

end Reading

/-- Report a fault at an excerpt, without a value. -/
def Excerpt.fail {α : Type} (e : Excerpt) (fault : Fault) : Reading α :=
  ⟨none, [⟨fault, e.span⟩]⟩

end ShaderBackend
