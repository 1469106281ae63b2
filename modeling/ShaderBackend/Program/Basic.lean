import ShaderBackend.Text.Excerpt
import ShaderBackend.Varying.Interface

/-!
Token programs, the form in which a shader reaches the back-end: properties, declarations of
registers, immediates and instructions, each with the span of its line. The operands of an
instruction are kept as they are written.
-/

namespace ShaderBackend

inductive RegisterFile where
  | input
  | output
  | systemValue
  | temporary
  | constant
  | address
  | sampler
  | samplerView
  | buffer
  | image
  | memory
  deriving DecidableEq, Repr

namespace RegisterFile

def name : RegisterFile → Text
  | input => "IN"
  | output => "OUT"
  | systemValue => "SV"
  | temporary => "TEMP"
  | constant => "CONST"
  | address => "ADDR"
  | sampler => "SAMP"
  | samplerView => "SVIEW"
  | buffer => "BUFFER"
  | image => "IMAGE"
  | memory => "MEMORY"

def names : List (Text × RegisterFile) :=
  [("IN", input), ("OUT", output), ("SV", systemValue), ("TEMP", temporary), ("CONST", constant),
    ("ADDR", address), ("SAMP", sampler), ("SVIEW", samplerView), ("BUFFER", buffer),
    ("IMAGE", image), ("MEMORY", memory)]

def ofName? (t : Text) : Option RegisterFile :=
  names.lookup t

/-- Whether the registers of the file are varyings. -/
def isVarying : RegisterFile → Bool
  | input | output => true
  | _ => false

/-- Whether a declaration in the file can carry a semantic. -/
def hasSemantic : RegisterFile → Bool
  | input | output | systemValue => true
  | _ => false

end RegisterFile

/-- A range of registers of one file, and the components of them that are used. -/
structure Register where
  file : RegisterFile
  dimension : Option Nat := none
  first : Nat
  last : Nat
  mask : UInt8 := 0xf
  deriving DecidableEq, Repr

/-- The largest 32-bit number; counts and indices stop there. -/
def maxNumber : Nat := 0xffffffff

/-- The number of registers in the range. -/
def Register.count (r : Register) : Nat :=
  min (r.last + 1 - r.first) maxNumber

/-- The semantic of a declaration: a known role, or another name. -/
inductive Binding where
  | role (semantic : Semantic) (index : Nat)
  | other (name : Text) (index : Nat)
  deriving DecidableEq, Repr

namespace Binding

def semantic? : Binding → Option Semantic
  | role semantic _ => some semantic
  | other .. => none

def index : Binding → Nat
  | role _ index => index
  | other _ index => index

def name : Binding → Text
  | role semantic _ => semantic.name
  | other name _ => name

end Binding

structure Property where
  name : Text
  value : Text
  span : Span := .dummy
  deriving DecidableEq, Repr

structure Declaration extends Register where
  binding : Option Binding := none
  attributes : List Text := []
  span : Span := .dummy
  deriving DecidableEq, Repr

structure Immediate where
  kind : Text
  values : List Text
  span : Span := .dummy
  deriving DecidableEq, Repr

structure Instruction where
  opcode : Text
  operands : List Text
  span : Span := .dummy
  deriving DecidableEq, Repr

structure Program where
  stage : Stage
  properties : List Property := []
  declarations : List Declaration := []
  immediates : List Immediate := []
  instructions : List Instruction := []
  deriving DecidableEq, Repr

namespace Declaration

/-- The role and first index of the varyings of a declaration. Vertex attributes are declared
without a semantic, and are numbered by their registers. -/
def base (d : Declaration) : Semantic × Nat :=
  match d.binding with
  | some (.role semantic index) => (semantic, index)
  | _ => (.generic, d.first)

/-- What a fragment program writes as its position is the depth. -/
def role (stage : Stage) (d : Declaration) : Semantic :=
  if stage = .fragment ∧ d.file = .output ∧ d.base.1 = .position then .fragDepth else d.base.1

/-- One varying for each register of the declaration. -/
def varyings (stage : Stage) (d : Declaration) : List Varying :=
  (List.range d.count).map fun k =>
    Varying.withMask
      { semantic := d.role stage, index := min (d.base.2 + k) maxNumber } d.mask

end Declaration

namespace Program

def tokenCount (p : Program) : Nat :=
  p.properties.length + p.declarations.length + p.immediates.length + p.instructions.length

/-- The value of a property; the last one of that name counts. -/
def property? (p : Program) (name : Text) : Option Text :=
  (p.properties.reverse.find? (·.name == name)).map (·.value)

/-- The value of a property as a number, decimal or hexadecimal after `0x`. -/
def propertyNumber? (p : Program) (name : Text) : Option Nat :=
  match p.property? name with
  | none => none
  | some value =>
    match List.isPrefixOf? "0x".toList value with
    | some digits => Text.readNumber? 16 digits
    | none => Text.readNumber? 10 value

/-- Whether a property is a number other than zero. -/
def flag (p : Program) (name : Text) : Bool :=
  match p.propertyNumber? name with
  | some value => value != 0
  | none => false

/-- The shared memory of a compute program. -/
def sharedMemory (p : Program) : Nat :=
  if p.stage = .compute then (p.propertyNumber? "CS_SHARED_SIZE").getD 0 else 0

def readsSystemValue (p : Program) (semantic : Semantic) : Bool :=
  p.declarations.any fun d =>
    d.file == .systemValue && d.binding.bind Binding.semantic? == some semantic

def varyings (p : Program) (file : RegisterFile) : List Varying :=
  (p.declarations.filter (·.file == file)).flatMap (·.varyings p.stage)

/-- The interface that the program declares, without slots. -/
def interface (p : Program) (target : Nat) : Interface :=
  { stage := p.stage, target, inputs := p.varyings .input, outputs := p.varyings .output }

end Program

end ShaderBackend
