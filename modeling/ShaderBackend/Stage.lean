import ShaderBackend.Text.Basic

/-!
The stages of the graphics pipeline, with the names and numbers that belong to each: the word that
selects a stage, the header that opens its programs, its tag in a module, and where its resources
start in the driver's constant buffer.
-/

namespace ShaderBackend

inductive Stage where
  | vertex
  | tessControl
  | tessEval
  | geometry
  | fragment
  | compute
  deriving DecidableEq, Repr

namespace Stage

/-- Every stage, in pipeline order. -/
def all : List Stage :=
  [vertex, tessControl, tessEval, geometry, fragment, compute]

/-- The word that selects a stage. -/
def mnemonic : Stage → Text
  | vertex => "vert"
  | tessControl => "tess_ctrl"
  | tessEval => "tess_eval"
  | geometry => "geom"
  | fragment => "frag"
  | compute => "comp"

def ofMnemonic? (t : Text) : Option Stage :=
  all.find? (·.mnemonic == t)

/-- The header line of the stage's programs. -/
def processor : Stage → Text
  | vertex => "VERT"
  | tessControl => "TESS_CTRL"
  | tessEval => "TESS_EVAL"
  | geometry => "GEOM"
  | fragment => "FRAG"
  | compute => "COMP"

def ofProcessor? (t : Text) : Option Stage :=
  all.find? (·.processor == t)

/-- The tag of the stage's programs in a module. -/
def programType : Stage → UInt32
  | vertex => 0
  | fragment => 1
  | geometry => 2
  | tessControl => 3
  | tessEval => 4
  | compute => 5

def ofProgramType? (tag : UInt32) : Option Stage :=
  all.find? (·.programType == tag)

/-- Where the stage's resources start in the driver's constant buffer. -/
def resourceBase : Stage → Nat
  | vertex => 0x010
  | tessControl => 0x1b0
  | tessEval => 0x350
  | geometry => 0x4f0
  | fragment => 0x690
  | compute => 0x080

end Stage

end ShaderBackend
