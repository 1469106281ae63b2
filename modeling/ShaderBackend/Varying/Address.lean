import ShaderBackend.Text.Number
import ShaderBackend.Varying.Semantic

/-!
The fixed layout of the attribute register file, once for inputs and once for outputs. A role has
either one place or a row of places, a stride apart. A few roles can only be read, and an edge flag
can be written but has no place.
-/

namespace ShaderBackend

inductive Direction where
  | input
  | output
  deriving DecidableEq, Repr

def Direction.word : Direction → Text
  | .input => "input"
  | .output => "output"

/-- The last index of a role with a row of places. -/
def maxSemanticIndex : Nat := 255

/-- Why a role has no place in the register file. -/
structure InvalidSemantic where
  direction : Direction
  semantic : Semantic
  /-- The index, if only that is out of range. -/
  index : Option Nat
  deriving DecidableEq, Repr

def InvalidSemantic.message (e : InvalidSemantic) : Text :=
  "invalid " ++ e.direction.word ++ " semantic " ++ e.semantic.label ++
    match e.index with
    | some index => "[" ++ Text.decimal index ++ "]: index past " ++ Text.decimal maxSemanticIndex
    | none => []

namespace Semantic

/-- The byte offset of a place in a row. -/
def rowOffset (direction : Direction) (s : Semantic) (index base stride : Nat) :
    Except InvalidSemantic Nat :=
  if index ≤ maxSemanticIndex then .ok (base + index * stride)
  else .error ⟨direction, s, some index⟩

/-- The byte offset from which a role is read. -/
def inputAddress (s : Semantic) (index : Nat) : Except InvalidSemantic Nat :=
  let row := s.rowOffset .input index
  match s with
  | tessOuter => row 0x000 0x04
  | tessInner => row 0x010 0x04
  | patch => row 0x020 0x10
  | primitiveId => .ok 0x060
  | layer => .ok 0x064
  | viewportIndex => .ok 0x068
  | pointSize => .ok 0x06c
  | position => .ok 0x070
  | generic => row 0x080 0x10
  | fog => .ok 0x2e8
  | color => row 0x280 0x10
  | backColor => row 0x2a0 0x10
  | clipDistance => row 0x2c0 0x10
  | clipVertex => .ok 0x270
  | pointCoord => .ok 0x2e0
  | tessCoord => .ok 0x2f0
  | instanceId => .ok 0x2f8
  | vertexId => .ok 0x2fc
  | texcoord => row 0x300 0x10
  | edgeFlag | face | sampleId | samplePos | sampleMask | invocationId | fragDepth =>
    .error ⟨.input, s, none⟩

end Semantic

/-- Where an output goes. -/
inductive OutputAddress where
  | offset (bytes : Nat)
  /-- The role is accepted, and its value goes nowhere. -/
  | unsupported
  deriving DecidableEq, Repr

namespace Semantic

/-- The byte offset to which a role is written. -/
def outputAddress (s : Semantic) (index : Nat) : Except InvalidSemantic OutputAddress :=
  let row base stride := (s.rowOffset .output index base stride).map OutputAddress.offset
  match s with
  | tessOuter => row 0x000 0x04
  | tessInner => row 0x010 0x04
  | patch => row 0x020 0x10
  | primitiveId => .ok (.offset 0x060)
  | layer => .ok (.offset 0x064)
  | viewportIndex => .ok (.offset 0x068)
  | pointSize => .ok (.offset 0x06c)
  | position => .ok (.offset 0x070)
  | generic => row 0x080 0x10
  | fog => .ok (.offset 0x2e8)
  | color => row 0x280 0x10
  | backColor => row 0x2a0 0x10
  | clipDistance => row 0x2c0 0x10
  | clipVertex => .ok (.offset 0x270)
  | texcoord => row 0x300 0x10
  | edgeFlag => .ok .unsupported
  | pointCoord | tessCoord | instanceId | vertexId | face | sampleId | samplePos | sampleMask
  | invocationId | fragDepth => .error ⟨.output, s, none⟩

end Semantic

end ShaderBackend
