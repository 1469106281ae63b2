import ShaderBackend.Stage
import ShaderBackend.Varying.Address

/-!
The interface of a stage: its varyings in declaration order, each with the hardware slots of its
four components once they are assigned.
-/

namespace ShaderBackend

/-- The hardware slots of the four components of a varying. -/
structure Slots where
  x : Option UInt32 := none
  y : Option UInt32 := none
  z : Option UInt32 := none
  w : Option UInt32 := none
  deriving DecidableEq, Repr

namespace Slots

def unassigned : Slots := {}

/-- Four slots in a row. -/
def consecutive (first : UInt32) : Slots :=
  ⟨some first, some (first + 1), some (first + 2), some (first + 3)⟩

/-- The slots of four words from a byte offset on. -/
def fromOffset (offset : UInt32) : Slots :=
  ⟨some (offset / 4), some ((offset + 4) / 4), some ((offset + 8) / 4), some ((offset + 12) / 4)⟩

def toList (s : Slots) : List (Option UInt32) :=
  [s.x, s.y, s.z, s.w]

/-- The slots in order, `-` for one that is not assigned. -/
def render (digits : Nat) (s : Slots) : Text :=
  List.intercalate "," <| s.toList.map fun
    | some slot => Text.hexadecimal digits slot.toNat
    | none => "-"

end Slots

structure Varying where
  semantic : Semantic
  index : Nat
  /-- One bit for each component that is used, `x` lowest. -/
  mask : UInt8 := 0xf
  slots : Slots := .unassigned
  deriving DecidableEq, Repr

namespace Varying

/-- Use the components of the low four bits. -/
def withMask (v : Varying) (mask : UInt8) : Varying :=
  { v with mask := mask &&& 0xf }

def isAssigned (v : Varying) : Bool :=
  v.slots.toList.any (·.isSome)

end Varying

structure Interface where
  stage : Stage
  /-- The revision of the hardware. -/
  target : Nat
  inputs : List Varying := []
  outputs : List Varying := []
  deriving DecidableEq, Repr

namespace Interface

def numColorOutputs (i : Interface) : Nat :=
  i.outputs.countP (·.semantic == .color)

def slotLine (file : Text) (number : Nat) (v : Varying) : Text :=
  file ++ "[" ++ Text.decimal number ++ "] " ++ v.semantic.name ++ "[" ++ Text.decimal v.index ++
    "] mask=" ++ Text.hexadecimal 1 v.mask.toNat ++ " slots=" ++ v.slots.render 3

/-- One line for each varying, inputs first. -/
def slotTable (i : Interface) : Text :=
  Text.unlines <|
    i.inputs.mapIdx (slotLine "IN") ++ i.outputs.mapIdx (slotLine "OUT")

end Interface

end ShaderBackend
