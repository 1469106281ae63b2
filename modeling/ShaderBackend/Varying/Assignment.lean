import ShaderBackend.Varying.Interface

/-!
Slot assignment. Vertex inputs are packed in declaration order, and every other input is read from
the fixed layout. Fragment outputs go to the color registers, densely by render target, followed by
the sample mask and the depth; every other output is written to the fixed layout. Slots and the
offsets on the way to them are words of 32 bits.
-/

namespace ShaderBackend

/-- The number of render targets. -/
def maxColorOutputs : Nat := 8

/-- The first revision that keeps a register for the sample mask in every fragment program. -/
def sampleMaskRevision : Nat := 0xe0

/-- Why the slots of an interface cannot be assigned. -/
inductive SlotError where
  | noAddress (reason : InvalidSemantic)
  | noRenderTarget (index : Nat)
  deriving DecidableEq, Repr

def SlotError.message : SlotError → Text
  | noAddress reason => reason.message
  | noRenderTarget index =>
    "invalid output semantic COLOR[" ++ Text.decimal index ++ "]: only " ++
      Text.decimal maxColorOutputs ++ " render targets"

/-- Apply a change to the first element that satisfies `p`. -/
def updateFirst {α : Type} (p : α → Bool) (f : α → α) : List α → List α
  | [] => []
  | a :: rest => if p a then f a :: rest else a :: updateFirst p f rest

namespace Varying

def clear (v : Varying) : Varying :=
  { v with slots := .unassigned }

/-- Take four slots in a row, from a byte offset on. -/
def placeAt (v : Varying) (offset : UInt32) : Varying :=
  { v with slots := .fromOffset offset }

def setX (v : Varying) (slot : UInt32) : Varying :=
  { v with slots.x := some slot }

def setZ (v : Varying) (slot : UInt32) : Varying :=
  { v with slots.z := some slot }

/-- Where a varying would be read, if it had this index. -/
def inputOffset (v : Varying) (index : Nat) : Except SlotError UInt32 :=
  match v.semantic.inputAddress index with
  | .ok offset => .ok (.ofNat offset)
  | .error reason => .error (.noAddress reason)

/-- A value that the driver makes up, and that no vertex buffer holds. -/
def isSystemValue (v : Varying) : Bool :=
  v.semantic == .instanceId || v.semantic == .vertexId

/-- Vertex inputs: a system value has one component, in its own slot, and the others are packed from
the `n`-th place on. -/
def assignVertexInputs (n : UInt32) : List Varying → Except SlotError (List Varying)
  | [] => .ok []
  | v :: rest =>
    if v.isSystemValue then do
      let offset ← v.inputOffset 0
      let rest ← assignVertexInputs n rest
      return { v with mask := 1 }.setX (offset / 4) :: rest
    else do
      let rest ← assignVertexInputs (n + 1) rest
      return v.placeAt (0x80 + n * 0x10) :: rest

def assignFixedInput (v : Varying) : Except SlotError Varying := do
  let offset ← v.inputOffset v.index
  return v.placeAt offset

def assignFixedOutput (v : Varying) : Except SlotError Varying :=
  match v.semantic.outputAddress v.index with
  | .ok (.offset offset) => .ok (v.placeAt (.ofNat offset))
  | .ok .unsupported => .ok v
  | .error reason => .error (.noAddress reason)

def isColor (v : Varying) : Bool :=
  v.semantic == .color

/-- Enter the render targets of all colors into a table of those that are written. -/
def markTargets (present : List Bool) : List Varying → Except SlotError (List Bool)
  | [] => .ok present
  | v :: rest =>
    if v.isColor then
      if v.index < maxColorOutputs then markTargets (present.set v.index true) rest
      else .error (.noRenderTarget v.index)
    else markTargets present rest

/-- Number the render targets that are written, from `next` on, without room for the others. -/
def rankTargets (next : UInt32) : List Bool → List UInt32
  | [] => []
  | true :: rest => next :: rankTargets (next + 1) rest
  | false :: rest => 0 :: rankTargets next rest

def placeColor (rank : List UInt32) (v : Varying) : Varying :=
  if v.isColor then { v with slots := .consecutive (rank.getD v.index 0 * 4) } else v

/-- The sample mask takes the next register. Later revisions keep one for it in any case. -/
def placeSampleMask (target : Nat) (count : UInt32) (outputs : List Varying) :
    UInt32 × List Varying :=
  if outputs.any (·.semantic == .sampleMask) then
    (count + 1, updateFirst (·.semantic == .sampleMask) (·.setX count) outputs)
  else if sampleMaskRevision ≤ target then (count + 1, outputs)
  else (count, outputs)

def placeDepth (count : UInt32) (outputs : List Varying) : List Varying :=
  updateFirst (·.semantic == .fragDepth) (·.setZ count) outputs

/-- Fragment outputs, of which the colors are given so many registers. -/
def assignFragmentOutputs (colors : UInt32) (target : Nat) (outputs : List Varying) :
    Except SlotError (List Varying) := do
  let present ← markTargets (.replicate maxColorOutputs false) outputs
  let rank := rankTargets 0 present
  let placed := placeSampleMask target colors (outputs.map (placeColor rank))
  return placeDepth placed.1 placed.2

end Varying

namespace Interface

def reset (i : Interface) : Interface :=
  { i with inputs := i.inputs.map Varying.clear, outputs := i.outputs.map Varying.clear }

def assignInputs (i : Interface) : Except SlotError (List Varying) :=
  if i.stage = .vertex then Varying.assignVertexInputs 0 i.inputs
  else i.inputs.mapM Varying.assignFixedInput

def assignOutputs (i : Interface) : Except SlotError (List Varying) :=
  if i.stage = .fragment then
    Varying.assignFragmentOutputs (.ofNat i.numColorOutputs * 4) i.target i.outputs
  else i.outputs.mapM Varying.assignFixedOutput

/-- Give every varying its slots. Not all of them write four slots, so that those of an earlier
assignment are forgotten first. -/
def assignSlots (i : Interface) : Except SlotError Interface := do
  let inputs ← i.reset.assignInputs
  let outputs ← i.reset.assignOutputs
  return { i with inputs, outputs }

end Interface

end ShaderBackend
