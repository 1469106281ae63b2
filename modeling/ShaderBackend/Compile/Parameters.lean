import ShaderBackend.Generator.Basic
import ShaderBackend.Module.StageParams

/-!
The stage parameters of a program's header, from its properties and what it reads.
-/

namespace ShaderBackend

namespace Program

/-- The primitive that a tessellator makes. -/
def tessDomain (p : Program) : UInt32 :=
  match p.property? "TES_PRIM_MODE" with
  | some mode =>
    if mode ∈ (["LINES", "ISOLINES", "1"] : List Text) then 0x0
    else if mode ∈ (["QUADS", "7"] : List Text) then 0x2
    else 0x1
  | none => 0x1

def tessSpacing (p : Program) : UInt32 :=
  match p.property? "TES_SPACING" with
  | some spacing =>
    if spacing ∈ (["FRACTIONAL_ODD", "0"] : List Text) then 0x10
    else if spacing ∈ (["FRACTIONAL_EVEN", "1"] : List Text) then 0x20
    else 0x00
  | none => 0x00

/-- The mode word of a tessellation evaluation program. -/
def tessMode (p : Program) : UInt32 :=
  p.tessDomain ||| p.tessSpacing |||
    (if p.flag "TES_VERTEX_ORDER_CW" then 0x100 else 0) |||
    (if p.flag "TES_POINT_MODE" then 0 else 0x200)

/-- A dimension of the block of a compute program. -/
def blockDim (p : Program) (name : Text) : UInt32 :=
  UInt32.ofNat ((p.propertyNumber? name).getD 1)

def stageParams (p : Program) (g : Generated) : StageParams :=
  match p.stage with
  | .fragment => .fragment {
      earlyFragmentTests := p.flag "FS_EARLY_DEPTH_STENCIL"
      postDepthCoverage := p.flag "FS_POST_DEPTH_COVERAGE"
      sampleShading := p.readsSystemValue .sampleId || p.readsSystemValue .samplePos }
  | .tessEval => .tessEval p.tessMode
  | .compute => .compute {
      blockDims := #v[p.blockDim "CS_FIXED_BLOCK_WIDTH", p.blockDim "CS_FIXED_BLOCK_HEIGHT",
        p.blockDim "CS_FIXED_BLOCK_DEPTH"]
      sharedMemory := UInt32.ofNat p.sharedMemory
      localPositive := g.threadScratch
      numBarriers := g.numBarriers }
  | stage => .zeroed stage

end Program

end ShaderBackend
