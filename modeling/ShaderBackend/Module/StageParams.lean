import ShaderBackend.Bytes
import ShaderBackend.Stage

/-!
The part of a program's header that depends on its stage: nine words, which each stage lays out in
its own way. Flags are bytes that are zero or not; words and bytes that a stage does not use are
written as zero and ignored when read.
-/

namespace ShaderBackend

structure FragmentParams where
  hasTable3d1 : Bool := false
  earlyFragmentTests : Bool := false
  postDepthCoverage : Bool := false
  sampleShading : Bool := false
  table3d1 : Vector UInt32 4 := .replicate 4 0
  paramD8 : UInt32 := 0
  param65b : UInt16 := 0
  param489 : UInt16 := 0
  deriving DecidableEq, Repr

structure GeometryParams where
  flag47c : Bool := false
  hasTable490 : Bool := false
  table490 : Vector UInt32 8 := .replicate 8 0
  deriving DecidableEq, Repr

structure ComputeParams where
  blockDims : Vector UInt32 3 := .replicate 3 0
  sharedMemory : UInt32 := 0
  localPositive : UInt32 := 0
  localNegative : UInt32 := 0
  callStack : UInt32 := 0
  numBarriers : UInt32 := 0
  deriving DecidableEq, Repr

inductive StageParams where
  | vertex (altEntrypoint altNumGprs : UInt32)
  | tessControl
  | tessEval (mode : UInt32)
  | geometry (p : GeometryParams)
  | fragment (p : FragmentParams)
  | compute (p : ComputeParams)
  deriving DecidableEq, Repr

/-- The words of a program header that belong to its stage. -/
abbrev StageWords := Vector UInt32 9

/-- A flag as a byte at a place in a word. -/
def flagByte (flag : Bool) (shift : UInt32) : UInt32 :=
  if flag then 1 <<< shift else 0

/-- Whether the byte at a place in a word is not zero. -/
def isFlagSet (word shift : UInt32) : Bool :=
  (word >>> shift).toUInt8 != 0

namespace StageParams

def stage : StageParams → Stage
  | vertex .. => .vertex
  | tessControl => .tessControl
  | tessEval _ => .tessEval
  | geometry _ => .geometry
  | fragment _ => .fragment
  | compute _ => .compute

def encode : StageParams → StageWords
  | vertex altEntrypoint altNumGprs => #v[altEntrypoint, altNumGprs, 0, 0, 0, 0, 0, 0, 0]
  | tessControl => #v[0, 0, 0, 0, 0, 0, 0, 0, 0]
  | tessEval mode => #v[mode, 0, 0, 0, 0, 0, 0, 0, 0]
  | geometry p =>
    #v[flagByte p.flag47c 0 ||| flagByte p.hasTable490 8, p.table490.get 0, p.table490.get 1,
      p.table490.get 2, p.table490.get 3, p.table490.get 4, p.table490.get 5, p.table490.get 6,
      p.table490.get 7]
  | fragment p =>
    #v[flagByte p.hasTable3d1 0 ||| flagByte p.earlyFragmentTests 8 |||
        flagByte p.postDepthCoverage 16 ||| flagByte p.sampleShading 24,
      p.table3d1.get 0, p.table3d1.get 1, p.table3d1.get 2, p.table3d1.get 3, p.paramD8,
      p.param65b.toUInt32 ||| (p.param489.toUInt32 <<< 16), 0, 0]
  | compute p =>
    #v[p.blockDims.get 0, p.blockDims.get 1, p.blockDims.get 2, p.sharedMemory, p.localPositive,
      p.localNegative, p.callStack, p.numBarriers, 0]

def decode (stage : Stage) (w : StageWords) : StageParams :=
  match stage with
  | .vertex => vertex (w.get 0) (w.get 1)
  | .tessControl => tessControl
  | .tessEval => tessEval (w.get 0)
  | .geometry => geometry {
      flag47c := isFlagSet (w.get 0) 0
      hasTable490 := isFlagSet (w.get 0) 8
      table490 := #v[w.get 1, w.get 2, w.get 3, w.get 4, w.get 5, w.get 6, w.get 7, w.get 8] }
  | .fragment => fragment {
      hasTable3d1 := isFlagSet (w.get 0) 0
      earlyFragmentTests := isFlagSet (w.get 0) 8
      postDepthCoverage := isFlagSet (w.get 0) 16
      sampleShading := isFlagSet (w.get 0) 24
      table3d1 := #v[w.get 1, w.get 2, w.get 3, w.get 4]
      paramD8 := w.get 5
      param65b := (w.get 6).toUInt16
      param489 := (w.get 6 >>> 16).toUInt16 }
  | .compute => compute {
      blockDims := #v[w.get 0, w.get 1, w.get 2]
      sharedMemory := w.get 3
      localPositive := w.get 4
      localNegative := w.get 5
      callStack := w.get 6
      numBarriers := w.get 7 }

/-- The parameters of a stage that are all zero. -/
def zeroed (stage : Stage) : StageParams :=
  decode stage (.replicate 9 0)

end StageParams

end ShaderBackend
