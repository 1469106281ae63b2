import ShaderBackend.Text.Basic

/-!
The roles a varying can have between two stages, with their names in program text.
-/

namespace ShaderBackend

inductive Semantic where
  | position
  | color
  | backColor
  | fog
  | pointSize
  | generic
  | edgeFlag
  | primitiveId
  | instanceId
  | vertexId
  | clipDistance
  | clipVertex
  | texcoord
  | pointCoord
  | viewportIndex
  | layer
  | tessCoord
  | tessOuter
  | tessInner
  | patch
  | face
  | sampleId
  | samplePos
  | sampleMask
  | invocationId
  | fragDepth
  deriving DecidableEq, Repr

namespace Semantic

def name : Semantic → Text
  | position => "POSITION"
  | color => "COLOR"
  | backColor => "BCOLOR"
  | fog => "FOG"
  | pointSize => "PSIZE"
  | generic => "GENERIC"
  | edgeFlag => "EDGEFLAG"
  | primitiveId => "PRIMID"
  | instanceId => "INSTANCEID"
  | vertexId => "VERTEXID"
  | clipDistance => "CLIPDIST"
  | clipVertex => "CLIPVERTEX"
  | texcoord => "TEXCOORD"
  | pointCoord => "PCOORD"
  | viewportIndex => "VIEWPORT_INDEX"
  | layer => "LAYER"
  | tessCoord => "TESSCOORD"
  | tessOuter => "TESSOUTER"
  | tessInner => "TESSINNER"
  | patch => "PATCH"
  | face => "FACE"
  | sampleId => "SAMPLEID"
  | samplePos => "SAMPLEPOS"
  | sampleMask => "SAMPLEMASK"
  | invocationId => "INVOCATIONID"
  | fragDepth => "POSITION"

/-- The name in messages, where depth and position are told apart. -/
def label : Semantic → Text
  | fragDepth => "POSITION (depth)"
  | s => s.name

/-- Every name in program text, with its role. The depth of a fragment is written as its position,
so that role has no name of its own. -/
def names : List (Text × Semantic) :=
  [("POSITION", position), ("COLOR", color), ("BCOLOR", backColor), ("FOG", fog),
    ("PSIZE", pointSize), ("GENERIC", generic), ("EDGEFLAG", edgeFlag), ("PRIMID", primitiveId),
    ("INSTANCEID", instanceId), ("VERTEXID", vertexId), ("CLIPDIST", clipDistance),
    ("CLIPVERTEX", clipVertex), ("TEXCOORD", texcoord), ("PCOORD", pointCoord),
    ("VIEWPORT_INDEX", viewportIndex), ("LAYER", layer), ("TESSCOORD", tessCoord),
    ("TESSOUTER", tessOuter), ("TESSINNER", tessInner), ("PATCH", patch), ("FACE", face),
    ("SAMPLEID", sampleId), ("SAMPLEPOS", samplePos), ("SAMPLEMASK", sampleMask),
    ("INVOCATIONID", invocationId)]

def ofName? (t : Text) : Option Semantic :=
  names.lookup t

end Semantic

end ShaderBackend
