import CodedVideo.LayerTable
import CodedVideo.Parse
import CodedVideo.Report

/-!
# The layers of a bitstream

A layer that is not independent predicts from some of the layers before it.
`directReferences` lists those, and `allReferences` lists the layers that a layer
needs by any number of steps.
-/

namespace CodedVideo

/-- How a layer refers to an earlier one. -/
structure LayerReference where
  /-- Whether it predicts from that layer. -/
  direct : Bool := false
  /-- The highest sublayer of that layer which it predicts from, plus one. -/
  maxTidPlus1 : Nat
  deriving DecidableEq, Repr

/-- A layer as a video parameter set describes it. -/
structure VpsLayer where
  /-- The id of the layer. -/
  id : Nat
  /-- Whether the layer predicts from no other. -/
  independent : Bool := true
  /-- Whether `maxTidPlus1` is coded for the references of this layer. -/
  maxTidPresent : Bool := false
  /-- How the layer refers to each of the layers before it. -/
  references : List LayerReference := []
  deriving DecidableEq, Repr

namespace VpsLayer

/-- The indices of the layers that a layer refers to directly. -/
def directReferences (layer : VpsLayer) : List Nat :=
  (List.range layer.references.length).filter fun j =>
    (layer.references[j]?).any (·.direct)

/-- Reads how a layer refers to an earlier one. -/
def readReference (allTids : Nat) (maxTidPresent : Bool) : Parse LayerReference := do
  let direct ← Parse.flag
  let maxTidPlus1 ← if maxTidPresent && direct then Parse.u 3 else pure allTids
  return { direct, maxTidPlus1 }

/-- Reads the references of the layer with index `index`, which has to have one. -/
def readDependent (allTids index id : Nat) : Parse VpsLayer := do
  let maxTidPresent ← Parse.flag
  let references ← Parse.collect index fun _ => readReference allTids maxTidPresent
  Parse.refuseIf (!references.any (·.direct)) (.dependentWithoutReference index)
  return { id, independent := false, maxTidPresent, references }

/-- Reads the layer with index `index`.  Its id is larger than that of the layer
before. -/
def read (allTids : Nat) (allIndependent : Bool) (index : Nat) (previous : Option Nat) :
    Parse VpsLayer := do
  let id ← Parse.u 6
  Parse.refuseIf (previous.any fun p => id ≤ p) (.layerIdsNotIncreasing id)
  let independent ← if index > 0 && !allIndependent then Parse.flag else pure true
  if independent then return { id } else readDependent allTids index id

/-- Reads `remaining` layers after the ones read so far. -/
def readMore (allTids : Nat) (allIndependent : Bool) :
    Nat → List VpsLayer → Parse (List VpsLayer)
  | 0, layers => return layers
  | remaining + 1, layers => do
    let layer ← read allTids allIndependent layers.length (layers.getLast?.map (·.id))
    readMore allTids allIndependent remaining (layers ++ [layer])

/-- The layers that each layer needs, given those that the layers before it need. -/
def closeReferences : List (List Nat) → List VpsLayer → List (List Nat)
  | closed, [] => closed
  | closed, layer :: rest =>
    let direct := layer.directReferences
    let needed := (List.range closed.length).filter fun j =>
      j ∈ direct || direct.any fun k => j ∈ closed.getD k []
    closeReferences (closed ++ [needed]) rest

/-- For each layer the indices of the layers that it refers to in any number of
steps, in increasing order. -/
def allReferences (layers : List VpsLayer) : List (List Nat) := closeReferences [] layers

/-- The number of layer ids. -/
def idCount : Nat := 64

/-- The layers with their ids and direct references.  The index of an id that no
layer has is given as zero. -/
def table (layers : List VpsLayer) : LayerTable :=
  let ids := layers.map (·.id)
  { ids
    indexOfId := (List.range idCount).map fun id => (ids.idxOf? id).getD 0
    directReferences := layers.map directReferences }

end VpsLayer

end CodedVideo
