import CodedVideo.Vps.Layer

/-!
# Output layer sets

An output layer set (OLS) is a set of layers that are decoded together, some of
which are output.  Set 0 is the lowest layer alone.  The others follow from the
mode: each layer by itself, the layers up to a given one, or the layers that are
marked for output together with all that they refer to.
-/

namespace CodedVideo

/-- How output layer sets follow from the layers. -/
inductive OlsMode where
  /-- Every layer is a set by itself. -/
  | everyLayer
  /-- A set holds the layers up to one and outputs that one. -/
  | highestLayer
  /-- A set holds the layers up to one and outputs all of them. -/
  | allLayers
  /-- The output layers of each set after the first are marked. -/
  | marked (flags : List (List Bool))
  deriving DecidableEq, Repr, Inhabited

namespace OlsMode

/-- The code of a mode. -/
def idc : OlsMode → Nat
  | highestLayer => 0
  | allLayers => 1
  | everyLayer | marked _ => 2

/-- Reads which of `layers` layers are output by each of the sets after the first. -/
def readMarked (layers : Nat) : Parse OlsMode := do
  let countMinus2 ← Parse.u 8
  let flags ← Parse.collect (countMinus2 + 1) fun _ =>
    Parse.collect layers fun _ => Parse.flag
  return marked flags

/-- Reads the mode for `layers` layers. -/
def read (layers : Nat) (allIndependent : Bool) : Parse OlsMode := do
  let every ← if layers = 1 then pure true else Parse.flagIf allIndependent
  if every then return everyLayer
  let idc ← if allIndependent then pure 2 else Parse.uMax 2 2
  match idc with
  | 0 => return highestLayer
  | 1 => return allLayers
  | _ => readMarked layers

end OlsMode

/-- Layers that are decoded together, by their ids. -/
structure OutputLayerSet where
  /-- The layers that are output. -/
  outputs : List Nat
  /-- All layers of the set. -/
  layers : List Nat
  deriving DecidableEq, Repr

namespace OutputLayerSet

/-- The set that outputs the marked layers, given all references of each layer. -/
def ofMarks (layers : List VpsLayer) (references : List (List Nat)) (marks : List Bool) :
    OutputLayerSet :=
  let indices := List.range layers.length
  let marked (i : Nat) : Bool := marks.getD i false
  let needed (i : Nat) : Bool :=
    marked i || indices.any fun k => marked k && i ∈ references.getD k []
  let idOf (i : Nat) : Option Nat := (layers[i]?).map (·.id)
  { outputs := (indices.filter marked).filterMap idOf
    layers := (indices.filter needed).filterMap idOf }

/-- The sets in a given mode. -/
def all (layers : List VpsLayer) (mode : OlsMode) : List OutputLayerSet :=
  let ids := layers.map (·.id)
  let indices := List.range layers.length
  match mode with
  | .everyLayer => ids.map fun id => ⟨[id], [id]⟩
  | .highestLayer =>
    indices.map fun i => ⟨(ids.drop i).take 1, ids.take (i + 1)⟩
  | .allLayers => indices.map fun i => ⟨ids.take (i + 1), ids.take (i + 1)⟩
  | .marked flags =>
    ⟨ids.take 1, ids.take 1⟩ :: flags.map (ofMarks layers (VpsLayer.allReferences layers))

/-- Which layers are output by some set. -/
def usedForOutput (layers : List VpsLayer) (mode : OlsMode) : List Bool :=
  (List.range layers.length).map fun i =>
    match mode with
    | .marked flags => i == 0 || flags.any fun marks => marks.getD i false
    | _ => true

/-- Which layers are referred to by another one. -/
def usedForReference (layers : List VpsLayer) : List Bool :=
  (List.range layers.length).map fun i => layers.any fun layer => i ∈ layer.directReferences

/-- The sets in a given mode, provided that each outputs something and that each
layer is of use. -/
def derive (layers : List VpsLayer) (mode : OlsMode) : Except Fault (List OutputLayerSet) := do
  let sets := all layers mode
  if let some i := sets.findIdx? fun set => set.outputs.isEmpty then throw (.noOutputLayer i)
  let used := (usedForOutput layers mode).zipWith (· || ·) (usedForReference layers)
  if let some i := used.findIdx? fun isUsed => !isUsed then throw (.uselessLayer i)
  return sets

/-- The number of sets with more than one layer. -/
def multiLayerCount (sets : List OutputLayerSet) : Nat :=
  sets.countP fun set => set.layers.length > 1

/-- The index of each set among those with more than one layer, and zero for a set
of one layer. -/
def multiLayerIndices (sets : List OutputLayerSet) : List Nat :=
  (List.range sets.length).map fun i =>
    if (sets[i]?).any fun set => set.layers.length > 1 then
      multiLayerCount (sets.take i)
    else 0

end OutputLayerSet

end CodedVideo
