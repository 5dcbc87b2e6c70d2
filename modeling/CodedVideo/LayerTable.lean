/-!
# Layers and their direct references

The layers of a bitstream, with the id each is coded with and the layers it
predicts from.
-/

namespace CodedVideo

/-- The layers of a bitstream by index. -/
structure LayerTable where
  /-- The id of each layer. -/
  ids : List Nat := []
  /-- The index of the layer with a given id. -/
  indexOfId : List Nat := []
  /-- The indices of the layers that a layer refers to directly. -/
  directReferences : List (List Nat) := []
  deriving DecidableEq, Repr, Inhabited

namespace LayerTable

/-- The indices of the layers that the layer with id `id` refers to directly. -/
def referencesOf? (table : LayerTable) (id : Nat) : Option (List Nat) := do
  let index ← table.indexOfId[id]?
  table.directReferences[index]?

/-- The number of layers that the layer with id `id` refers to directly. -/
def referenceCount (table : LayerTable) (id : Nat) : Nat :=
  ((table.referencesOf? id).map List.length).getD 0

/-- The id of the `n`-th layer that the layer with id `id` refers to directly. -/
def referenceId? (table : LayerTable) (id n : Nat) : Option Nat := do
  let references ← table.referencesOf? id
  let index ← references[n]?
  table.ids[index]?

end LayerTable

end CodedVideo
