import CodedVideo.Partition.Error

/-!
# Cutting a length into parts

Tiles cut the width and the height of a picture, and slices may cut the height
of a tile.  Both are signalled as a list of explicit sizes, and `explicitSizes`
completes such a list: the last size is repeated as long as it fits, and the
remainder, if there is one, is the last part.  `uniformSizes` is the even split.
-/

namespace CodedVideo

/-- The length that parts cover together. -/
def covered (sizes : List Nat) : Nat := sizes.foldr (· + ·) 0

/-- Cuts `total` into `count` parts that differ by at most one, larger ones first. -/
def uniformSizes (total count : Nat) : List Nat :=
  (List.range count).map fun i => total / count + if i < total % count then 1 else 0

/-- The parts that fill `remaining`: as many of size `last` as fit, then the rest. -/
def repeatSize (last remaining : Nat) : List Nat :=
  let rest := remaining % last
  List.replicate (remaining / last) last ++ if rest = 0 then [] else [rest]

/-- Completes a list of explicit sizes to parts of `total`. -/
def explicitSizes (total : Nat) (sizes : List Nat) : Except PartitionError (List Nat) :=
  if 0 ∈ sizes then .error .zeroSize
  else if covered sizes > total then .error (.sizesExceedPicture (covered sizes) total)
  else .ok (sizes ++ repeatSize (sizes.getLastD 0) (total - covered sizes))

/-- The heights of the slices in a tile, completed from the explicit ones.
Without any the tile is one slice. -/
def slicesInTile (tileHeight : Nat) (heights : List Nat) : Except PartitionError (List Nat) :=
  if heights = [] then .ok [tileHeight]
  else if 0 ∈ heights then .error .zeroSize
  else if covered heights > tileHeight then .error .sliceHeightsExceedTile
  else explicitSizes tileHeight heights

end CodedVideo
