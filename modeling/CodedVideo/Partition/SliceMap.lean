import CodedVideo.Partition.TileGrid

/-!
# Rectangular slices

A slice map lists the slices of a picture with the CTBs of each.  It is derived
from the slice loop of a picture parameter set: a `SliceGroup` is either one
slice made of whole tiles or a tile cut into several slices.  `checkCoverage`
refuses a map in which some CTB lies in no slice or in two.
-/

namespace CodedVideo

open Report (field)

/-- One slice of a picture. -/
structure SliceRegion where
  /-- The tile in the top left corner. -/
  topLeftTile : Nat
  /-- The height in CTBs of a slice within one tile, and zero for any other. -/
  heightInCtbs : Nat
  /-- The CTBs in decoding order. -/
  ctbs : List Nat
  deriving DecidableEq, Repr, Inhabited

/-- The slices of a picture, by index. -/
structure SliceMap where
  regions : List SliceRegion := []
  deriving DecidableEq, Repr, Inhabited

/-- What one round of the slice loop describes. -/
structure SliceGroup where
  /-- The tile in the top left corner. -/
  topLeftTile : Nat
  /-- The width in tiles. -/
  widthInTiles : Nat
  /-- The height in tiles. -/
  heightInTiles : Nat
  /-- The heights of the slices that one tile is cut into. -/
  sliceHeights : List Nat := []
  deriving DecidableEq, Repr, Inhabited

/-- The number of slices of a group. -/
def SliceGroup.slices (group : SliceGroup) : Nat := max group.sliceHeights.length 1

/-- Marks CTBs as covered, one after another, and refuses one that is covered
already or lies outside the picture. -/
def coverCtbs (covered : Array Bool) : List Nat → Except PartitionError (Array Bool)
  | [] => .ok covered
  | ctb :: rest =>
    if covered[ctb]? = some false then coverCtbs (covered.setIfInBounds ctb true) rest
    else .error (.sliceOverlap ctb)

namespace SliceMap

/-- Refuses a map unless every CTB below `size` lies in exactly one slice. -/
def checkCoverage (map : SliceMap) (size : Nat) : Except PartitionError Unit := do
  let covered ← coverCtbs (Array.replicate size false) (map.regions.flatMap (·.ctbs))
  match covered.count false with
  | 0 => return ()
  | missing => throw (.uncoveredCtbs missing)

end SliceMap

namespace SliceGroup

/-- The slices that a tile is cut into, from row `y` of CTBs downwards. -/
def cutTile (t : TileTables) (tile : Nat) : Nat → List Nat → List SliceRegion
  | _, [] => []
  | y, height :: rest =>
    let column := tile % t.columns.count
    { topLeftTile := tile
      heightInCtbs := height
      ctbs := ctbsInRect t.width (t.columns.start column) (t.columns.start (column + 1))
        y (y + height) }
      :: cutTile t tile (y + height) rest

/-- The slices of a group. -/
def regions (t : TileTables) (group : SliceGroup) : List SliceRegion :=
  let column := group.topLeftTile % t.columns.count
  let row := group.topLeftTile / t.columns.count
  if group.sliceHeights.length > 1 then
    cutTile t group.topLeftTile (t.rows.start row) group.sliceHeights
  else
    let oneTile := group.widthInTiles = 1 ∧ group.heightInTiles = 1
    [{ topLeftTile := group.topLeftTile
       heightInCtbs := if oneTile then t.rows.start (row + 1) - t.rows.start row else 0
       ctbs := t.ctbsOfTileRect column group.widthInTiles row group.heightInTiles }]

/-- Whether a group stays within the tile grid and is not empty. -/
def fits (t : TileTables) (group : SliceGroup) : Bool :=
  group.widthInTiles != 0 && group.heightInTiles != 0
    && group.topLeftTile % t.columns.count + group.widthInTiles ≤ t.columns.count
    && group.topLeftTile / t.columns.count + group.heightInTiles ≤ t.rows.count

end SliceGroup

namespace SliceMap

/-- The slices of all groups. -/
def ofGroups (grid : TileGrid) (groups : List SliceGroup) : Except PartitionError SliceMap := do
  let tables := grid.tables
  match groups.findIdx? fun group => !group.fits tables with
  | some index => throw (.sliceOutsideTileGrid index)
  | none =>
    let map : SliceMap := ⟨groups.flatMap (SliceGroup.regions tables)⟩
    checkCoverage map grid.size
    return map

instance : Reportable SliceMap where
  report map := .group [
    field "slice_top_left_tile_idx" (map.regions.map (·.topLeftTile)),
    field "slice_height_in_ctus" (map.regions.map (·.heightInCtbs)),
    field "ctb_addr_in_slice" (map.regions.map (·.ctbs)),
    field "num_ctus_in_slice" (map.regions.map (·.ctbs.length))]

end SliceMap

end CodedVideo
