import CodedVideo.Sps

/-!
# The partition of a picture

A picture parameter set divides its pictures into tiles and slices.  Slices are
runs of tiles in raster order or rectangles.  Rectangles are described by the
slice loop: each round places a slice made of whole tiles, or cuts one tile into
several slices, and leads to the tile at which the next round starts.  The last
slice, unless a cut tile ends with it, takes what is left.

The coding tree blocks of each rectangle and the subpicture it lies in are
derived here, so that slices can rely on them.
-/

namespace CodedVideo

open Report (field)

/-- A round of the slice loop as it is coded. -/
structure SliceRound where
  group : SliceGroup
  /-- One less than each coded height of the slices in a tile. -/
  codedHeights : List Nat := []
  /-- The coded distance to the tile of the next round. -/
  tileDelta : Int := 0
  deriving DecidableEq, Repr

namespace SliceRound

/-- The largest number of slices of a picture. -/
def maxSlices : Nat := 600

/-- The column and row of a tile that a round starts at. -/
def checkTile (grid : TileGrid) (tile : Int) : Parse Nat :=
  if 0 ≤ tile ∧ tile < grid.tiles then pure tile.toNat
  else Parse.ofPartition (.error (.tileIndexOutOfRange tile grid.tiles))

/-- Reads into how many slices a tile of `height` rows is cut, as far as it can be. -/
def readCuts (height : Nat) : Parse (List Nat × List Nat) := do
  let count ← Parse.ueMax (height - 1)
  let coded ← Parse.collect count fun _ => Parse.ueMax (height - 1)
  let heights ← Parse.ofPartition (slicesInTile height (coded.map (· + 1)))
  return (coded, if heights.length > 1 then heights else [])

/-- Reads one round that starts at `tile`.  Where the height is not coded it is that
of the round before. -/
def readGroup (grid : TileGrid) (deltas : Bool) (tile previousHeightMinus1 : Nat) :
    Parse SliceRound := do
  let columns := grid.columns.count
  let rows := grid.rows.count
  let column := tile % columns
  let row := tile / columns
  let widthMinus1 ← Parse.given (column != columns - 1) (Parse.ueMax (columns - 1 - column))
  let heightMinus1 ←
    if row = rows - 1 then pure 0
    else if deltas || column == 0 then Parse.ueMax (rows - 1 - row)
    else pure previousHeightMinus1
  let rowHeight := grid.rows.sizes.getD row 0
  let (codedHeights, sliceHeights) ←
    if widthMinus1 = 0 ∧ heightMinus1 = 0 ∧ rowHeight > 1 then readCuts rowHeight
    else pure ([], [])
  return {
    group := {
      topLeftTile := tile
      widthInTiles := widthMinus1 + 1
      heightInTiles := heightMinus1 + 1
      sliceHeights }
    codedHeights }

/-- The round of the last slice, which takes what is left right of and below its
first tile. -/
def remainder (grid : TileGrid) (tile : Nat) : SliceRound where
  group := {
    topLeftTile := tile
    widthInTiles := grid.columns.count - tile % grid.columns.count
    heightInTiles := grid.rows.count - tile / grid.columns.count }

/-- The tile right of a group, or the one that starts the next row of groups. -/
def tileAfter (columns : Nat) (group : SliceGroup) : Int :=
  let next := group.topLeftTile + group.widthInTiles
  if next % columns = 0 then next + (group.heightInTiles - 1) * columns else next

/-- Reads the distance from the tile of a round to that of the next one; `slice` is
the last slice of the round. -/
def readDelta (grid : TileGrid) (slice : Nat) : Parse Int := do
  let largest : Int := grid.tiles - 1
  let delta ← Parse.seBetween (-largest) largest
  Parse.refuseIf (delta == 0) (.zeroTileDelta slice)
  return delta

/-- Reads the slice loop.  Of `count` slices `left` are left to describe; the first
`inTile` of these lie in a tile that has been cut already. -/
def readAll (grid : TileGrid) (deltas : Bool) (count : Nat) :
    (left inTile : Nat) → (tile : Int) → (previousHeightMinus1 : Nat) → Parse (List SliceRound)
  | 0, _, _, _ => return []
  | left + 1, inTile + 1, tile, previous => readAll grid deltas count left inTile tile previous
  | 1, 0, tile, _ => do
    let tile ← checkTile grid tile
    return [remainder grid tile]
  | left + 1, 0, tile, previous => do
    let tile ← checkTile grid tile
    let round ← readGroup grid deltas tile previous
    let slices := round.group.slices
    Parse.refuseIf (slices > left + 1) (.tooManySlicesInTile tile)
    let coded := deltas && slices ≤ left
    let tileDelta ← Parse.given coded (readDelta grid (count - left + slices - 2))
    let next := if coded then tile + tileDelta else tileAfter grid.columns.count round.group
    let rest ←
      readAll grid deltas count left (slices - 1) next (round.group.heightInTiles - 1)
    return { round with tileDelta } :: rest

/-- A value for each slice: that of its round for the first slice of a round and
`blank` for the others. -/
def spread {α : Type} (blank : α) (rounds : List SliceRound) (first : SliceRound → α) : List α :=
  rounds.flatMap fun round => first round :: List.replicate (round.group.slices - 1) blank

/-- The coded distances, each at the last slice of its round. -/
def spreadDeltas (rounds : List SliceRound) : List Int :=
  rounds.flatMap fun round => List.replicate (round.group.slices - 1) 0 ++ [round.tileDelta]

end SliceRound

/-- The tiles and slices of a picture. -/
structure PicturePartition where
  /-- Whether the picture is one tile and one slice. -/
  undivided : Bool := false
  /-- One less than the coded widths of tile columns. -/
  codedColumns : List Nat := []
  /-- One less than the coded heights of tile rows. -/
  codedRows : List Nat := []
  filterAcrossTiles : Bool := false
  /-- Whether slices are rectangles. -/
  rectangular : Bool := true
  slicePerSubpicture : Bool := false
  slicesMinus1 : Nat := 0
  tileDeltas : Bool := false
  /-- The rounds of the slice loop, if there is one. -/
  rounds : List SliceRound := []
  filterAcrossSlices : Bool := false
  grid : TileGrid := {}
  /-- The rectangular slices. -/
  slices : SliceMap := {}
  /-- The subpictures of the rectangular slices. -/
  assignment : SliceAssignment := {}
  deriving DecidableEq, Repr

namespace PicturePartition

instance : Inhabited PicturePartition := ⟨{}⟩

/-- Reads the tiles of a picture of `width` by `height` blocks. -/
def readTiles (width height : Nat) : Parse PicturePartition := do
  let columnsMinus1 ← Parse.ueMax (width - 1)
  let rowsMinus1 ← Parse.ueMax (height - 1)
  let codedColumns ← Parse.collect (columnsMinus1 + 1) fun _ => Parse.ueMax (width - 1)
  let codedRows ← Parse.collect (rowsMinus1 + 1) fun _ => Parse.ueMax (height - 1)
  let grid ←
    Parse.ofPartition
      (TileGrid.ofExplicit width height (codedColumns.map (· + 1)) (codedRows.map (· + 1)))
  return { codedColumns, codedRows, grid }

/-- Reads the slices of a picture whose tiles are known. -/
def readSlices (subpictures : Nat) (p : PicturePartition) : Parse PicturePartition := do
  let several := p.grid.tiles > 1
  let filterAcrossTiles ← Parse.flagIf several
  let rectangular ← if several then Parse.flag else pure true
  let slicePerSubpicture ← Parse.flagIf rectangular
  let looped := rectangular && !slicePerSubpicture
  let slicesMinus1 ← Parse.given looped (Parse.ueMax (SliceRound.maxSlices - 1))
  let tileDeltas ← Parse.flagIf (slicesMinus1 > 1)
  let rounds ←
    Parse.given looped
      (SliceRound.readAll p.grid tileDeltas (slicesMinus1 + 1) (slicesMinus1 + 1) 0 0 0)
  let filterAcrossSlices ← Parse.flagIf (!looped || slicesMinus1 > 0)
  return {
    p with filterAcrossTiles, rectangular, slicePerSubpicture, tileDeltas, rounds
           filterAcrossSlices
           slicesMinus1 := if slicePerSubpicture then subpictures - 1 else slicesMinus1 }

/-- The rectangles of a partition. -/
def deriveSlices (areas : List SubpictureRect) (p : PicturePartition) :
    Except PartitionError SliceMap :=
  if !p.rectangular then .ok {}
  else if p.slicePerSubpicture then SliceMap.ofSubpictures p.grid areas
  else if p.undivided then SliceMap.ofGroups p.grid [(SliceRound.remainder p.grid 0).group]
  else SliceMap.ofGroups p.grid (p.rounds.map (·.group))

/-- Derives the rectangles of a partition and assigns them to the subpictures, each
of which has to get one. -/
def complete (width : Nat) (areas : List SubpictureRect) (p : PicturePartition) :
    Parse PicturePartition := do
  let slices ← Parse.ofPartition (p.deriveSlices areas)
  let assignment := if p.rectangular then SliceAssignment.derive width areas slices else {}
  match assignment.slicesOf.findIdx? List.isEmpty with
  | some index => Parse.invalid (.subpictureWithoutSlice index)
  | none => return { p with slices, assignment }

/-- Reads the partition of a picture of `width` by `height` blocks, all of which are
as large as those of the sequence. -/
def read (log2CtuSizeMinus5 width height : Nat) (areas : List SubpictureRect)
    (undivided : Bool) : Parse PicturePartition := do
  let divided ←
    if undivided then
      pure { undivided, grid := TileGrid.single width height : PicturePartition }
    else do
      let log2Minus5 ← Parse.u 2
      Parse.refuseIf (log2Minus5 != log2CtuSizeMinus5) (.ctuSizeDiffers log2Minus5)
      readSlices areas.length (← readTiles width height)
  divided.complete width areas

/-- The report of a partition. -/
def members (p : PicturePartition) : List (String × Report) := [
  field "pps_num_exp_tile_columns_minus1" (p.codedColumns.length - 1),
  field "pps_num_exp_tile_rows_minus1" (p.codedRows.length - 1),
  field "pps_tile_column_width_minus1" p.codedColumns,
  field "pps_tile_row_height_minus1" p.codedRows,
  field "pps_loop_filter_across_tiles_enabled_flag" p.filterAcrossTiles,
  field "pps_rect_slice_flag" p.rectangular,
  field "pps_single_slice_per_subpic_flag" p.slicePerSubpicture,
  field "pps_num_slices_in_pic_minus1" p.slicesMinus1,
  field "pps_tile_idx_delta_present_flag" p.tileDeltas,
  field "pps_slice_width_in_tiles_minus1"
    (SliceRound.spread 0 p.rounds (·.group.widthInTiles - 1)),
  field "pps_slice_height_in_tiles_minus1"
    (SliceRound.spread 0 p.rounds (·.group.heightInTiles - 1)),
  field "pps_num_exp_slices_in_tile" (SliceRound.spread 0 p.rounds (·.codedHeights.length)),
  field "pps_exp_slice_height_in_ctus_minus1" (SliceRound.spread [] p.rounds (·.codedHeights)),
  field "pps_tile_idx_delta_val" (SliceRound.spreadDeltas p.rounds),
  field "pps_loop_filter_across_slices_enabled_flag" p.filterAcrossSlices,
  field "pic_width_in_ctbs" p.grid.width,
  field "pic_height_in_ctbs" p.grid.height,
  field "num_tiles_in_pic" p.grid.tiles,
  field "tile_layout" p.grid,
  field "slice_map" p.slices,
  field "subpic_slices" p.assignment]

end PicturePartition

end CodedVideo
