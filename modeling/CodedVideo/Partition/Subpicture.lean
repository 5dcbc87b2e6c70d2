import CodedVideo.Partition.SliceMap

/-!
# Subpictures

A subpicture is a rectangle of CTBs, and the subpictures of a sequence tile the
picture.  `subpictureMap` tells for every CTB which subpicture it lies in, and
`SliceMap.ofSubpictures` makes each subpicture one slice, which needs it to lie
within a tile or to consist of whole tiles.

`SliceAssignment` relates the slices of a picture to its subpictures: a slice
belongs to the subpicture that holds its first CTB.
-/

namespace CodedVideo

open Report (field)

/-- A rectangle of CTBs. -/
structure SubpictureRect where
  left : Nat := 0
  top : Nat := 0
  width : Nat := 0
  height : Nat := 0
  deriving DecidableEq, Repr, Inhabited

namespace SubpictureRect

/-- The column right of the rectangle. -/
def right (rect : SubpictureRect) : Nat := rect.left + rect.width

/-- The row below the rectangle. -/
def bottom (rect : SubpictureRect) : Nat := rect.top + rect.height

/-- Whether the CTB in column `x` and row `y` lies in the rectangle. -/
def contains (rect : SubpictureRect) (x y : Nat) : Bool :=
  rect.left ≤ x && x < rect.right && rect.top ≤ y && y < rect.bottom

/-- Whether the rectangle is not empty and lies in a picture of the given size. -/
def fits (rect : SubpictureRect) (width height : Nat) : Bool :=
  rect.width != 0 && rect.height != 0 && rect.right ≤ width && rect.bottom ≤ height

/-- The CTBs of the rectangle in a picture of the given width. -/
def ctbs (rect : SubpictureRect) (width : Nat) : List Nat :=
  ctbsInRect width rect.left rect.right rect.top rect.bottom

instance : Reportable SubpictureRect where
  report rect := .group [
    field "top_left_x" rect.left,
    field "top_left_y" rect.top,
    field "width" rect.width,
    field "height" rect.height]

end SubpictureRect

/-- The sixteen-bit index that marks a CTB which no subpicture has claimed. -/
def unclaimed : Nat := 65535

/-- Claims CTBs for the subpicture with a given index, one after another. -/
def claimCtbs (index : Nat) (map : Array Nat) : List Nat → Except PartitionError (Array Nat)
  | [] => .ok map
  | ctb :: rest =>
    if map[ctb]? = some unclaimed then
      claimCtbs index (map.setIfInBounds ctb (index % 65536)) rest
    else .error (.subpictureOverlap ctb)

/-- Claims the CTBs of subpictures whose indices start at `index`. -/
def claimSubpictures (width height : Nat) :
    Nat → Array Nat → List SubpictureRect → Except PartitionError (Array Nat)
  | _, map, [] => .ok map
  | index, map, rect :: rest =>
    if rect.fits width height then
      match claimCtbs index map (rect.ctbs width) with
      | .error e => .error e
      | .ok map => claimSubpictures width height (index + 1) map rest
    else .error (.subpictureOutsidePicture index)

/-- The index of the subpicture of every CTB, provided that the subpictures tile
the picture. -/
def subpictureMap (width height : Nat) (rects : List SubpictureRect) :
    Except PartitionError (Array Nat) := do
  let map ← claimSubpictures width height 0 (Array.replicate (width * height) unclaimed) rects
  match map.count unclaimed with
  | 0 => return map
  | missing => throw (.uncoveredBySubpictures missing)

/-- The slice that a subpicture makes in a picture cut into tiles. -/
def SubpictureRect.region (t : TileTables) (index : Nat) (rect : SubpictureRect) :
    Except PartitionError SliceRegion :=
  let column := t.columns.partAt rect.left
  let row := t.rows.partAt rect.top
  let lastColumn := t.columns.partAt (rect.right - 1)
  let lastRow := t.rows.partAt (rect.bottom - 1)
  let topLeftTile := row * t.columns.count + column
  if ¬ rect.fits t.columns.extent t.rows.extent then .error (.subpictureOutsidePicture index)
  else if column = lastColumn ∧ row = lastRow then
    .ok { topLeftTile, heightInCtbs := rect.height, ctbs := rect.ctbs t.width }
  else if t.columns.start column = rect.left ∧ t.rows.start row = rect.top
      ∧ t.columns.start (lastColumn + 1) = rect.right
      ∧ t.rows.start (lastRow + 1) = rect.bottom then
    .ok { topLeftTile, heightInCtbs := 0,
          ctbs := t.ctbsOfTileRect column (lastColumn + 1 - column) row (lastRow + 1 - row) }
  else .error (.subpictureNotAligned index)

namespace SliceMap

/-- The slices that subpictures make, with indices from `index` on. -/
def ofSubpicturesFrom (t : TileTables) :
    Nat → List SubpictureRect → Except PartitionError (List SliceRegion)
  | _, [] => .ok []
  | index, rect :: rest => do
    let region ← rect.region t index
    let others ← ofSubpicturesFrom t (index + 1) rest
    return region :: others

/-- The slices of a picture in which every subpicture is one slice. -/
def ofSubpictures (grid : TileGrid) (rects : List SubpictureRect) :
    Except PartitionError SliceMap := do
  let map : SliceMap := ⟨← ofSubpicturesFrom grid.tables 0 rects⟩
  checkCoverage map grid.size
  return map

end SliceMap

/-- Which slices belong to which subpicture. -/
structure SliceAssignment where
  /-- For each subpicture, the indices of its slices in increasing order. -/
  slicesOf : List (List Nat) := []
  /-- For each slice, the index of its subpicture. -/
  owner : List Nat := []
  /-- For each slice, its index among the slices of its subpicture. -/
  rank : List Nat := []
  deriving DecidableEq, Repr, Inhabited

namespace SliceAssignment

/-- Whether a slice starts in a rectangle of a picture of the given width. -/
def startsIn (width : Nat) (rect : SubpictureRect) (region : SliceRegion) : Bool :=
  match region.ctbs with
  | [] => false
  | first :: _ => rect.contains (first % width) (first / width)

/-- The indices of the slices that start in a rectangle. -/
def slicesIn (width : Nat) (slices : SliceMap) (rect : SubpictureRect) : List Nat :=
  (List.range slices.regions.length).zip slices.regions
    |>.filterMap fun (index, region) => if startsIn width rect region then some index else none

/-- Assigns slices to the subpictures in which they start.  Should several
subpictures hold the start of a slice, the last one owns it; a slice that starts
in none counts as the first of the first subpicture. -/
def derive (width : Nat) (rects : List SubpictureRect) (slices : SliceMap) : SliceAssignment :=
  let lastFirst := ((List.range rects.length).zip rects).reverse
  let owners := slices.regions.map fun region =>
    lastFirst.find? fun (_, rect) => startsIn width rect region
  let slicesOf := rects.map (slicesIn width slices)
  { slicesOf
    owner := owners.map fun found => (found.map (·.1)).getD 0
    rank := ((List.range owners.length).zip owners).map fun (index, found) =>
      match found with
      | none => 0
      | some (subpicture, _) => (slicesOf.getD subpicture []).idxOf index }

instance : Reportable SliceAssignment where
  report a := .group [
    field "num_slices_in_subpic" (a.slicesOf.map (·.length)),
    field "subpic_idx_for_slice" a.owner,
    field "subpic_level_slice_idx" a.rank,
    field "slice_subpic_to_pic_idx" a.slicesOf]

end SliceAssignment

end CodedVideo
