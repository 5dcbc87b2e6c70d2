/-!
# Partitions that are no partitions

What can be wrong with the tiles, slices and subpictures that a stream asks for.
-/

namespace CodedVideo

/-- Why a picture cannot be partitioned as asked. -/
inductive PartitionError where
  /-- A tile or slice has no extent. -/
  | zeroSize
  /-- Explicit sizes add up to more than there is. -/
  | sizesExceedPicture (sum total : Nat)
  /-- A slice names a tile that does not exist. -/
  | tileIndexOutOfRange (index : Int) (tiles : Nat)
  /-- A slice asks for tiles beyond the last column or row. -/
  | sliceOutsideTileGrid (slice : Nat)
  /-- A coding tree block lies in two slices. -/
  | sliceOverlap (ctb : Nat)
  /-- Some coding tree blocks lie in no slice. -/
  | uncoveredCtbs (count : Nat)
  /-- The slices of a tile are higher than the tile. -/
  | sliceHeightsExceedTile
  /-- A subpicture cuts through tiles. -/
  | subpictureNotAligned (index : Nat)
  /-- A subpicture leaves the picture. -/
  | subpictureOutsidePicture (index : Nat)
  /-- A coding tree block lies in two subpictures. -/
  | subpictureOverlap (ctb : Nat)
  /-- Some coding tree blocks lie in no subpicture. -/
  | uncoveredBySubpictures (count : Nat)
  deriving DecidableEq, Repr

/-- The text that reports a partition error. -/
def PartitionError.message : PartitionError → String
  | .zeroSize => "a tile or slice size of zero was signalled"
  | .sizesExceedPicture sum total =>
    s!"explicit sizes add up to {sum} CTBs, more than the {total} available"
  | .tileIndexOutOfRange index tiles =>
    s!"tile index {index} is outside of a picture with {tiles} tiles"
  | .sliceOutsideTileGrid slice => s!"slice {slice} spans beyond the tile grid"
  | .sliceOverlap ctb => s!"CTB {ctb} belongs to more than one slice"
  | .uncoveredCtbs count => s!"{count} CTBs are not covered by any slice"
  | .sliceHeightsExceedTile => "slice heights in tile exceed the tile height"
  | .subpictureNotAligned index => s!"subpicture {index} is not aligned to tile boundaries"
  | .subpictureOutsidePicture index => s!"subpicture {index} lies outside of the picture"
  | .subpictureOverlap ctb => s!"CTB {ctb} belongs to more than one subpicture"
  | .uncoveredBySubpictures count => s!"{count} CTBs are not covered by any subpicture"

end CodedVideo
