import CodedVideo.Bits.Width
import CodedVideo.Parse
import CodedVideo.Partition.Subpicture

/-!
# The subpictures of a sequence

A sequence parameter set divides its pictures into rectangular subpictures,
measured in coding tree blocks.  They are given one by one or, if they all have
the same size, by the first one alone.  Without any such information the whole
picture is a single subpicture.
-/

namespace CodedVideo

open Report (field)

/-- The largest number of subpictures. -/
def maxSubpictures : Nat := 600

/-- A subpicture of a sequence. -/
structure SpsSubpicture where
  area : SubpictureRect
  /-- Whether its boundaries are treated as those of a picture. -/
  treatedAsPicture : Bool := true
  /-- Whether loop filters reach over its boundaries. -/
  filterAcross : Bool := false
  deriving DecidableEq, Repr

/-- The subpictures of a sequence. -/
structure SpsSubpictures where
  infoPresent : Bool := false
  independent : Bool := true
  sameSize : Bool := false
  entries : List SpsSubpicture := []
  idLengthMinus1 : Nat := 0
  /-- Whether ids are given, here or in the picture parameter sets. -/
  idsSignalled : Bool := false
  /-- The ids, if they are given here. -/
  ids : Option (List Nat) := none
  /-- The subpicture of each coding tree block, row by row. -/
  owners : Array Nat := #[]
  deriving DecidableEq, Repr

namespace SpsSubpictures

instance : Inhabited SpsSubpictures := ⟨{}⟩

/-- The number of subpictures. -/
def count (s : SpsSubpictures) : Nat := s.entries.length

/-- The areas of the subpictures. -/
def areas (s : SpsSubpictures) : List SubpictureRect := s.entries.map (·.area)

/-- Reads the area of a subpicture of a picture of `width` by `height` blocks.  The
first one starts at the upper left corner, and the last one reaches to the lower
right one. -/
def readArea (width height : Nat) (index : Nat) (last : Bool) : Parse SubpictureRect := do
  let left ← Parse.given (index != 0 && width > 1) (Parse.u (ceilLog2 width))
  let top ← Parse.given (index != 0 && height > 1) (Parse.u (ceilLog2 height))
  Parse.refuseIf (left ≥ width || top ≥ height) (.subpictureStartsOutside index)
  let ownWidth ←
    if !last && width > 1 then (· + 1) <$> Parse.u (ceilLog2 width) else pure (width - left)
  let ownHeight ←
    if !last && height > 1 then (· + 1) <$> Parse.u (ceilLog2 height) else pure (height - top)
  return { left, top, width := ownWidth, height := ownHeight }

/-- The area at a given index of rows of areas that have the size of the first one. -/
def placeArea (width : Nat) (first : SubpictureRect) (index : Nat) : Parse SubpictureRect := do
  let columns := width / first.width
  Parse.refuseIf (columns == 0) .subpictureTooWide
  return {
    left := index % columns * first.width
    top := index / columns * first.height
    width := first.width
    height := first.height }

/-- Completes a subpicture whose area is known. -/
def readFlags (independent : Bool) (area : SubpictureRect) : Parse SpsSubpicture := do
  if independent then return { area }
  let treatedAsPicture ← Parse.flag
  let filterAcross ← Parse.flag
  return { area, treatedAsPicture, filterAcross }

/-- Reads `count` subpictures. -/
def readEntries (width height count : Nat) (independent sameSize : Bool) :
    Parse (List SpsSubpicture) := do
  let first ← readFlags independent (← readArea width height 0 (count == 1))
  let rest ← Parse.collectFrom (fun index => do
    let area ←
      if sameSize then placeArea width first.area index
      else readArea width height index (index + 1 == count)
    readFlags independent area) 1 (count - 1)
  return first :: rest

/-- Reads the subpictures of a picture of `width` by `height` blocks. -/
def readInfo (width height : Nat) : Parse SpsSubpictures := do
  let count := (← Parse.ueMax (min (maxSubpictures - 1) (width * height - 1))) + 1
  let several := count > 1
  let independent ← if several then Parse.flag else pure true
  let sameSize ← Parse.flagIf several
  let entries ← readEntries width height count independent sameSize
  let idLengthMinus1 ← Parse.ueMax 15
  Parse.refuseIf (pow2 (idLengthMinus1 + 1) < count) (.subpictureIdsTooShort idLengthMinus1 count)
  let idsSignalled ← Parse.flag
  let present ← Parse.flagIf idsSignalled
  let ids ←
    if present then some <$> Parse.collect count fun _ => Parse.u (idLengthMinus1 + 1)
    else pure none
  return {
    infoPresent := true, independent, sameSize, entries, idLengthMinus1, idsSignalled, ids }

/-- The whole picture as a single subpicture. -/
def whole (width height : Nat) : SpsSubpictures :=
  { entries := [{ area := { left := 0, top := 0, width, height } }] }

/-- Reads the subpictures of a picture of `width` by `height` blocks, which they
have to divide among themselves. -/
def read (width height : Nat) : Parse SpsSubpictures := do
  let subpictures ← if ← Parse.flag then readInfo width height else pure (whole width height)
  let owners ← Parse.ofPartition (subpictureMap width height subpictures.areas)
  return { subpictures with owners }

/-- The report of the subpictures. -/
def members (s : SpsSubpictures) : List (String × Report) := [
  field "sps_subpic_info_present_flag" s.infoPresent,
  field "sps_num_subpics_minus1" (s.count - 1),
  field "sps_independent_subpics_flag" s.independent,
  field "sps_subpic_same_size_flag" s.sameSize,
  field "sps_subpic_ctu_top_left_x" (s.areas.map (·.left)),
  field "sps_subpic_ctu_top_left_y" (s.areas.map (·.top)),
  field "sps_subpic_width_minus1" (s.areas.map (·.width - 1)),
  field "sps_subpic_height_minus1" (s.areas.map (·.height - 1)),
  field "sps_subpic_treated_as_pic_flag" (s.entries.map (·.treatedAsPicture)),
  field "sps_loop_filter_across_subpic_enabled_flag" (s.entries.map (·.filterAcross)),
  field "sps_subpic_id_len_minus1" s.idLengthMinus1,
  field "sps_subpic_id_mapping_explicitly_signalled_flag" s.idsSignalled,
  field "sps_subpic_id_mapping_present_flag" s.ids.isSome,
  field "sps_subpic_id" (s.ids.getD []),
  field "subpics" s.areas,
  field "ctb_to_subpic_idx" s.owners]

end SpsSubpictures

end CodedVideo
