import CodedVideo.Bits.Width
import CodedVideo.Parse
import CodedVideo.Report

/-!
# Virtual boundaries

Lines across a picture over which no filter reaches.  Their positions are
multiples of eight samples.
-/

namespace CodedVideo

open Report (field slots)

/-- The positions of virtual boundaries, as one less than multiples of eight. -/
structure VirtualBoundaries where
  vertical : List Nat := []
  horizontal : List Nat := []
  deriving DecidableEq, Repr, Inhabited

namespace VirtualBoundaries

/-- The largest number of boundaries of one direction. -/
def maxCount : Nat := 3

/-- Reads the boundaries that cut a length of `size` samples. -/
def readAlong (size : Nat) : Parse (List Nat) := do
  let count ← Parse.ueMax (if size ≤ 8 then 0 else maxCount)
  Parse.collect count fun _ => Parse.ueMax (ceilDiv size 8 - 2)

/-- Reads the boundaries of a picture. -/
def read (width height : Nat) : Parse VirtualBoundaries := do
  let vertical ← readAlong width
  let horizontal ← readAlong height
  return { vertical, horizontal }

/-- The report of the boundaries; `lead` starts the labels. -/
def members (lead : String) (b : VirtualBoundaries) : List (String × Report) := [
  field (lead ++ "num_ver_virtual_boundaries") b.vertical.length,
  slots (lead ++ "virtual_boundary_pos_x_minus1") maxCount b.vertical,
  field (lead ++ "num_hor_virtual_boundaries") b.horizontal.length,
  slots (lead ++ "virtual_boundary_pos_y_minus1") maxCount b.horizontal]

end VirtualBoundaries

end CodedVideo
