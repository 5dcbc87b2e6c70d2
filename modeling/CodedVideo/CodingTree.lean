import CodedVideo.Parse
import CodedVideo.Report

/-!
# Coding trees

A coding tree unit is split into coding blocks: first by a quadtree, then by
binary and ternary splits.  Limits on how far each kind of split goes are given
in a sequence parameter set, separately for luma and chroma of intra slices and
for inter slices, and a picture header can override them.
-/

namespace CodedVideo

open Report (field)

/-- The sizes of the largest and the smallest blocks, as powers of two. -/
structure BlockSizes where
  ctbLog2 : Nat
  minCbLog2 : Nat
  deriving DecidableEq, Repr

/-- The size of the largest block that can be transformed or split in three. -/
def BlockSizes.maxSplitLog2 (sizes : BlockSizes) : Nat := min sizes.ctbLog2 6

/-- How far a coding tree may be split. -/
structure TreeLimits where
  /-- How much larger than the smallest block a leaf of the quadtree is. -/
  minQt : Nat := 0
  /-- How many splits follow those of the quadtree. -/
  depth : Nat := 0
  /-- How much larger than a leaf of the quadtree a binary split may be. -/
  maxBt : Nat := 0
  /-- How much larger than a leaf of the quadtree a ternary split may be. -/
  maxTt : Nat := 0
  deriving DecidableEq, Repr

namespace TreeLimits

instance : Inhabited TreeLimits := ⟨{}⟩

/-- The size of the smallest leaf of the quadtree. -/
def minQtLog2 (sizes : BlockSizes) (t : TreeLimits) : Nat := sizes.minCbLog2 + t.minQt

/-- Reads the limits of a tree whose binary splits apply to blocks of at most the
given size. -/
def read (sizes : BlockSizes) (largestBt : Nat) : Parse TreeLimits := do
  let minQt ← Parse.ueMax (sizes.maxSplitLog2 - sizes.minCbLog2)
  let depth ← Parse.ueMax (2 * (sizes.ctbLog2 - sizes.minCbLog2))
  let leaf := sizes.minCbLog2 + minQt
  let maxBt ← Parse.given (depth != 0) (Parse.ueMax (largestBt - leaf))
  let maxTt ← Parse.given (depth != 0) (Parse.ueMax (sizes.maxSplitLog2 - leaf))
  return { minQt, depth, maxBt, maxTt }

/-- How far quantisation parameters can be given below a coding tree unit. -/
def maxSubdivision (sizes : BlockSizes) (t : TreeLimits) : Nat :=
  2 * (sizes.ctbLog2 - t.minQtLog2 sizes + t.depth)

/-- The report of the limits of a tree; `lead` starts the labels and `tree` ends
them. -/
def members (lead tree : String) (t : TreeLimits) : List (String × Report) := [
  field (lead ++ "log2_diff_min_qt_min_cb_" ++ tree) t.minQt,
  field (lead ++ "max_mtt_hierarchy_depth_" ++ tree) t.depth,
  field (lead ++ "log2_diff_max_bt_min_qt_" ++ tree) t.maxBt,
  field (lead ++ "log2_diff_max_tt_min_qt_" ++ tree) t.maxTt]

end TreeLimits

/-- The limits of all coding trees. -/
structure CodingTrees where
  intraLuma : TreeLimits := {}
  intraChroma : TreeLimits := {}
  inter : TreeLimits := {}
  deriving DecidableEq, Repr

namespace CodingTrees

instance : Inhabited CodingTrees := ⟨{}⟩

/-- The report of the limits of all trees. -/
def members (lead : String) (t : CodingTrees) : List (String × Report) :=
  t.intraLuma.members lead "intra_slice_luma" ++
    t.intraChroma.members lead "intra_slice_chroma" ++
    t.inter.members lead "inter_slice"

instance : Reportable CodingTrees := ⟨fun t => .group (t.members "")⟩

end CodingTrees

end CodedVideo
