import CodedVideo.AlfChoice
import CodedVideo.Pps
import CodedVideo.WeightTable

/-!
# Picture headers

A picture header holds what the slices of a picture have in common.  It comes in
a NAL unit of its own or at the start of a slice header; both use the same
structure.

`PictureHeader.readStart` reads up to the id of the picture parameter set, which
determines how the remainder is coded, and `PictureHeader.readRest` reads the
remainder.
-/

namespace CodedVideo

open Report (field slots)

/-- The elements of a picture header up to the id of its picture parameter set. -/
structure PictureStart where
  /-- Whether decoding can start at or gradually from the picture. -/
  entryPoint : Bool
  nonReference : Bool
  gradual : Bool
  interSlices : Bool
  intraSlices : Bool
  ppsId : Nat
  deriving DecidableEq, Repr

instance : Inhabited PictureStart where
  default :=
    { entryPoint := false, nonReference := false, gradual := false, interSlices := false
      intraSlices := false, ppsId := 0 }

/-- The mapping of luma values in a picture. -/
structure PictureMapping where
  aps : Nat
  chromaScaling : Bool
  deriving DecidableEq, Repr

/-- How far QPs can be given below a coding tree unit, and chroma offsets. -/
structure Subdivision where
  qp : Nat := 0
  chroma : Nat := 0
  deriving DecidableEq, Repr, Inhabited

/-- How the pictures that a picture refers to are used. -/
structure PictureMotion where
  temporal : Bool := false
  /-- Whether the collocated picture is in the first list. -/
  collocatedFirst : Bool := true
  collocatedIndex : Nat := 0
  fullPel : Bool := false
  zeroDifference : Bool := true
  opticalFlowOff : Bool
  refinementOff : Bool
  affineRefinementOff : Bool
  weights : Option WeightTable := none
  deriving DecidableEq, Repr

/-- What the slices of a picture have in common. -/
structure PictureHeader where
  start : PictureStart := default
  lsb : Nat := 0
  recoveryCount : Nat := 0
  /-- The high part of the order count, if it is given. -/
  msbCycle : Option Nat := none
  alf : AlfChoice := {}
  mapping : Option PictureMapping := none
  /-- The adaptation parameter set of the scaling matrices, if there are any. -/
  scalingLists : Option Nat := none
  boundaries : Option VirtualBoundaries := none
  output : Bool := true
  lists : RefLists := {}
  treesOverridden : Bool := false
  trees : CodingTrees := {}
  intraSubdivision : Subdivision := {}
  interSubdivision : Subdivision := {}
  motion : PictureMotion
  qpDelta : Int := 0
  jointSign : Bool := false
  saoLuma : Bool := false
  saoChroma : Bool := false
  deblockingCoded : Bool := false
  deblocking : Deblocking := {}
  extensionLength : Nat := 0
  deriving DecidableEq, Repr

namespace PictureHeader

/-- The largest id of a picture parameter set. -/
def maxPpsId : Nat := 63

/-- Reads the elements up to the id of the picture parameter set. -/
def readStart : Parse PictureStart := do
  let entryPoint ← Parse.flag
  let nonReference ← Parse.flag
  let gradual ← Parse.flagIf entryPoint
  let interSlices ← Parse.flag
  let intraSlices ← if interSlices then Parse.flag else pure true
  let ppsId ← Parse.ueMax maxPpsId
  return { entryPoint, nonReference, gradual, interSlices, intraSlices, ppsId }

/-- How pictures are used unless the header says otherwise. -/
def initialMotion (sps : Sps) : PictureMotion where
  opticalFlowOff := sps.inter.opticalFlowInHeader || !sps.inter.opticalFlow
  refinementOff := sps.inter.decoderRefinementInHeader || !sps.inter.decoderRefinement
  affineRefinementOff := !sps.inter.affine.refinement

/-- The header of which only the start has been read. -/
def initial (pps : Pps) (start : PictureStart) : PictureHeader where
  start := start
  trees := pps.sps.trees
  deblocking := pps.deblocking.settings
  motion := initialMotion pps.sps

/-- Reads the order count. -/
def readCount (sps : Sps) (h : PictureHeader) : Parse PictureHeader := do
  Parse.refuseIf (h.start.gradual && !sps.gdr) .gdrDisabled
  let lsb ← Parse.u sps.headers.lsbBits
  let recoveryCount ← Parse.given h.start.gradual (Parse.ueMax sps.maxLsb)
  Parse.skip (HeaderCoding.presentCount sps.headers.extraPictureBits)
  let msbCycle ←
    match sps.headers.msbCycleLengthMinus1 with
    | none => pure none
    | some lengthMinus1 =>
      if ← Parse.flag then some <$> Parse.u (lengthMinus1 + 1) else pure none
  return { h with lsb, recoveryCount, msbCycle }

/-- Reads which adaptation parameter sets are used. -/
def readChoices (pps : Pps) (h : PictureHeader) : Parse PictureHeader := do
  let sps := pps.sps
  let alf ←
    Parse.given (sps.filters.alf && pps.inPictureHeader.alf)
      (AlfChoice.read sps.hasChroma sps.filters.ccAlf)
  let mapped ← Parse.flagIf sps.filters.lmcs
  let mapping ←
    if mapped then do
      let aps ← Parse.u 2
      let chromaScaling ← Parse.flagIf sps.hasChroma
      pure (some { aps, chromaScaling : PictureMapping })
    else pure none
  let scaled ← Parse.flagIf sps.quantisation.scalingLists
  let scalingLists ← if scaled then some <$> Parse.u 3 else pure none
  return { h with alf, mapping, scalingLists }

/-- Reads the virtual boundaries, whether the picture is output, and its reference
lists; `references` finds to how many layers it can refer. -/
def readScope (pps : Pps) (references : Parse Nat) (h : PictureHeader) : Parse PictureHeader := do
  let sps := pps.sps
  let bounded ← Parse.flagIf (sps.virtualBoundaries && sps.boundaries.isNone)
  let boundaries ←
    if bounded then some <$> VirtualBoundaries.read pps.width pps.height else pure none
  let output ← if pps.outputFlags && !h.start.nonReference then Parse.flag else pure true
  let lists ←
    Parse.given pps.inPictureHeader.lists do
      RefLists.read sps.listRules sps.references.candidates0 sps.references.candidates1
        pps.references.choice1Coded (← references)
  return { h with boundaries, output, lists }

/-- Reads how far QPs can be given in a coding tree. -/
def readSubdivision (pps : Pps) (tree : TreeLimits) : Parse Subdivision := do
  let largest := tree.maxSubdivision pps.sps.blocks
  let qp ← Parse.given pps.qp.blockDelta (Parse.ueMax largest)
  let chroma ← Parse.given pps.qp.blockOffsets.isSome (Parse.ueMax largest)
  return { qp, chroma }

/-- Reads what applies to intra slices. -/
def readIntra (pps : Pps) (h : PictureHeader) : Parse PictureHeader := do
  let treesOverridden ← Parse.flagIf pps.sps.treesOverridable
  if !h.start.intraSlices then return { h with treesOverridden }
  let tree := TreeLimits.read pps.sps.blocks pps.sps.blocks.ctbLog2
  let intraLuma ← if treesOverridden then tree else pure h.trees.intraLuma
  let intraChroma ←
    if treesOverridden && pps.sps.dualTree then tree else pure h.trees.intraChroma
  let intraSubdivision ← readSubdivision pps intraLuma
  return {
    h with treesOverridden, intraSubdivision, trees := { h.trees with intraLuma, intraChroma } }

/-- Reads where the collocated picture is, given the number of entries of each list. -/
def readCollocated (entries0 entries1 : Nat) : Parse (Bool × Nat) := do
  let first ← if entries1 > 0 then Parse.flag else pure true
  let entries := if first then entries0 else entries1
  let index ← Parse.given (entries > 1) (Parse.ueMax (entries - 1))
  return (first, index)

/-- How weights are coded in the header. -/
def weightRules (pps : Pps) (lists : RefLists) (inPictureHeader : Bool) (active : Nat × Nat) :
    WeightRules where
  chroma := pps.sps.hasChroma
  halfRange := pps.sps.weightHalfRange
  inPictureHeader := inPictureHeader
  weightedBi := pps.references.weightedBi
  entries := (lists.list0.size, lists.list1.size)
  active := active

/-- Reads how other pictures are used. -/
def readMotion (pps : Pps) (lists : RefLists) (m : PictureMotion) : Parse PictureMotion := do
  let inter := pps.sps.inter
  let inHeader := pps.inPictureHeader
  let temporal ← Parse.flagIf inter.temporalMotion
  let (collocatedFirst, collocatedIndex) ←
    if temporal && inHeader.lists then readCollocated lists.list0.size lists.list1.size
    else pure (true, 0)
  let fullPel ← Parse.flagIf inter.mergeDifferenceFullPel
  let bidirectional := !inHeader.lists || lists.list1.size > 0
  let zeroDifference ← if bidirectional then Parse.flag else pure m.zeroDifference
  let opticalFlowOff ←
    if bidirectional && inter.opticalFlowInHeader then Parse.flag else pure m.opticalFlowOff
  let refinementOff ←
    if bidirectional && inter.decoderRefinementInHeader then Parse.flag
    else pure m.refinementOff
  let affineRefinementOff ←
    if inter.affine.refinementInHeader then Parse.flag else pure m.affineRefinementOff
  let weights ←
    if pps.isWeighted && inHeader.weights then
      some <$> WeightTable.read (weightRules pps lists true (0, 0))
    else pure none
  return {
    temporal, collocatedFirst, collocatedIndex, fullPel, zeroDifference, opticalFlowOff
    refinementOff, affineRefinementOff, weights }

/-- Reads what applies to inter slices. -/
def readInter (pps : Pps) (h : PictureHeader) : Parse PictureHeader := do
  if !h.start.interSlices then return h
  let tree := TreeLimits.read pps.sps.blocks pps.sps.blocks.ctbLog2
  let inter ← if h.treesOverridden then tree else pure h.trees.inter
  let interSubdivision ← readSubdivision pps inter
  let motion ← readMotion pps h.lists h.motion
  return { h with interSubdivision, motion, trees := { h.trees with inter } }

/-- Reads the difference of a QP to the one that slices start from. -/
def readQpDelta (pps : Pps) : Parse Int :=
  Parse.seBetween (pps.sps.lowestQp - pps.qp.init) (maxQp - pps.qp.init)

/-- Reads the QP and the settings of filters, and skips the extension. -/
def readFilters (pps : Pps) (h : PictureHeader) : Parse PictureHeader := do
  let sps := pps.sps
  let inHeader := pps.inPictureHeader
  let qpDelta ← Parse.given inHeader.qp (readQpDelta pps)
  let jointSign ← Parse.flagIf sps.chromaQp.joint
  let saoLuma ← Parse.flagIf (sps.filters.sao && inHeader.sao)
  let saoChroma ← Parse.flagIf (sps.filters.sao && inHeader.sao && sps.hasChroma)
  let deblockingCoded ← Parse.flagIf pps.deblocking.inPictureHeader
  let deblocking ←
    if deblockingCoded then
      Deblocking.readOverride pps.deblocking.settings.disabled pps.qp.chromaOffsets
        h.deblocking.offsets
    else pure h.deblocking
  let extensionLength ← Parse.given pps.pictureHeaderExtension (Parse.ueMax 256)
  Parse.skip (8 * extensionLength)
  return {
    h with qpDelta, jointSign, saoLuma, saoChroma, deblockingCoded, deblocking, extensionLength }

/-- Reads the remainder of picture_header_structure(). -/
def readRest (pps : Pps) (references : Parse Nat) (start : PictureStart) : Parse PictureHeader := do
  let h ← readCount pps.sps (initial pps start)
  let h ← readChoices pps h
  let h ← readScope pps references h
  let h ← readIntra pps h
  let h ← readInter pps h
  readFilters pps h

instance : Reportable PictureHeader where
  report h := .group ([
      field "ph_gdr_or_irap_pic_flag" h.start.entryPoint,
      field "ph_non_ref_pic_flag" h.start.nonReference,
      field "ph_gdr_pic_flag" h.start.gradual,
      field "ph_inter_slice_allowed_flag" h.start.interSlices,
      field "ph_intra_slice_allowed_flag" h.start.intraSlices,
      field "ph_pic_parameter_set_id" h.start.ppsId,
      field "ph_pic_order_cnt_lsb" h.lsb,
      field "ph_recovery_poc_cnt" h.recoveryCount,
      field "ph_poc_msb_cycle_present_flag" h.msbCycle.isSome,
      field "ph_poc_msb_cycle_val" h.msbCycle,
      field "alf" h.alf,
      field "ph_lmcs_enabled_flag" h.mapping.isSome,
      field "ph_lmcs_aps_id" (h.mapping.map (·.aps)),
      field "ph_chroma_residual_scale_flag" (h.mapping.map (·.chromaScaling)),
      field "ph_explicit_scaling_list_enabled_flag" h.scalingLists.isSome,
      field "ph_scaling_list_aps_id" h.scalingLists,
      field "ph_virtual_boundaries_present_flag" h.boundaries.isSome]
    ++ (h.boundaries.getD {}).members "ph_"
    ++ [
      field "ph_pic_output_flag" h.output,
      field "ref_pic_lists" h.lists,
      field "ph_partition_constraints_override_flag" h.treesOverridden,
      field "partition_constraints" h.trees,
      field "ph_cu_qp_delta_subdiv_intra_slice" h.intraSubdivision.qp,
      field "ph_cu_chroma_qp_offset_subdiv_intra_slice" h.intraSubdivision.chroma,
      field "ph_cu_qp_delta_subdiv_inter_slice" h.interSubdivision.qp,
      field "ph_cu_chroma_qp_offset_subdiv_inter_slice" h.interSubdivision.chroma,
      field "ph_temporal_mvp_enabled_flag" h.motion.temporal,
      field "ph_collocated_from_l0_flag" h.motion.collocatedFirst,
      field "ph_collocated_ref_idx" h.motion.collocatedIndex,
      field "ph_mmvd_fullpel_only_flag" h.motion.fullPel,
      field "ph_mvd_l1_zero_flag" h.motion.zeroDifference,
      field "ph_bdof_disabled_flag" h.motion.opticalFlowOff,
      field "ph_dmvr_disabled_flag" h.motion.refinementOff,
      field "ph_prof_disabled_flag" h.motion.affineRefinementOff,
      field "pred_weight_table" h.motion.weights,
      field "ph_qp_delta" h.qpDelta,
      field "ph_joint_cbcr_sign_flag" h.jointSign,
      field "ph_sao_luma_enabled_flag" h.saoLuma,
      field "ph_sao_chroma_enabled_flag" h.saoChroma,
      field "ph_deblocking_params_present_flag" h.deblockingCoded,
      field "deblocking" h.deblocking,
      field "ph_extension_length" h.extensionLength])

end PictureHeader

end CodedVideo
