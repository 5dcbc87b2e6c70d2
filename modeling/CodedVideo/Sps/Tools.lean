import CodedVideo.Parse
import CodedVideo.Report

/-!
# The coding tools of a sequence

A sequence parameter set turns coding tools on and limits them.  They are
grouped by the stage of coding they belong to: transforms, loop filters,
prediction from other pictures, prediction inside a picture, and quantisation.
-/

namespace CodedVideo

open Report (field slots)

/-- The tools for transforms. -/
structure TransformTools where
  size64 : Bool := false
  skip : Bool := false
  log2SkipSizeMinus2 : Nat := 0
  bdpcm : Bool := false
  multiple : Bool := false
  multipleIntra : Bool := false
  multipleInter : Bool := false
  nonSeparable : Bool := false
  deriving DecidableEq, Repr, Inhabited

namespace TransformTools

/-- Reads the tools for transforms, those of size 64 only if blocks can be larger
than 32. -/
def read (ctbLog2 : Nat) : Parse TransformTools := do
  let size64 ← Parse.flagIf (ctbLog2 > 5)
  let skip ← Parse.flag
  let log2SkipSizeMinus2 ← Parse.given skip (Parse.ueMax 3)
  let bdpcm ← Parse.flagIf skip
  let multiple ← Parse.flag
  let multipleIntra ← Parse.flagIf multiple
  let multipleInter ← Parse.flagIf multiple
  let nonSeparable ← Parse.flag
  return {
    size64, skip, log2SkipSizeMinus2, bdpcm, multiple, multipleIntra, multipleInter
    nonSeparable }

/-- The report of the tools for transforms. -/
def members (t : TransformTools) : List (String × Report) := [
  field "sps_max_luma_transform_size_64_flag" t.size64,
  field "sps_transform_skip_enabled_flag" t.skip,
  field "sps_log2_transform_skip_max_size_minus2" t.log2SkipSizeMinus2,
  field "sps_bdpcm_enabled_flag" t.bdpcm,
  field "sps_mts_enabled_flag" t.multiple,
  field "sps_explicit_mts_intra_enabled_flag" t.multipleIntra,
  field "sps_explicit_mts_inter_enabled_flag" t.multipleInter,
  field "sps_lfnst_enabled_flag" t.nonSeparable]

end TransformTools

/-- The tools for filters inside the coding loop, and for mapping luma. -/
structure FilterTools where
  sao : Bool := false
  alf : Bool := false
  ccAlf : Bool := false
  lmcs : Bool := false
  deriving DecidableEq, Repr, Inhabited

namespace FilterTools

/-- Reads the tools for filters. -/
def read (chroma : Bool) : Parse FilterTools := do
  let sao ← Parse.flag
  let alf ← Parse.flag
  let ccAlf ← Parse.flagIf (alf && chroma)
  let lmcs ← Parse.flag
  return { sao, alf, ccAlf, lmcs }

/-- The report of the tools for filters. -/
def members (t : FilterTools) : List (String × Report) := [
  field "sps_sao_enabled_flag" t.sao,
  field "sps_alf_enabled_flag" t.alf,
  field "sps_ccalf_enabled_flag" t.ccAlf,
  field "sps_lmcs_enabled_flag" t.lmcs]

end FilterTools

/-- Affine motion. -/
structure AffineTools where
  enabled : Bool := false
  fiveMinusMergeCandidates : Nat := 0
  sixParameters : Bool := false
  adaptiveResolution : Bool := false
  refinement : Bool := false
  refinementInHeader : Bool := false
  deriving DecidableEq, Repr, Inhabited

/-- Reads whether and how affine motion is used. -/
def AffineTools.read (subblockTemporal adaptive : Bool) : Parse AffineTools := do
  let enabled ← Parse.flag
  let fiveMinusMergeCandidates ←
    Parse.given enabled (Parse.ueMax (5 - if subblockTemporal then 1 else 0))
  let sixParameters ← Parse.flagIf enabled
  let adaptiveResolution ← Parse.flagIf (enabled && adaptive)
  let refinement ← Parse.flagIf enabled
  let refinementInHeader ← Parse.flagIf refinement
  return {
    enabled, fiveMinusMergeCandidates, sixParameters, adaptiveResolution, refinement
    refinementInHeader }

/-- The tools for prediction from other pictures. -/
structure InterTools where
  wraparound : Bool := false
  temporalMotion : Bool := false
  subblockTemporal : Bool := false
  adaptiveResolution : Bool := false
  opticalFlow : Bool := false
  opticalFlowInHeader : Bool := false
  symmetric : Bool := false
  decoderRefinement : Bool := false
  decoderRefinementInHeader : Bool := false
  mergeDifference : Bool := false
  mergeDifferenceFullPel : Bool := false
  sixMinusMergeCandidates : Nat := 0
  subblockTransform : Bool := false
  affine : AffineTools := {}
  weights : Bool := false
  combined : Bool := false
  geometric : Bool := false
  mergeMinusGeometricCandidates : Nat := 0
  log2ParallelMergeMinus2 : Nat := 0
  deriving DecidableEq, Repr

namespace InterTools

instance : Inhabited InterTools := ⟨{}⟩

/-- The number of merge candidates. -/
def mergeCandidates (t : InterTools) : Nat := 6 - t.sixMinusMergeCandidates

/-- Reads the tools for prediction from other pictures. -/
def read (ctbLog2 : Nat) : Parse InterTools := do
  let wraparound ← Parse.flag
  let temporalMotion ← Parse.flag
  let subblockTemporal ← Parse.flagIf temporalMotion
  let adaptiveResolution ← Parse.flag
  let opticalFlow ← Parse.flag
  let opticalFlowInHeader ← Parse.flagIf opticalFlow
  let symmetric ← Parse.flag
  let decoderRefinement ← Parse.flag
  let decoderRefinementInHeader ← Parse.flagIf decoderRefinement
  let mergeDifference ← Parse.flag
  let mergeDifferenceFullPel ← Parse.flagIf mergeDifference
  let sixMinusMergeCandidates ← Parse.ueMax 5
  let subblockTransform ← Parse.flag
  let affine ← AffineTools.read subblockTemporal adaptiveResolution
  let weights ← Parse.flag
  let combined ← Parse.flag
  let candidates := 6 - sixMinusMergeCandidates
  let geometric ← Parse.flagIf (candidates ≥ 2)
  let mergeMinusGeometricCandidates ←
    Parse.given (geometric && candidates ≥ 3) (Parse.ueMax (candidates - 2))
  let log2ParallelMergeMinus2 ← Parse.ueMax (ctbLog2 - 2)
  return {
    wraparound, temporalMotion, subblockTemporal, adaptiveResolution, opticalFlow
    opticalFlowInHeader, symmetric, decoderRefinement, decoderRefinementInHeader
    mergeDifference, mergeDifferenceFullPel, sixMinusMergeCandidates, subblockTransform, affine
    weights, combined, geometric, mergeMinusGeometricCandidates, log2ParallelMergeMinus2 }

/-- The report of the tools for prediction from other pictures. -/
def members (t : InterTools) : List (String × Report) := [
  field "sps_ref_wraparound_enabled_flag" t.wraparound,
  field "sps_temporal_mvp_enabled_flag" t.temporalMotion,
  field "sps_sbtmvp_enabled_flag" t.subblockTemporal,
  field "sps_amvr_enabled_flag" t.adaptiveResolution,
  field "sps_bdof_enabled_flag" t.opticalFlow,
  field "sps_bdof_control_present_in_ph_flag" t.opticalFlowInHeader,
  field "sps_smvd_enabled_flag" t.symmetric,
  field "sps_dmvr_enabled_flag" t.decoderRefinement,
  field "sps_dmvr_control_present_in_ph_flag" t.decoderRefinementInHeader,
  field "sps_mmvd_enabled_flag" t.mergeDifference,
  field "sps_mmvd_fullpel_only_enabled_flag" t.mergeDifferenceFullPel,
  field "sps_six_minus_max_num_merge_cand" t.sixMinusMergeCandidates,
  field "max_num_merge_cand" t.mergeCandidates,
  field "sps_sbt_enabled_flag" t.subblockTransform,
  field "sps_affine_enabled_flag" t.affine.enabled,
  field "sps_five_minus_max_num_subblock_merge_cand" t.affine.fiveMinusMergeCandidates,
  field "sps_6param_affine_enabled_flag" t.affine.sixParameters,
  field "sps_affine_amvr_enabled_flag" t.affine.adaptiveResolution,
  field "sps_affine_prof_enabled_flag" t.affine.refinement,
  field "sps_prof_control_present_in_ph_flag" t.affine.refinementInHeader,
  field "sps_bcw_enabled_flag" t.weights,
  field "sps_ciip_enabled_flag" t.combined,
  field "sps_gpm_enabled_flag" t.geometric,
  field "sps_max_num_merge_cand_minus_max_num_gpm_cand" t.mergeMinusGeometricCandidates,
  field "sps_log2_parallel_merge_level_minus2" t.log2ParallelMergeMinus2]

end InterTools

/-- The tools for prediction inside a picture. -/
structure IntraTools where
  subpartitions : Bool := false
  referenceLines : Bool := false
  matrix : Bool := false
  crossComponent : Bool := false
  collocatedHorizontally : Bool := true
  collocatedVertically : Bool := true
  palette : Bool := false
  colourTransform : Bool := false
  minQpPrime : Nat := 0
  blockCopy : Bool := false
  sixMinusBlockCopyCandidates : Nat := 0
  deriving DecidableEq, Repr

namespace IntraTools

instance : Inhabited IntraTools := ⟨{}⟩

/-- Reads the tools for prediction inside a picture of a given chroma format. -/
def read (chromaFormat : Nat) (transforms : TransformTools) : Parse IntraTools := do
  let subpartitions ← Parse.flag
  let referenceLines ← Parse.flag
  let matrix ← Parse.flag
  let crossComponent ← Parse.flagIf (chromaFormat != 0)
  let collocatedHorizontally ← if chromaFormat = 1 then Parse.flag else pure true
  let collocatedVertically ← if chromaFormat = 1 then Parse.flag else pure true
  let palette ← Parse.flag
  let colourTransform ← Parse.flagIf (chromaFormat == 3 && !transforms.size64)
  let minQpPrime ← Parse.given (transforms.skip || palette) (Parse.ueMax 8)
  let blockCopy ← Parse.flag
  let sixMinusBlockCopyCandidates ← Parse.given blockCopy (Parse.ueMax 5)
  return {
    subpartitions, referenceLines, matrix, crossComponent, collocatedHorizontally
    collocatedVertically, palette, colourTransform, minQpPrime, blockCopy
    sixMinusBlockCopyCandidates }

/-- The report of the tools for prediction inside a picture. -/
def members (t : IntraTools) : List (String × Report) := [
  field "sps_isp_enabled_flag" t.subpartitions,
  field "sps_mrl_enabled_flag" t.referenceLines,
  field "sps_mip_enabled_flag" t.matrix,
  field "sps_cclm_enabled_flag" t.crossComponent,
  field "sps_chroma_horizontal_collocated_flag" t.collocatedHorizontally,
  field "sps_chroma_vertical_collocated_flag" t.collocatedVertically,
  field "sps_palette_enabled_flag" t.palette,
  field "sps_act_enabled_flag" t.colourTransform,
  field "sps_min_qp_prime_ts" t.minQpPrime,
  field "sps_ibc_enabled_flag" t.blockCopy,
  field "sps_six_minus_max_num_ibc_merge_cand" t.sixMinusBlockCopyCandidates]

end IntraTools

/-- An interval of luma values and the deblocking offset above it. -/
structure LumaInterval where
  qpOffset : Int
  thresholdMinus1 : Nat
  deriving DecidableEq, Repr

/-- Deblocking that adapts to the luma level. -/
structure AdaptiveDeblocking where
  lowestOffset : Int
  intervals : List LumaInterval
  deriving DecidableEq, Repr

namespace AdaptiveDeblocking

/-- Reads the offsets for samples of `bitDepth` bits. -/
def read (bitDepth : Nat) : Parse AdaptiveDeblocking := do
  let countMinus1 ← Parse.u 2
  let lowestOffset ← Parse.seBetween (-63) 63
  let intervals ← Parse.collect (countMinus1 + 1) fun _ => do
    let qpOffset ← Parse.seBetween (-63) 63
    let thresholdMinus1 ← Parse.ueMax (pow2 bitDepth - 3)
    return { qpOffset, thresholdMinus1 : LumaInterval }
  return { lowestOffset, intervals }

end AdaptiveDeblocking

/-- The tools for quantisation. -/
structure QuantisationTools where
  scalingLists : Bool := false
  noScalingForNonSeparable : Bool := false
  noScalingForOtherColours : Bool := false
  designatedColours : Bool := false
  dependent : Bool := false
  signHiding : Bool := false
  deriving DecidableEq, Repr, Inhabited

namespace QuantisationTools

/-- Reads the tools for quantisation. -/
def read (nonSeparable colourTransform : Bool) : Parse QuantisationTools := do
  let scalingLists ← Parse.flag
  let noScalingForNonSeparable ← Parse.flagIf (nonSeparable && scalingLists)
  let noScalingForOtherColours ← Parse.flagIf (colourTransform && scalingLists)
  let designatedColours ← Parse.flagIf noScalingForOtherColours
  let dependent ← Parse.flag
  let signHiding ← Parse.flag
  return {
    scalingLists, noScalingForNonSeparable, noScalingForOtherColours, designatedColours
    dependent, signHiding }

/-- The report of the tools for quantisation. -/
def members (t : QuantisationTools) : List (String × Report) := [
  field "sps_explicit_scaling_list_enabled_flag" t.scalingLists,
  field "sps_scaling_matrix_for_lfnst_disabled_flag" t.noScalingForNonSeparable,
  field "sps_scaling_matrix_for_alternative_colour_space_disabled_flag"
    t.noScalingForOtherColours,
  field "sps_scaling_matrix_designated_colour_space_flag" t.designatedColours,
  field "sps_dep_quant_enabled_flag" t.dependent,
  field "sps_sign_data_hiding_enabled_flag" t.signHiding]

end QuantisationTools

/-- What the range extension adds for samples of many bits. -/
structure RangeExtension where
  extendedPrecision : Bool := false
  riceInSliceHeader : Bool := false
  riceExtension : Bool := false
  persistentRice : Bool := false
  reverseLastSignificant : Bool := false
  deriving DecidableEq, Repr, Inhabited

namespace RangeExtension

/-- Reads sps_range_extension(). -/
def read (transformSkip : Bool) : Parse RangeExtension := do
  let extendedPrecision ← Parse.flag
  let riceInSliceHeader ← Parse.flagIf transformSkip
  let riceExtension ← Parse.flag
  let persistentRice ← Parse.flag
  let reverseLastSignificant ← Parse.flag
  return {
    extendedPrecision, riceInSliceHeader, riceExtension, persistentRice
    reverseLastSignificant }

/-- The report of the range extension. -/
def members (e : RangeExtension) : List (String × Report) := [
  field "sps_extended_precision_flag" e.extendedPrecision,
  field "sps_ts_residual_coding_rice_present_in_sh_flag" e.riceInSliceHeader,
  field "sps_rrc_rice_extension_flag" e.riceExtension,
  field "sps_persistent_rice_adaptation_enabled_flag" e.persistentRice,
  field "sps_reverse_last_sig_coeff_enabled_flag" e.reverseLastSignificant]

end RangeExtension

/-- The report of deblocking that adapts to the luma level. -/
def AdaptiveDeblocking.members (d : Option AdaptiveDeblocking) : List (String × Report) :=
  let intervals := (d.map (·.intervals)).getD []
  [ field "sps_ladf_enabled_flag" d.isSome,
    field "sps_num_ladf_intervals_minus2" (intervals.length - 1),
    field "sps_ladf_lowest_interval_qp_offset" (d.map (·.lowestOffset)),
    slots "sps_ladf_qp_offset" 4 (intervals.map (·.qpOffset)),
    slots "sps_ladf_delta_threshold_minus1" 4 (intervals.map (·.thresholdMinus1))]

end CodedVideo
