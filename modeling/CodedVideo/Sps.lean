import CodedVideo.ChromaQp
import CodedVideo.CodingTree
import CodedVideo.RefLists
import CodedVideo.Sps.Subpictures
import CodedVideo.Sps.Tools
import CodedVideo.VirtualBoundary
import CodedVideo.Vps
import CodedVideo.Vui

/-!
# Sequence parameter sets

A sequence parameter set (SPS) holds what the pictures of a layer have in common:
the sample format, the largest picture and its subpictures, the coding tools and
their limits, and candidates for reference lists.

If it refers to a video parameter set, that one fixes the layers the pictures
may be predicted from.  `Sps.read` looks it up through a function, so a sequence
parameter set can be read before its video parameter set arrives, as long as it
does not predict from other layers.
-/

namespace CodedVideo

open Report (field row slots)

/-- The part of a picture that is shown, in units of chroma samples from each side. -/
structure CroppingWindow where
  left : Int := 0
  right : Int := 0
  top : Int := 0
  bottom : Int := 0
  deriving DecidableEq, Repr, Inhabited

namespace CroppingWindow

/-- Reads a window; `offset` reads one offset. -/
def read {α : Type} (offset : Parse α) (toInt : α → Int) : Parse CroppingWindow := do
  let left ← offset
  let right ← offset
  let top ← offset
  let bottom ← offset
  return { left := toInt left, right := toInt right, top := toInt top, bottom := toInt bottom }

/-- Whether something of a picture is left, given its size and that of the units. -/
def fits (w : CroppingWindow) (unit : Nat × Nat) (width height : Nat) : Bool :=
  (w.left + w.right) * unit.1 < width && (w.top + w.bottom) * unit.2 < height

/-- Reads a conformance window, which has to leave something of the picture. -/
def readConformance (unit : Nat × Nat) (width height : Nat) : Parse CroppingWindow := do
  let window ← read Parse.ue fun offset => (offset : Int)
  Parse.refuseIf (!window.fits unit width height) .conformanceWindow
  return window

/-- The report of a window; `lead` starts the labels. -/
def members (lead : String) (w : CroppingWindow) : List (String × Report) := [
  field (lead ++ "left_offset") w.left,
  field (lead ++ "right_offset") w.right,
  field (lead ++ "top_offset") w.top,
  field (lead ++ "bottom_offset") w.bottom]

end CroppingWindow

/-- The reference decoder of a sequence. -/
structure SequenceTiming where
  general : GeneralHrd
  sublayerInfo : Bool
  sublayers : OlsTiming
  deriving DecidableEq, Repr

/-- Reads the reference decoder of a sequence. -/
def SequenceTiming.read (maxSublayer : Nat) : Parse SequenceTiming := do
  let general ← GeneralHrd.read
  let sublayerInfo ← Parse.flagIf (maxSublayer > 0)
  let sublayers ← OlsTiming.read general (if sublayerInfo then 0 else maxSublayer) maxSublayer
  return { general, sublayerInfo, sublayers }

/-- The usability information of a sequence and the size set aside for it. -/
structure SequenceUsability where
  sizeMinus1 : Nat
  content : Vui
  deriving DecidableEq, Repr

/-- Reads the usability information of a sequence, which starts at a byte and is
followed by what fills its size. -/
def SequenceUsability.read : Parse SequenceUsability := do
  let sizeMinus1 ← Parse.ueMax 1023
  let zero ← Parse.align Parse.done
  Parse.refuseIf (!zero) .vuiAlignment
  let size := (sizeMinus1 + 1) * 8
  let start ← Parse.position Parse.done
  let content ← Vui.read
  let used := (← Parse.position Parse.done) - start
  Parse.refuseIf (used > size) (.vuiOverrun used size)
  Parse.skip (size - used)
  return { sizeMinus1, content }

/-- What predicts from other pictures in a sequence, and the candidates for
reference lists. -/
structure SequenceReferences where
  weighted : Bool := false
  weightedBi : Bool := false
  longTerm : Bool := false
  interLayer : Bool := false
  listsInIdr : Bool := false
  sameLists : Bool := false
  candidates0 : List ListStructure := []
  candidates1 : List ListStructure := []
  deriving DecidableEq, Repr

namespace SequenceReferences

instance : Inhabited SequenceReferences := ⟨{}⟩

/-- The largest number of candidates for a reference list. -/
def maxCandidates : Nat := 64

/-- Reads the candidates for one reference list. -/
def readCandidates (rules : ListRules) (references : Nat) : Parse (List ListStructure) := do
  let count ← Parse.ueMax maxCandidates
  Parse.collect count fun _ => ListStructure.read rules true references

/-- Reads what predicts from other pictures; `layered` tells whether there may be
other layers and `references` finds how many the current one refers to. -/
def read (lsbBits : Nat) (layered : Bool) (references : Parse Nat) : Parse SequenceReferences := do
  let weighted ← Parse.flag
  let weightedBi ← Parse.flag
  let longTerm ← Parse.flag
  let interLayer ← Parse.flagIf layered
  let listsInIdr ← Parse.flag
  let sameLists ← Parse.flag
  let count ← if interLayer then references else pure 0
  let rules := { longTerm, interLayer, weighted := weighted || weightedBi, lsbBits : ListRules }
  let candidates0 ← readCandidates rules count
  let candidates1 ← if sameLists then pure candidates0 else readCandidates rules count
  return {
    weighted, weightedBi, longTerm, interLayer, listsInIdr, sameLists, candidates0
    candidates1 }

/-- The report of what predicts from other pictures. -/
def members (s : SequenceReferences) : List (String × Report) := [
  field "sps_weighted_pred_flag" s.weighted,
  field "sps_weighted_bipred_flag" s.weightedBi,
  field "sps_long_term_ref_pics_flag" s.longTerm,
  field "sps_inter_layer_prediction_enabled_flag" s.interLayer,
  field "sps_idr_rpl_present_flag" s.listsInIdr,
  field "sps_rpl1_same_as_rpl0_flag" s.sameLists,
  row "sps_num_ref_pic_lists" [s.candidates0.length, s.candidates1.length],
  row "ref_pic_list_struct" [s.candidates0, s.candidates1]]

end SequenceReferences

/-- How order counts and extra bits are coded in headers. -/
structure HeaderCoding where
  entropySync : Bool := false
  entryPointOffsets : Bool := false
  log2MaxLsbMinus4 : Nat := 0
  /-- One less than the number of high bits of an order count, if they can be given. -/
  msbCycleLengthMinus1 : Option Nat := none
  extraPictureBits : List Bool := []
  extraSliceBits : List Bool := []
  deriving DecidableEq, Repr

namespace HeaderCoding

instance : Inhabited HeaderCoding := ⟨{}⟩

/-- The number of low bits of an order count. -/
def lsbBits (c : HeaderCoding) : Nat := c.log2MaxLsbMinus4 + 4

/-- Reads which of some extra bits are present, in whole bytes. -/
def readExtraBits : Parse (List Bool) := do
  let bytes ← Parse.uMax 2 2
  Parse.collect (bytes * 8) fun _ => Parse.flag

/-- Reads how headers are coded. -/
def read : Parse HeaderCoding := do
  let entropySync ← Parse.flag
  let entryPointOffsets ← Parse.flag
  let log2MaxLsbMinus4 ← Parse.uMax 4 12
  let msbCycle ← Parse.flag
  let msbCycleLengthMinus1 ←
    if msbCycle then some <$> Parse.ueMax (27 - log2MaxLsbMinus4) else pure none
  let extraPictureBits ← readExtraBits
  let extraSliceBits ← readExtraBits
  return {
    entropySync, entryPointOffsets, log2MaxLsbMinus4, msbCycleLengthMinus1, extraPictureBits
    extraSliceBits }

/-- The number of extra bits that are present. -/
def presentCount (bits : List Bool) : Nat := bits.count true

/-- The report of how headers are coded. -/
def members (c : HeaderCoding) : List (String × Report) := [
  field "sps_entropy_coding_sync_enabled_flag" c.entropySync,
  field "sps_entry_point_offsets_present_flag" c.entryPointOffsets,
  field "sps_log2_max_pic_order_cnt_lsb_minus4" c.log2MaxLsbMinus4,
  field "max_pic_order_cnt_lsb" (pow2 c.lsbBits),
  field "sps_poc_msb_cycle_flag" c.msbCycleLengthMinus1.isSome,
  field "sps_poc_msb_cycle_len_minus1" c.msbCycleLengthMinus1,
  field "sps_num_extra_ph_bytes" (c.extraPictureBits.length / 8),
  field "sps_extra_ph_bit_present_flag" c.extraPictureBits,
  field "num_extra_ph_bits" (presentCount c.extraPictureBits),
  field "sps_num_extra_sh_bytes" (c.extraSliceBits.length / 8),
  field "sps_extra_sh_bit_present_flag" c.extraSliceBits,
  field "num_extra_sh_bits" (presentCount c.extraSliceBits)]

end HeaderCoding

/-- What the pictures of a layer have in common. -/
structure Sps where
  id : Nat := 0
  /-- The id of the video parameter set, or 0 without one. -/
  vpsId : Nat := 0
  maxSublayersMinus1 : Nat := 0
  /-- How densely chroma is sampled: not at all, at half the width and height, at
  half the width, or fully. -/
  chromaFormat : Nat := 0
  log2CtuSizeMinus5 : Nat := 0
  /-- Whether profile, picture buffer and reference decoder are given here. -/
  selfContained : Bool := false
  profile : ProfileTierLevel := {}
  gdr : Bool := false
  resampling : Bool := false
  sizeChange : Bool := false
  width : Nat := 0
  height : Nat := 0
  conformanceWindow : Option CroppingWindow := none
  subpictures : SpsSubpictures := {}
  bitDepthMinus8 : Nat := 0
  headers : HeaderCoding := {}
  sublayerDpb : Bool := false
  dpb : DpbParameters := {}
  log2MinCbMinus2 : Nat := 0
  /-- Whether picture headers may override the limits of coding trees. -/
  treesOverridable : Bool := false
  dualTree : Bool := false
  trees : CodingTrees := {}
  transforms : TransformTools := {}
  chromaQp : ChromaQp := {}
  filters : FilterTools := {}
  references : SequenceReferences := {}
  inter : InterTools := {}
  intra : IntraTools := {}
  adaptiveDeblocking : Option AdaptiveDeblocking := none
  quantisation : QuantisationTools := {}
  virtualBoundaries : Bool := false
  /-- The virtual boundaries, unless picture headers give them. -/
  boundaries : Option VirtualBoundaries := none
  timing : Option SequenceTiming := none
  fieldSequence : Bool := false
  usability : Option SequenceUsability := none
  extension : Bool := false
  rangeExtension : Option RangeExtension := none
  otherExtensions : Nat := 0
  deriving DecidableEq, Repr

namespace Sps

instance : Inhabited Sps := ⟨{}⟩

/-- Whether there are chroma samples. -/
def hasChroma (sps : Sps) : Bool := sps.chromaFormat != 0

/-- The number of luma samples to one chroma sample, across and down. -/
def chromaUnit (chromaFormat : Nat) : Nat × Nat :=
  match chromaFormat with
  | 1 => (2, 2)
  | 2 => (2, 1)
  | _ => (1, 1)

/-- The sizes of the largest and the smallest blocks. -/
def blocks (sps : Sps) : BlockSizes :=
  { ctbLog2 := sps.log2CtuSizeMinus5 + 5, minCbLog2 := sps.log2MinCbMinus2 + 2 }

/-- The size of a coding tree block. -/
def ctbSize (sps : Sps) : Nat := pow2 sps.blocks.ctbLog2

/-- The size of the smallest coding block. -/
def minCbSize (sps : Sps) : Nat := pow2 sps.blocks.minCbLog2

/-- The number that picture sizes are multiples of. -/
def sizeUnit (sps : Sps) : Nat := max 8 sps.minCbSize

/-- The number of bits of a sample. -/
def bitDepth (sps : Sps) : Nat := sps.bitDepthMinus8 + 8

/-- How far QPs reach below zero. -/
def qpOffset (sps : Sps) : Nat := 6 * sps.bitDepthMinus8

/-- The lowest QP. -/
def lowestQp (sps : Sps) : Int := -sps.qpOffset

/-- The extension for samples of many bits, blank if there is none. -/
def range (sps : Sps) : RangeExtension := sps.rangeExtension.getD {}

/-- Half the range of offsets for weighted prediction. -/
def weightHalfRange (sps : Sps) : Nat :=
  if sps.range.extendedPrecision then pow2 (sps.bitDepth - 1) else pow2 7

/-- The number of low parts of order counts. -/
def maxLsb (sps : Sps) : Nat := pow2 sps.headers.lsbBits

/-- The width of the largest picture in coding tree blocks. -/
def widthInCtbs (sps : Sps) : Nat := ceilDiv sps.width sps.ctbSize

/-- The height of the largest picture in coding tree blocks. -/
def heightInCtbs (sps : Sps) : Nat := ceilDiv sps.height sps.ctbSize

/-- The chroma QP of a kind of residuals for a luma QP. -/
def chromaQp? (sps : Sps) (kind : Nat) (qp : Int) : Option Int :=
  sps.chromaQp.value? sps.lowestQp kind qp

/-- What the coding of reference lists depends on. -/
def listRules (sps : Sps) : ListRules where
  longTerm := sps.references.longTerm
  interLayer := sps.references.interLayer
  weighted := sps.references.weighted || sps.references.weightedBi
  lsbBits := sps.headers.lsbBits

/-- The number of layers that a layer refers to, according to the video parameter
set with a given id. -/
def referenceCount (vpsOf : Nat → Option Vps) (vpsId layer : Nat) : Parse Nat :=
  if vpsId = 0 then pure 0
  else do
    let vps ← Parse.ofReference .vps vpsId (vpsOf vpsId)
    return vps.layerTable.referenceCount layer

/-- The number of layers that headers of a layer can refer to. -/
def headerReferences (vpsOf : Nat → Option Vps) (layer : Nat) (sps : Sps) : Parse Nat :=
  if sps.references.interLayer then referenceCount vpsOf sps.vpsId layer else pure 0

/-! ### Reading

The elements of a sequence parameter set are read in groups, each of which
completes the set read so far. -/

/-- Reads the ids and the format. -/
def readFormat (vpsOf : Nat → Option Vps) : Parse Sps := do
  let id ← Parse.u 4
  let vpsId ← Parse.u 4
  let maxSublayersMinus1 ← Parse.uMax 3 (maxSublayers - 1)
  let chromaFormat ← Parse.u 2
  let log2CtuSizeMinus5 ← Parse.uMax 2 2
  let selfContained ← Parse.flag
  Parse.refuseIf (vpsId == 0 && !selfContained) .spsWithoutProfile
  let vps := if vpsId > 0 then vpsOf vpsId else none
  let vpsMinus1 := (vps.map (·.maxSublayersMinus1)).getD maxSublayersMinus1
  Parse.refuseIf (maxSublayersMinus1 > vpsMinus1) (.tooManySublayers maxSublayersMinus1 vpsMinus1)
  let profile ←
    Parse.given selfContained (ProfileTierLevel.read true maxSublayersMinus1 none)
  return {
    id, vpsId, maxSublayersMinus1, chromaFormat, log2CtuSizeMinus5, selfContained, profile }

/-- Reads the size of the largest picture and its subpictures. -/
def readSize (sps : Sps) : Parse Sps := do
  let gdr ← Parse.flag
  let resampling ← Parse.flag
  let sizeChange ← Parse.flagIf resampling
  let width ← Parse.ue
  let height ← Parse.ue
  Parse.refuseIf (width == 0 || height == 0) (.emptyPicture width height)
  let unit := chromaUnit sps.chromaFormat
  let conformanceWindow ←
    if ← Parse.flag then some <$> CroppingWindow.readConformance unit width height
    else pure none
  let sized := { sps with gdr, resampling, sizeChange, width, height, conformanceWindow }
  let subpictures ← SpsSubpictures.read sized.widthInCtbs sized.heightInCtbs
  return { sized with subpictures }

/-- Reads how samples and headers are coded. -/
def readCoding (sps : Sps) : Parse Sps := do
  let bitDepthMinus8 ← Parse.ueMax 8
  let headers ← HeaderCoding.read
  let sublayerDpb ← Parse.flagIf (sps.selfContained && sps.maxSublayersMinus1 > 0)
  let dpb ←
    Parse.given sps.selfContained (DpbParameters.read sps.maxSublayersMinus1 sublayerDpb)
  return { sps with bitDepthMinus8, headers, sublayerDpb, dpb }

/-- Reads the sizes of blocks and the limits of coding trees. -/
def readTrees (sps : Sps) : Parse Sps := do
  let log2MinCbMinus2 ← Parse.ueMax (min (sps.blocks.ctbLog2 - 2) 4)
  let sps := { sps with log2MinCbMinus2 }
  Parse.refuseIf (sps.width % sps.sizeUnit != 0 || sps.height % sps.sizeUnit != 0)
    (.maximumSizeNotMultiple sps.sizeUnit)
  let blocks := sps.blocks
  let treesOverridable ← Parse.flag
  let intraLuma ← TreeLimits.read blocks blocks.ctbLog2
  let dualTree ← Parse.flagIf sps.hasChroma
  let intraChroma ← Parse.given dualTree (TreeLimits.read blocks blocks.maxSplitLog2)
  let inter ← TreeLimits.read blocks blocks.ctbLog2
  return { sps with treesOverridable, dualTree, trees := { intraLuma, intraChroma, inter } }

/-- Reads the coding tools. -/
def readTools (references : Nat → Parse Nat) (sps : Sps) : Parse Sps := do
  let transforms ← TransformTools.read sps.blocks.ctbLog2
  let chromaQp ← Parse.given sps.hasChroma (ChromaQp.read sps.lowestQp)
  let filters ← FilterTools.read sps.hasChroma
  let references ←
    SequenceReferences.read sps.headers.lsbBits (sps.vpsId > 0) (references sps.vpsId)
  let inter ← InterTools.read sps.blocks.ctbLog2
  let intra ← IntraTools.read sps.chromaFormat transforms
  let adaptiveDeblocking ←
    if ← Parse.flag then some <$> AdaptiveDeblocking.read sps.bitDepth else pure none
  let quantisation ← QuantisationTools.read transforms.nonSeparable intra.colourTransform
  return {
    sps with transforms, chromaQp, filters, references, inter, intra, adaptiveDeblocking
             quantisation }

/-- Reads the virtual boundaries and how the sequence is timed and shown. -/
def readPresentation (sps : Sps) : Parse Sps := do
  let virtualBoundaries ← Parse.flag
  Parse.refuseIf
    (virtualBoundaries
      && sps.profile.constraints.isOn "gci_no_virtual_boundaries_constraint_flag")
    .constrainedVirtualBoundaries
  let given ← Parse.flagIf virtualBoundaries
  let boundaries ←
    if given then some <$> VirtualBoundaries.read sps.width sps.height else pure none
  let timed ← Parse.flagIf sps.selfContained
  let timing ←
    if timed then some <$> SequenceTiming.read sps.maxSublayersMinus1 else pure none
  let fieldSequence ← Parse.flag
  let usability ← if ← Parse.flag then some <$> SequenceUsability.read else pure none
  return { sps with virtualBoundaries, boundaries, timing, fieldSequence, usability }

/-- Reads which extensions there are, and the one for samples of many bits. -/
def readExtensions (sps : Sps) : Parse Sps := do
  let extension ← Parse.flag
  let ranged ← Parse.flagIf extension
  let otherExtensions ← Parse.given extension (Parse.u 7)
  let rangeExtension ←
    if ranged then some <$> RangeExtension.read sps.transforms.skip else pure none
  return { sps with extension, rangeExtension, otherExtensions }

/-- Reads what comes before the data of other extensions. -/
def readElements (vpsOf : Nat → Option Vps) (layer : Nat) : Parse Sps := do
  let sps ← readFormat vpsOf
  let sps ← readSize sps
  let sps ← readCoding sps
  let sps ← readTrees sps
  let sps ← readTools (fun vpsId => referenceCount vpsOf vpsId layer) sps
  let sps ← readPresentation sps
  readExtensions sps

/-- Reads the data of other extensions, if there are any, and the end of the payload. -/
def readEnd (sps : Sps) : Parse Unit := do
  if sps.otherExtensions != 0 then Parse.skipData (Parse.done ())
  Parse.finish

/-- Reads seq_parameter_set_rbsp() of a layer. -/
def read (vpsOf : Nat → Option Vps) (layer : Nat) : Parse Sps := do
  let sps ← readElements vpsOf layer
  readEnd sps
  return sps

/-- The report of the chroma QP mapping. -/
def chromaQpMembers (sps : Sps) : List (String × Report) :=
  let curves := sps.chromaQp.curves
  let columns (f : QpStep → Nat) := curves.map fun curve => curve.steps.map f
  [ field "sps_joint_cbcr_enabled_flag" sps.chromaQp.joint,
    field "sps_same_qp_table_for_chroma_flag" sps.chromaQp.same,
    slots "sps_qp_table_start_minus26" ChromaQp.kinds (curves.map (·.startMinus26)),
    slots "sps_num_points_in_qp_table_minus1" ChromaQp.kinds (curves.map (·.steps.length - 1)),
    slots "sps_delta_qp_in_val_minus1" ChromaQp.kinds (columns (·.advanceMinus1)),
    slots "sps_delta_qp_diff_val" ChromaQp.kinds (columns (·.difference)),
    row "chroma_qp_table" ((List.range ChromaQp.kinds).map (sps.chromaQp.table sps.lowestQp))]

instance : Reportable Sps where
  report sps :=
    let unit := chromaUnit sps.chromaFormat
    let window := sps.conformanceWindow
    .group ([
      field "sps_seq_parameter_set_id" sps.id,
      field "sps_video_parameter_set_id" sps.vpsId,
      field "sps_max_sublayers_minus1" sps.maxSublayersMinus1,
      field "sps_chroma_format_idc" sps.chromaFormat,
      field "sub_width_height_c" [unit.1, unit.2],
      field "sps_log2_ctu_size_minus5" sps.log2CtuSizeMinus5,
      field "ctb_log2_size_y" sps.blocks.ctbLog2,
      field "ctb_size_y" sps.ctbSize,
      field "sps_ptl_dpb_hrd_params_present_flag" sps.selfContained,
      field "profile_tier_level" sps.profile,
      field "sps_gdr_enabled_flag" sps.gdr,
      field "sps_ref_pic_resampling_enabled_flag" sps.resampling,
      field "sps_res_change_in_clvs_allowed_flag" sps.sizeChange,
      field "sps_pic_width_max_in_luma_samples" sps.width,
      field "sps_pic_height_max_in_luma_samples" sps.height,
      field "pic_width_max_in_ctbs" sps.widthInCtbs,
      field "pic_height_max_in_ctbs" sps.heightInCtbs,
      field "sps_conformance_window_flag" window.isSome]
    ++ (window.getD {}).members "sps_conf_win_"
    ++ sps.subpictures.members
    ++ [
      field "sps_bitdepth_minus8" sps.bitDepthMinus8,
      field "bit_depth" sps.bitDepth,
      field "qp_bd_offset" sps.qpOffset,
      field "wp_offset_half_range" sps.weightHalfRange]
    ++ sps.headers.members
    ++ [
      field "sps_sublayer_dpb_params_flag" sps.sublayerDpb,
      field "dpb_parameters" sps.dpb,
      field "sps_log2_min_luma_coding_block_size_minus2" sps.log2MinCbMinus2,
      field "min_cb_log2_size_y" sps.blocks.minCbLog2,
      field "min_cb_size_y" sps.minCbSize,
      field "sps_partition_constraints_override_enabled_flag" sps.treesOverridable,
      field "sps_qtbtt_dual_tree_intra_flag" sps.dualTree]
    ++ sps.trees.members "sps_"
    ++ sps.transforms.members
    ++ sps.chromaQpMembers
    ++ sps.filters.members
    ++ sps.references.members
    ++ sps.inter.members
    ++ sps.intra.members
    ++ AdaptiveDeblocking.members sps.adaptiveDeblocking
    ++ sps.quantisation.members
    ++ [
      field "sps_virtual_boundaries_enabled_flag" sps.virtualBoundaries,
      field "sps_virtual_boundaries_present_flag" sps.boundaries.isSome]
    ++ (sps.boundaries.getD {}).members "sps_"
    ++ [
      field "sps_timing_hrd_params_present_flag" sps.timing.isSome,
      field "general_timing_hrd_parameters" (sps.timing.map (·.general)),
      field "sps_sublayer_cpb_params_present_flag" (sps.timing.map (·.sublayerInfo)),
      field "ols_timing_hrd_parameters" (sps.timing.map (·.sublayers)),
      field "sps_field_seq_flag" sps.fieldSequence,
      field "sps_vui_parameters_present_flag" sps.usability.isSome,
      field "sps_vui_payload_size_minus1" (sps.usability.map (·.sizeMinus1)),
      field "vui_parameters" ((sps.usability.map (·.content)).getD {}),
      field "sps_extension_flag" sps.extension,
      field "sps_range_extension_flag" sps.rangeExtension.isSome,
      field "sps_extension_7bits" sps.otherExtensions]
    ++ sps.range.members)

end Sps

end CodedVideo
