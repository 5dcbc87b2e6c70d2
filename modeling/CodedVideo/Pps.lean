import CodedVideo.Deblocking
import CodedVideo.Pps.Partition

/-!
# Picture parameter sets

A picture parameter set (PPS) holds what several pictures have in common: their
size, tiles and slices, the settings that headers start from, and which elements
the picture header carries in place of the slice headers.

It is read against the sequence parameter set that it refers to and keeps it, so
a later sequence parameter set of the same id does not change its meaning.
-/

namespace CodedVideo

open Report (field row slots)

/-- How a picture refers to others. -/
structure PictureReferences where
  /-- One less than the number of references that are active unless a slice says
  otherwise, for each list. -/
  defaultActiveMinus1 : Nat × Nat := (0, 0)
  /-- Whether the choice of the second list is coded. -/
  choice1Coded : Bool := false
  weighted : Bool := false
  weightedBi : Bool := false
  /-- The coded offset of references that wrap around, if they do. -/
  wraparound : Option Nat := none
  deriving DecidableEq, Repr

namespace PictureReferences

instance : Inhabited PictureReferences := ⟨{}⟩

/-- Reads the offset of references that wrap around in a picture of a given width. -/
def readWraparound (sps : Sps) (width : Nat) : Parse Nat := do
  let own := width / sps.minCbSize
  let largest := sps.ctbSize / sps.minCbSize
  Parse.refuseIf (largest + 1 > own - 1) .tooNarrowForWraparound
  Parse.ueMax (own - largest - 2)

/-- Reads how a picture refers to others. -/
def read (sps : Sps) (width : Nat) : Parse PictureReferences := do
  let active0 ← Parse.ueMax 14
  let active1 ← Parse.ueMax 14
  let choice1Coded ← Parse.flag
  let weighted ← Parse.flag
  let weightedBi ← Parse.flag
  Parse.refuseIf
    (weighted && !sps.references.weighted || weightedBi && !sps.references.weightedBi)
    .weightedPredictionDisabled
  let wraps ← Parse.flag
  let wraparound ← if wraps then some <$> readWraparound sps width else pure none
  return {
    defaultActiveMinus1 := (active0, active1), choice1Coded, weighted, weightedBi, wraparound }

/-- The report of how a picture refers to others. -/
def members (p : PictureReferences) : List (String × Report) := [
  row "pps_num_ref_idx_default_active_minus1"
    [p.defaultActiveMinus1.1, p.defaultActiveMinus1.2],
  field "pps_rpl1_idx_present_flag" p.choice1Coded,
  field "pps_weighted_pred_flag" p.weighted,
  field "pps_weighted_bipred_flag" p.weightedBi,
  field "pps_ref_wraparound_enabled_flag" p.wraparound.isSome,
  field "pps_pic_width_minus_wraparound_offset" p.wraparound]

end PictureReferences

/-- Offsets of chroma QPs: for Cb, for Cr and for joint residuals. -/
structure ChromaOffsets where
  cb : Int := 0
  cr : Int := 0
  joint : Int := 0
  deriving DecidableEq, Repr, Inhabited

namespace ChromaOffsets

/-- Reads offsets. -/
def read (joint : Bool) : Parse ChromaOffsets := do
  let offset := Parse.seBetween (-12) 12
  let cb ← offset
  let cr ← offset
  let joint ← Parse.given joint offset
  return { cb, cr, joint }

end ChromaOffsets

/-- The QPs of a picture. -/
structure PictureQp where
  initMinus26 : Int := 0
  blockDelta : Bool := false
  chromaOffsets : Bool := false
  offsets : ChromaOffsets := {}
  jointOffset : Bool := false
  /-- Whether slices have chroma offsets of their own. -/
  sliceOffsets : Bool := false
  /-- The offsets that blocks can choose from, if they can. -/
  blockOffsets : Option (List ChromaOffsets) := none
  deriving DecidableEq, Repr

namespace PictureQp

instance : Inhabited PictureQp := ⟨{}⟩

/-- The largest number of offsets that blocks can choose from. -/
def maxBlockOffsets : Nat := 6

/-- The QP that slices start from. -/
def init (q : PictureQp) : Int := 26 + q.initMinus26

/-- Reads the chroma offsets of a picture. -/
def readChroma (q : PictureQp) : Parse PictureQp := do
  let cb ← Parse.seBetween (-12) 12
  let cr ← Parse.seBetween (-12) 12
  let jointOffset ← Parse.flag
  let joint ← Parse.given jointOffset (Parse.seBetween (-12) 12)
  let sliceOffsets ← Parse.flag
  let listed ← Parse.flag
  let blockOffsets ←
    if listed then do
      let countMinus1 ← Parse.ueMax (maxBlockOffsets - 1)
      some <$> Parse.collect (countMinus1 + 1) fun _ => ChromaOffsets.read jointOffset
    else pure none
  return {
    q with chromaOffsets := true, offsets := { cb, cr, joint }, jointOffset, sliceOffsets
           blockOffsets }

/-- Reads the QPs of a picture. -/
def read (qpOffset : Nat) : Parse PictureQp := do
  let initMinus26 ← Parse.seBetween (-(26 + qpOffset)) 37
  let blockDelta ← Parse.flag
  let luma := { initMinus26, blockDelta : PictureQp }
  if ← Parse.flag then readChroma luma else return luma

/-- The report of the QPs of a picture. -/
def members (q : PictureQp) : List (String × Report) :=
  let listed := q.blockOffsets.getD []
  [ field "pps_init_qp_minus26" q.initMinus26,
    field "pps_cu_qp_delta_enabled_flag" q.blockDelta,
    field "pps_chroma_tool_offsets_present_flag" q.chromaOffsets,
    field "pps_cb_qp_offset" q.offsets.cb,
    field "pps_cr_qp_offset" q.offsets.cr,
    field "pps_joint_cbcr_qp_offset_present_flag" q.jointOffset,
    field "pps_joint_cbcr_qp_offset_value" q.offsets.joint,
    field "pps_slice_chroma_qp_offsets_present_flag" q.sliceOffsets,
    field "pps_cu_chroma_qp_offset_list_enabled_flag" q.blockOffsets.isSome,
    field "pps_chroma_qp_offset_list_len_minus1" (listed.length - 1),
    slots "pps_cb_qp_offset_list" maxBlockOffsets (listed.map (·.cb)),
    slots "pps_cr_qp_offset_list" maxBlockOffsets (listed.map (·.cr)),
    slots "pps_joint_cbcr_qp_offset_list" maxBlockOffsets (listed.map (·.joint))]

end PictureQp

/-- The deblocking of a picture. -/
structure PictureDeblocking where
  /-- Whether anything is said about deblocking. -/
  controlled : Bool := false
  overridable : Bool := false
  inPictureHeader : Bool := false
  settings : Deblocking := {}
  deriving DecidableEq, Repr

namespace PictureDeblocking

instance : Inhabited PictureDeblocking := ⟨{}⟩

/-- Reads the deblocking of a picture. -/
def read (undivided chromaOffsets : Bool) : Parse PictureDeblocking := do
  let controlled ← Parse.flag
  let overridable ← Parse.flagIf controlled
  let disabled ← Parse.flagIf controlled
  let inPictureHeader ← Parse.flagIf (!undivided && overridable)
  let offsets ←
    Parse.given (controlled && !disabled) (DeblockingOffsets.read chromaOffsets)
  return { controlled, overridable, inPictureHeader, settings := { disabled, offsets } }

/-- The report of the deblocking of a picture. -/
def members (d : PictureDeblocking) : List (String × Report) := [
  field "pps_deblocking_filter_control_present_flag" d.controlled,
  field "pps_deblocking_filter_override_enabled_flag" d.overridable,
  field "pps_deblocking_filter_disabled_flag" d.settings.disabled,
  field "pps_dbf_info_in_ph_flag" d.inPictureHeader]
  ++ d.settings.offsets.members "pps_"

end PictureDeblocking

/-- What the picture header carries in place of the slice headers. -/
structure PictureHeaderScope where
  lists : Bool := false
  sao : Bool := false
  alf : Bool := false
  weights : Bool := false
  qp : Bool := false
  deriving DecidableEq, Repr, Inhabited

namespace PictureHeaderScope

/-- Reads what the picture header carries. -/
def read (weighted : Bool) : Parse PictureHeaderScope := do
  let lists ← Parse.flag
  let sao ← Parse.flag
  let alf ← Parse.flag
  let weights ← Parse.flagIf (weighted && lists)
  let qp ← Parse.flag
  return { lists, sao, alf, weights, qp }

/-- The report of what the picture header carries. -/
def members (s : PictureHeaderScope) : List (String × Report) := [
  field "pps_rpl_info_in_ph_flag" s.lists,
  field "pps_sao_info_in_ph_flag" s.sao,
  field "pps_alf_info_in_ph_flag" s.alf,
  field "pps_wp_info_in_ph_flag" s.weights,
  field "pps_qp_delta_info_in_ph_flag" s.qp]

end PictureHeaderScope

/-- What several pictures have in common. -/
structure Pps where
  id : Nat := 0
  spsId : Nat := 0
  /-- Whether the NAL units of a picture may be of different kinds. -/
  mixedKinds : Bool := false
  width : Nat := 0
  height : Nat := 0
  windowCoded : Bool := false
  conformanceWindow : CroppingWindow := {}
  scalingWindowCoded : Bool := false
  scalingWindow : CroppingWindow := {}
  outputFlags : Bool := false
  /-- The ids of subpictures, if they are given here. -/
  codedIds : Option (List Nat) := none
  /-- The ids of subpictures, wherever they are given. -/
  subpictureIds : List Nat := []
  partition : PicturePartition := {}
  cabacInit : Bool := false
  references : PictureReferences := {}
  qp : PictureQp := {}
  deblocking : PictureDeblocking := {}
  inPictureHeader : PictureHeaderScope := {}
  pictureHeaderExtension : Bool := false
  sliceHeaderExtension : Bool := false
  extension : Bool := false
  /-- The sequence parameter set it refers to. -/
  sps : Sps := {}
  deriving DecidableEq, Repr

namespace Pps

instance : Inhabited Pps := ⟨{}⟩

/-- Whether pictures are as large as those of the sequence can be. -/
def hasMaximumSize (pps : Pps) : Bool :=
  pps.width == pps.sps.width && pps.height == pps.sps.height

/-- Whether a picture is weighted at all. -/
def isWeighted (pps : Pps) : Bool := pps.references.weighted || pps.references.weightedBi

/-- A window whose offsets are taken as signed numbers of 32 bits. -/
def wrapWindow (w : CroppingWindow) : CroppingWindow where
  left := wrapCount w.left
  right := wrapCount w.right
  top := wrapCount w.top
  bottom := wrapCount w.bottom

/-- Reads the ids, the sequence parameter set being looked up through a function, and
the size. -/
def readSize (spsOf : Nat → Option Sps) : Parse Pps := do
  let id ← Parse.u 6
  let spsId ← Parse.u 4
  let sps ← Parse.ofReference .sps spsId (spsOf spsId)
  let mixedKinds ← Parse.flag
  let width ← Parse.ueBetween 1 sps.width
  let height ← Parse.ueBetween 1 sps.height
  Parse.refuseIf (width % sps.sizeUnit != 0 || height % sps.sizeUnit != 0)
    (.sizeNotMultiple sps.sizeUnit)
  let pps := { id, spsId, mixedKinds, width, height, sps : Pps }
  Parse.refuseIf (!sps.sizeChange && !pps.hasMaximumSize) (.sizeDiffers width height)
  return pps

/-- Reads the windows.  Pictures of the maximum size share the window of the
sequence, and the scaling window is that of conformance unless it is coded. -/
def readWindows (pps : Pps) : Parse Pps := do
  let windowCoded ← Parse.flag
  Parse.refuseIf (windowCoded && pps.hasMaximumSize) .redundantConformanceWindow
  let conformanceWindow ←
    if windowCoded then CroppingWindow.read Parse.ue fun offset => (offset : Int)
    else if pps.hasMaximumSize then pure (pps.sps.conformanceWindow.getD {})
    else pure {}
  let scalingWindowCoded ← Parse.flag
  Parse.refuseIf (scalingWindowCoded && !pps.sps.resampling) .scalingWindowWithoutResampling
  let scalingWindow ←
    if scalingWindowCoded then CroppingWindow.read Parse.se fun offset => offset
    else pure (wrapWindow conformanceWindow)
  return { pps with windowCoded, conformanceWindow, scalingWindowCoded, scalingWindow }

/-- Reads the ids of subpictures. -/
def readIds (undivided : Bool) (pps : Pps) : Parse (List Nat) := do
  let subpictures := pps.sps.subpictures
  Parse.refuseIf (!subpictures.idsSignalled || subpictures.ids.isSome) .subpictureIdMapping
  if !undivided then
    let countMinus1 ← Parse.fit 0 65535 (← Parse.ue)
    Parse.refuseIf (countMinus1 != (subpictures.count - 1 : Nat))
      (.subpictureCountDiffers countMinus1.toNat)
  let lengthMinus1 ← Parse.ueMax 15
  Parse.refuseIf (lengthMinus1 != subpictures.idLengthMinus1)
    (.subpictureIdLengthDiffers lengthMinus1)
  Parse.collect subpictures.count fun _ => Parse.u (lengthMinus1 + 1)

/-- The ids of subpictures: as coded here or in the sequence parameter set, or else
their indices. -/
def idsOf (subpictures : SpsSubpictures) (coded : Option (List Nat)) : List Nat :=
  let indices := List.range subpictures.count
  if subpictures.idsSignalled then ((coded <|> subpictures.ids).getD indices) else indices

/-- The areas of the subpictures, which without any information is the picture. -/
def areas (pps : Pps) : List SubpictureRect :=
  if pps.sps.subpictures.infoPresent then pps.sps.subpictures.areas
  else [{ left := 0, top := 0,
          width := ceilDiv pps.width pps.sps.ctbSize,
          height := ceilDiv pps.height pps.sps.ctbSize }]

/-- Reads the subpictures, tiles and slices. -/
def readPartition (pps : Pps) : Parse Pps := do
  let outputFlags ← Parse.flag
  let undivided ← Parse.flag
  let idsCoded ← Parse.flag
  let several := pps.sps.subpictures.count > 1
  Parse.refuseIf (undivided && (several || pps.mixedKinds)) .missingPartition
  Parse.refuseIf (several && !pps.hasMaximumSize) .subpicturesNeedMaximumSize
  let codedIds ← if idsCoded then some <$> pps.readIds undivided else pure none
  let subpictureIds := idsOf pps.sps.subpictures codedIds
  Parse.refuseIf (!decide subpictureIds.Nodup) .duplicateSubpictureIds
  let partition ←
    PicturePartition.read pps.sps.log2CtuSizeMinus5 (ceilDiv pps.width pps.sps.ctbSize)
      (ceilDiv pps.height pps.sps.ctbSize) pps.areas undivided
  return { pps with outputFlags, codedIds, subpictureIds, partition }

/-- Reads the settings that headers start from. -/
def readSettings (pps : Pps) : Parse Pps := do
  let cabacInit ← Parse.flag
  let references ← PictureReferences.read pps.sps pps.width
  let qp ← PictureQp.read pps.sps.qpOffset
  let deblocking ← PictureDeblocking.read pps.partition.undivided qp.chromaOffsets
  let inPictureHeader ←
    Parse.given (!pps.partition.undivided)
      (PictureHeaderScope.read (references.weighted || references.weightedBi))
  return { pps with cabacInit, references, qp, deblocking, inPictureHeader }

/-- Reads which headers have extensions. -/
def readHeaderExtensions (pps : Pps) : Parse Pps := do
  let pictureHeaderExtension ← Parse.flag
  let sliceHeaderExtension ← Parse.flag
  return { pps with pictureHeaderExtension, sliceHeaderExtension }

/-- Reads what comes before the extension flag. -/
def readElements (spsOf : Nat → Option Sps) : Parse Pps := do
  let pps ← readSize spsOf
  let pps ← readWindows pps
  let pps ← readPartition pps
  let pps ← readSettings pps
  readHeaderExtensions pps

/-- Reads pic_parameter_set_rbsp(). -/
def read (spsOf : Nat → Option Sps) : Parse Pps :=
  Parse.withExtension (readElements spsOf) fun pps extension => { pps with extension }

instance : Reportable Pps where
  report pps := .group ([
      field "pps_pic_parameter_set_id" pps.id,
      field "pps_seq_parameter_set_id" pps.spsId,
      field "pps_mixed_nalu_types_in_pic_flag" pps.mixedKinds,
      field "pps_pic_width_in_luma_samples" pps.width,
      field "pps_pic_height_in_luma_samples" pps.height,
      field "pps_conformance_window_flag" pps.windowCoded]
    ++ pps.conformanceWindow.members "pps_conf_win_"
    ++ [field "pps_scaling_window_explicit_signalling_flag" pps.scalingWindowCoded]
    ++ pps.scalingWindow.members "pps_scaling_win_"
    ++ [
      field "pps_output_flag_present_flag" pps.outputFlags,
      field "pps_no_pic_partition_flag" pps.partition.undivided,
      field "pps_subpic_id_mapping_present_flag" pps.codedIds.isSome,
      field "pps_num_subpics_minus1" (pps.sps.subpictures.count - 1),
      field "pps_subpic_id_len_minus1" pps.sps.subpictures.idLengthMinus1,
      field "pps_subpic_id" (pps.codedIds.getD []),
      field "subpic_id_val" pps.subpictureIds,
      field "pps_log2_ctu_size_minus5" pps.sps.log2CtuSizeMinus5]
    ++ pps.partition.members
    ++ [field "pps_cabac_init_present_flag" pps.cabacInit]
    ++ pps.references.members
    ++ pps.qp.members
    ++ pps.deblocking.members
    ++ pps.inPictureHeader.members
    ++ [
      field "pps_picture_header_extension_present_flag" pps.pictureHeaderExtension,
      field "pps_slice_header_extension_present_flag" pps.sliceHeaderExtension,
      field "pps_extension_flag" pps.extension])

end Pps

end CodedVideo
