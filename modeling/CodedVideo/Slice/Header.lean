import CodedVideo.Aps
import CodedVideo.Slice.Parts

/-!
# Slice headers

A slice header is read against a picture header, which the slice may carry
itself, and against the picture parameter set that the picture header names.
What the slice signals is kept beside what applies to it: settings that the
picture header carries are inherited from there.

At its end the header refers to adaptation parameter sets.  They have to be
there and to hold what the slice needs.
-/

namespace CodedVideo

open Report (field row)

/-- The settings of a slice that a picture header may carry in its place. -/
structure SliceSettings where
  alf : AlfChoice := {}
  lists : RefLists := {}
  saoLuma : Bool := false
  saoChroma : Bool := false
  deblocking : Deblocking := {}
  deriving DecidableEq, Repr

/-- What a slice says about itself, and what applies to it. -/
structure SliceHeader where
  /-- Whether the slice carries the picture header. -/
  carriesPicture : Bool := false
  place : SlicePlace
  type : SliceType
  noOutputOfPrior : Bool
  /-- Whether luma values are mapped. -/
  mapped : Bool
  /-- Whether scaling matrices are used. -/
  scaled : Bool
  active : ActiveEntries
  motion : SliceMotion
  qp : SliceQp
  deblockingCoded : Bool
  residuals : SliceResiduals
  extensionLength : Nat
  streams : SliceStreams
  /-- The settings that the slice signals. -/
  own : SliceSettings
  /-- The settings that apply. -/
  applied : SliceSettings
  /-- The coding tree blocks in decoding order. -/
  ctbs : List Nat
  /-- The size of the header in bits, without emulation prevention bytes. -/
  bits : Nat := 0
  /-- The number of emulation prevention bytes in the header. -/
  escapes : Nat := 0
  picture : PictureHeader
  pps : Pps
  deriving DecidableEq, Repr

namespace SliceHeader

/-- What a slice header is read against. -/
structure Context where
  /-- The kind of the NAL unit. -/
  kind : Nal.Kind
  /-- Whether the slice carries the picture header. -/
  carriesPicture : Bool
  picture : PictureHeader
  pps : Pps
  /-- Finds to how many layers the slice can refer. -/
  references : Parse Nat

/-- Reads the type of a slice, which the picture and the kind of NAL unit restrict. -/
def readType (c : Context) : Parse SliceType := do
  let code ← if c.picture.start.interSlices then Parse.ueMax 2 else pure 2
  let type ← Parse.ofFault ((SliceType.ofCode? code).elim (.error (.unknownSliceType code)) .ok)
  Parse.refuseIf (!c.picture.start.intraSlices && type == .i) .forbiddenIntraSlice
  Parse.refuseIf (c.kind.isIrap && !c.pps.sps.references.interLayer && type != .i)
    (.interSliceInIrap type)
  return type

/-- Whether something that the picture uses is used in the slice.  It is asked only
if the picture header comes separately. -/
def readUse (c : Context) (inPicture : Bool) : Parse Bool :=
  if inPicture && !c.carriesPicture then Parse.flag else pure (c.carriesPicture && inPicture)

/-- Whether a slice has reference lists of its own. -/
def hasLists (c : Context) : Bool :=
  !c.pps.inPictureHeader.lists && (!c.kind.isIdr || c.pps.sps.references.listsInIdr)

/-- Reads the reference lists of a slice. -/
def readLists (c : Context) : Parse RefLists :=
  let sps := c.pps.sps
  Parse.given (hasLists c) do
    RefLists.read sps.listRules sps.references.candidates0 sps.references.candidates1
      c.pps.references.choice1Coded (← c.references)

/-- Whether a slice has loop filters of its own. -/
def hasAlf (c : Context) : Bool := c.pps.sps.filters.alf && !c.pps.inPictureHeader.alf

/-- Whether a slice has settings for sample adaptive offsets of its own. -/
def hasSao (c : Context) : Bool := c.pps.sps.filters.sao && !c.pps.inPictureHeader.sao

/-- What a slice says before it tells what of the picture header is used. -/
structure Start where
  place : SlicePlace
  type : SliceType
  noOutputOfPrior : Bool
  alf : AlfChoice

/-- Reads the elements before those that tell what of the picture header is used. -/
def readStart (c : Context) : Parse Start := do
  let sps := c.pps.sps
  let place ← SlicePlace.read c.pps
  let type ← readType c
  let noOutputOfPrior ← Parse.flagIf (c.kind.isIdr || c.kind == .cra || c.kind == .gdr)
  let alf ← Parse.given (hasAlf c) (AlfChoice.read sps.hasChroma sps.filters.ccAlf)
  return { place, type, noOutputOfPrior, alf }

/-- Reads the elements after those that tell what of the picture header is used. -/
def readRest (c : Context) (start : Start) (mapped scaled : Bool) : Parse SliceHeader := do
  let pps := c.pps
  let sps := pps.sps
  let inPicture := pps.inPictureHeader
  let lists ← readLists c
  let appliedLists := inherit inPicture.lists c.picture.lists (hasLists c) lists
  let active ←
    ActiveEntries.read start.type (appliedLists.list0.size, appliedLists.list1.size)
      pps.references.defaultActiveMinus1
  let motion ←
    Parse.given (start.type != .i)
      (SliceMotion.read start.type pps c.picture appliedLists active.counts)
  let qp ← SliceQp.read pps c.picture
  let saoLuma ← Parse.flagIf (hasSao c)
  let saoChroma ← Parse.flagIf (hasSao c && sps.hasChroma)
  let deblockingCoded ←
    Parse.flagIf (pps.deblocking.overridable && !pps.deblocking.inPictureHeader)
  let deblocking ←
    if deblockingCoded then
      Deblocking.readOverride pps.deblocking.settings.disabled pps.qp.chromaOffsets
        c.picture.deblocking.offsets
    else pure c.picture.deblocking
  let residuals ← SliceResiduals.read sps
  let extensionLength ← Parse.given pps.sliceHeaderExtension (Parse.ueMax 256)
  Parse.skip (8 * extensionLength)
  let ctbs ← Parse.ofFault (start.place.ctbs pps.partition)
  let streams ← SliceStreams.read pps ctbs
  return {
    place := start.place, type := start.type, noOutputOfPrior := start.noOutputOfPrior
    mapped, scaled, active, motion, qp, deblockingCoded, residuals, extensionLength, streams, ctbs
    own := { alf := start.alf, lists, saoLuma, saoChroma, deblocking }
    applied := {
      alf := inherit inPicture.alf c.picture.alf (hasAlf c) start.alf
      lists := appliedLists
      saoLuma := inherit inPicture.sao c.picture.saoLuma (hasSao c) saoLuma
      saoChroma := inherit inPicture.sao c.picture.saoChroma (hasSao c) saoChroma
      deblocking :=
        inherit pps.deblocking.inPictureHeader c.picture.deblocking deblockingCoded deblocking }
    picture := c.picture, pps }

/-- Reads slice_header() after the picture header, up to the byte alignment. -/
def read (c : Context) : Parse SliceHeader := do
  let start ← readStart c
  let mapped ← readUse c c.picture.mapping.isSome
  let scaled ← readUse c c.picture.scalingLists.isSome
  readRest c start mapped scaled

/-! ### References to adaptation parameter sets -/

/-- Checks that an adaptation parameter set is there and holds what is needed. -/
def checkFilters (apsOf : ApsKind → Nat → Option Aps) (id : Nat) (needs : AlfFilters → Bool)
    (lacking : Nat → Fault) : Parse Unit := do
  let aps ← Parse.ofReference .alfAps id (apsOf .alf id)
  Parse.refuseIf (!(aps.alf?.map needs).getD false) (lacking id)

/-- Checks one after another that adaptation parameter sets hold filters for luma. -/
def checkLumaFilters (apsOf : ApsKind → Nat → Option Aps) : List Nat → Parse Unit
  | [] => return ()
  | id :: rest => do
    checkFilters apsOf id (·.luma.isSome) .noLumaFilter
    checkLumaFilters apsOf rest

/-- Checks that there are the filters that a choice refers to. -/
def checkAlf (apsOf : ApsKind → Nat → Option Aps) (alf : AlfChoice) : Parse Unit := do
  if !alf.enabled then return ()
  checkLumaFilters apsOf alf.luma
  if alf.cb || alf.cr then
    checkFilters apsOf alf.chroma (·.chroma.isSome) .noChromaFilter
  if let some id := alf.crossCb then
    checkFilters apsOf id (·.crossCb.isSome) .noCbFilter
  if let some id := alf.crossCr then
    checkFilters apsOf id (·.crossCr.isSome) .noCrFilter

/-- Checks that there are the adaptation parameter sets that a slice refers to. -/
def checkReferences (apsOf : ApsKind → Nat → Option Aps) (h : SliceHeader) : Parse Unit := do
  checkAlf apsOf h.applied.alf
  if h.mapped then
    let id := (h.picture.mapping.map (·.aps)).getD 0
    let _ ← Parse.ofReference .lmcsAps id (apsOf .lmcs id)
  if h.scaled then
    let id := h.picture.scalingLists.getD 0
    let aps ← Parse.ofReference .scalingListAps id (apsOf .scalingList id)
    Parse.refuseIf (aps.chroma != h.pps.sps.hasChroma) (.scalingListChroma id)

instance : Reportable SliceHeader where
  report h := .group ([
      field "sh_picture_header_in_slice_header_flag" h.carriesPicture,
      field "sh_subpic_id" h.place.subpictureId,
      field "sh_slice_address" h.place.address,
      field "sh_num_tiles_in_slice_minus1" h.place.tilesMinus1,
      field "sh_slice_type" h.type.name,
      field "sh_no_output_of_prior_pics_flag" h.noOutputOfPrior,
      field "sh_alf" h.own.alf,
      field "sh_lmcs_used_flag" h.mapped,
      field "sh_explicit_scaling_list_used_flag" h.scaled,
      field "sh_ref_pic_lists" h.own.lists,
      field "sh_num_ref_idx_active_override_flag" h.active.overridden,
      row "sh_num_ref_idx_active_minus1" [h.active.codedMinus1.1, h.active.codedMinus1.2],
      field "sh_cabac_init_flag" h.motion.cabacInit,
      field "sh_collocated_from_l0_flag" h.motion.ownCollocated.first,
      field "sh_collocated_ref_idx" h.motion.ownCollocated.index,
      field "sh_pred_weight_table" h.motion.ownWeights,
      field "sh_qp_delta" h.qp.delta,
      field "sh_cb_qp_offset" h.qp.offsets.cb,
      field "sh_cr_qp_offset" h.qp.offsets.cr,
      field "sh_joint_cbcr_qp_offset" h.qp.offsets.joint,
      field "sh_cu_chroma_qp_offset_enabled_flag" h.qp.blockOffsets,
      field "sh_sao_luma_used_flag" h.own.saoLuma,
      field "sh_sao_chroma_used_flag" h.own.saoChroma,
      field "sh_deblocking_params_present_flag" h.deblockingCoded,
      field "sh_deblocking" h.own.deblocking]
    ++ h.residuals.members
    ++ [
      field "sh_slice_header_extension_length" h.extensionLength,
      field "sh_entry_offset_len_minus1" h.streams.lengthMinus1,
      field "sh_entry_point_offset_minus1" h.streams.offsets,
      field "alf" h.applied.alf,
      field "ref_pic_lists" h.applied.lists,
      field "pred_weight_table" h.motion.weights,
      field "deblocking" h.applied.deblocking,
      field "sao_luma_used_flag" h.applied.saoLuma,
      field "sao_chroma_used_flag" h.applied.saoChroma,
      field "collocated_from_l0_flag" h.motion.collocated.first,
      field "collocated_ref_idx" h.motion.collocated.index,
      row "num_ref_idx_active" [h.active.counts.1, h.active.counts.2],
      field "slice_qp_y" h.qp.luma,
      field "curr_subpic_idx" h.place.subpicture,
      field "ctb_addr_in_curr_slice" h.ctbs,
      field "num_ctus_in_curr_slice" h.ctbs.length,
      field "num_entry_points" h.streams.count,
      field "header_bit_size" h.bits,
      field "n_emulation_prevention_bytes" h.escapes,
      field "picture_header" h.picture,
      field "pps" h.pps.id,
      field "sps" h.pps.spsId])

end SliceHeader

end CodedVideo
