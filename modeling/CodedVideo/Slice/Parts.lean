import CodedVideo.Inheritance
import CodedVideo.PictureHeader

/-!
# The parts of a slice header

A slice header says where in the picture the slice lies, how it refers to other
pictures, its QP, and how residuals are coded.  Each of these is a part with its
own reader.
-/

namespace CodedVideo

open Report (field row)

/-! ### Where a slice lies -/

/-- Where in the picture a slice lies. -/
structure SlicePlace where
  /-- The coded id of the subpicture. -/
  subpictureId : Nat := 0
  /-- The index of the subpicture. -/
  subpicture : Nat := 0
  /-- The index of the slice in its subpicture, or its first tile. -/
  address : Nat := 0
  /-- One less than the number of tiles of a slice in raster order. -/
  tilesMinus1 : Nat := 0
  deriving DecidableEq, Repr, Inhabited

namespace SlicePlace

/-- The number of addresses that a slice of a subpicture can have. -/
def addresses (p : PicturePartition) (subpicture : Nat) : Nat :=
  if p.rectangular then ((p.assignment.slicesOf[subpicture]?).map List.length).getD 1
  else p.grid.tiles

/-- Reads where a slice lies, with the bits that are reserved for extensions. -/
def read (pps : Pps) : Parse SlicePlace := do
  let sps := pps.sps
  let partition := pps.partition
  let named := sps.subpictures.infoPresent
  let subpictureId ← Parse.given named (Parse.u (sps.subpictures.idLengthMinus1 + 1))
  let subpicture ←
    if named then
      Parse.ofFault
        ((pps.subpictureIds.findIdx? (· == subpictureId)).elim
          (.error (.unknownSubpictureId subpictureId)) .ok)
    else pure 0
  let count := addresses partition subpicture
  let address ← Parse.given (count > 1) (Parse.uMax (ceilLog2 count) (count - 1))
  Parse.skip (HeaderCoding.presentCount sps.headers.extraSliceBits)
  let left := partition.grid.tiles - 1 - address
  let tilesMinus1 ← Parse.given (!partition.rectangular && left > 0) (Parse.ueMax left)
  return { subpictureId, subpicture, address, tilesMinus1 }

/-- The coding tree blocks of a slice. -/
def ctbs (place : SlicePlace) (p : PicturePartition) : Except Fault (List Nat) :=
  if p.rectangular then
    match (p.assignment.slicesOf[place.subpicture]?).bind (·[place.address]?) with
    | some slice => .ok ((p.slices.regions.getD slice default).ctbs)
    | none => .error (.unknownSlice place.address)
  else (p.grid.ctbsOfTiles place.address (place.tilesMinus1 + 1)).mapError .partition

end SlicePlace

/-! ### How a slice refers to other pictures -/

/-- How many entries of each reference list are active. -/
structure ActiveEntries where
  /-- Whether the slice replaces the numbers of its picture parameter set. -/
  overridden : Bool := true
  codedMinus1 : Nat × Nat := (0, 0)
  counts : Nat × Nat := (0, 0)
  deriving DecidableEq, Repr

namespace ActiveEntries

instance : Inhabited ActiveEntries := ⟨{}⟩

/-- The number of active entries of a list that a slice predicts from. -/
def count (overridden : Bool) (codedMinus1 defaultMinus1 entries : Nat) : Nat :=
  if overridden then codedMinus1 + 1 else min (defaultMinus1 + 1) entries

/-- Refuses a number of active entries of the list with number `list`: one that is
larger than the number of entries, and none at all. -/
def check (type : SliceType) (list count entries : Nat) : Parse Unit := do
  Parse.refuseIf (count > entries) (.tooManyActive count list entries)
  Parse.refuseIf (count == 0) (.noActiveReference type list)

/-- Reads how many of the entries of each list are active. -/
def read (type : SliceType) (entries defaultMinus1 : Nat × Nat) : Parse ActiveEntries := do
  let uses0 := type.lists > 0
  let uses1 := type.lists > 1
  let choice0 := uses0 && entries.1 > 1
  let choice1 := uses1 && entries.2 > 1
  let overridden ← if choice0 || choice1 then Parse.flag else pure true
  let coded0 ← Parse.given (overridden && choice0) (Parse.ueMax 14)
  let coded1 ← Parse.given (overridden && choice1) (Parse.ueMax 14)
  let count0 := if uses0 then count overridden coded0 defaultMinus1.1 entries.1 else 0
  let count1 := if uses1 then count overridden coded1 defaultMinus1.2 entries.2 else 0
  if uses0 then check type 0 count0 entries.1
  if uses1 then check type 1 count1 entries.2
  return { overridden, codedMinus1 := (coded0, coded1), counts := (count0, count1) }

end ActiveEntries

/-- A picture of the reference lists. -/
structure Collocated where
  /-- Whether it is in the first list. -/
  first : Bool := false
  index : Nat := 0
  deriving DecidableEq, Repr, Inhabited

namespace Collocated

/-- The number of active entries of the list. -/
def active (c : Collocated) (counts : Nat × Nat) : Nat := if c.first then counts.1 else counts.2

/-- Reads which picture motion is predicted from. -/
def read (type : SliceType) (counts : Nat × Nat) : Parse Collocated := do
  let first ← if type = .b then Parse.flag else pure true
  let largest := (if first then counts.1 else counts.2) - 1
  let index ← Parse.given (largest > 0) (Parse.ueMax largest)
  return { first, index }

/-- The picture that the picture header names. -/
def ofPicture (type : SliceType) (m : PictureMotion) : Collocated :=
  { first := type != .b || m.collocatedFirst, index := m.collocatedIndex }

/-- Refuses a picture that is not active. -/
def check (c : Collocated) (counts : Nat × Nat) : Parse Unit :=
  Parse.refuseIf (c.index ≥ c.active counts) (.collocatedOutOfRange c.index (c.active counts))

end Collocated

/-- How a slice refers to other pictures. -/
structure SliceMotion where
  cabacInit : Bool := false
  /-- The picture that motion is predicted from, if the slice names it. -/
  ownCollocated : Collocated := {}
  /-- The picture that motion is predicted from. -/
  collocated : Collocated := { first := true }
  /-- The weights of the slice itself. -/
  ownWeights : Option WeightTable := none
  /-- The weights that apply. -/
  weights : Option WeightTable := none
  deriving DecidableEq, Repr

namespace SliceMotion

instance : Inhabited SliceMotion := ⟨{}⟩

/-- Reads which picture motion is predicted from: that of the slice and the one that
applies. -/
def readCollocated (type : SliceType) (pps : Pps) (picture : PictureHeader)
    (counts : Nat × Nat) : Parse (Collocated × Collocated) := do
  if !picture.motion.temporal then return ({}, { first := true })
  let own ←
    if pps.inPictureHeader.lists then pure {} else Collocated.read type counts
  let applied :=
    if pps.inPictureHeader.lists then Collocated.ofPicture type picture.motion else own
  applied.check counts
  return (own, applied)

/-- Whether a slice has weights of its own. -/
def hasWeights (type : SliceType) (pps : Pps) : Bool :=
  !pps.inPictureHeader.weights
    && (pps.references.weighted && type == .p || pps.references.weightedBi && type == .b)

/-- Reads how a slice that predicts from other pictures refers to them. -/
def read (type : SliceType) (pps : Pps) (picture : PictureHeader) (lists : RefLists)
    (counts : Nat × Nat) : Parse SliceMotion := do
  let cabacInit ← Parse.flagIf pps.cabacInit
  let (ownCollocated, collocated) ← readCollocated type pps picture counts
  let weighted := hasWeights type pps
  let ownWeights ←
    if weighted then
      some <$> WeightTable.read (PictureHeader.weightRules pps lists false counts)
    else pure none
  let weights := inherit pps.inPictureHeader.weights picture.motion.weights weighted ownWeights
  return { cabacInit, ownCollocated, collocated, ownWeights, weights }

end SliceMotion

/-! ### The QP of a slice -/

/-- The QPs of a slice. -/
structure SliceQp where
  /-- The coded difference to the initial QP. -/
  delta : Int := 0
  /-- The QP of luma. -/
  luma : Int := 0
  offsets : ChromaOffsets := {}
  blockOffsets : Bool := false
  deriving DecidableEq, Repr

namespace SliceQp

instance : Inhabited SliceQp := ⟨{}⟩

/-- The first chroma offset of a picture and a slice together that is too large. -/
def excess? (p s : ChromaOffsets) : Option Int :=
  [p.cb + s.cb, p.cr + s.cr, p.joint + s.joint].find? fun sum => sum < -12 || 12 < sum

/-- Reads the QPs of a slice. -/
def read (pps : Pps) (picture : PictureHeader) : Parse SliceQp := do
  let inPicture := pps.inPictureHeader.qp
  let delta ← Parse.given (!inPicture) (PictureHeader.readQpDelta pps)
  let offsets ←
    Parse.given pps.qp.sliceOffsets (ChromaOffsets.read pps.sps.chromaQp.joint)
  match excess? pps.qp.offsets offsets with
  | some sum => Parse.invalid (.chromaQpOffset sum)
  | none => do
    let blockOffsets ← Parse.flagIf pps.qp.blockOffsets.isSome
    return {
      delta, offsets, blockOffsets
      luma := pps.qp.init + if inPicture then picture.qpDelta else delta }

end SliceQp

/-! ### How the residuals of a slice are coded -/

/-- How the residuals of a slice are coded. -/
structure SliceResiduals where
  dependent : Bool := false
  signHiding : Bool := false
  skipCodingOff : Bool := false
  riceIndexMinus1 : Nat := 0
  reverseLast : Bool := false
  deriving DecidableEq, Repr, Inhabited

namespace SliceResiduals

/-- Reads how the residuals of a slice are coded. -/
def read (sps : Sps) : Parse SliceResiduals := do
  let dependent ← Parse.flagIf sps.quantisation.dependent
  let signHiding ← Parse.flagIf (sps.quantisation.signHiding && !dependent)
  let skipCodingOff ← Parse.flagIf (sps.transforms.skip && !dependent && !signHiding)
  let riceIndexMinus1 ←
    Parse.given (!skipCodingOff && sps.range.riceInSliceHeader) (Parse.u 3)
  let reverseLast ← Parse.flagIf sps.range.reverseLastSignificant
  return { dependent, signHiding, skipCodingOff, riceIndexMinus1, reverseLast }

/-- The report of how residuals are coded. -/
def members (s : SliceResiduals) : List (String × Report) := [
  field "sh_dep_quant_used_flag" s.dependent,
  field "sh_sign_data_hiding_used_flag" s.signHiding,
  field "sh_ts_residual_coding_disabled_flag" s.skipCodingOff,
  field "sh_ts_residual_coding_rice_idx_minus1" s.riceIndexMinus1,
  field "sh_reverse_last_sig_coeff_flag" s.reverseLast]

end SliceResiduals

/-! ### The substreams of a slice -/

/-- The substreams of a slice. -/
structure SliceStreams where
  /-- The number of substreams after the first. -/
  count : Nat := 0
  lengthMinus1 : Nat := 0
  /-- One less than the size of each substream but the last. -/
  offsets : List Nat := []
  deriving DecidableEq, Repr, Inhabited

namespace SliceStreams

/-- Reads the sizes of the substreams of a slice with the given blocks. -/
def read (pps : Pps) (ctbs : List Nat) : Parse SliceStreams := do
  let headers := pps.sps.headers
  let count :=
    if headers.entryPointOffsets then pps.partition.grid.entryPoints headers.entropySync ctbs
    else 0
  if count = 0 then return {}
  let lengthMinus1 ← Parse.ueMax 31
  let offsets ← Parse.collect count fun _ => Parse.u (lengthMinus1 + 1)
  return { count, lengthMinus1, offsets }

end SliceStreams

end CodedVideo
