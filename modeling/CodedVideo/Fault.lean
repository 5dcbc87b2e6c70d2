import CodedVideo.Bits.Reader
import CodedVideo.Nal.Kind
import CodedVideo.ParameterStore
import CodedVideo.Partition.Error
import CodedVideo.SliceType

/-!
# What a NAL unit can be refused for

A `Fault` is a rule of the bitstream that a NAL unit breaks.  A `ParseError` is
a fault, a failed read, a reference to a parameter set that has not been
received, or a feature that is not supported.  The texts of both are fixed in
`Fault.message` and `ParseError.message`.
-/

namespace CodedVideo

/-- A rule of the bitstream that a NAL unit breaks. -/
inductive Fault where
  /-- The unit is not of a kind that carries the structure. -/
  | unexpectedKind (expected : List Nal.Kind) (actual : Nal.Kind)
  /-- The tiles, slices or subpictures do not partition the picture. -/
  | partition (error : PartitionError)
  /-- A parameter set does not fit into its store. -/
  | store (error : StoreError)
  /-- The first profile_tier_level() of a VPS has no profile. -/
  | missingProfile
  /-- A level is not one of table A.8. -/
  | unknownLevel (code : Nat)
  /-- The clock of the HRD parameters stands still. -/
  | invalidTiming (unitsInTick timeScale : Nat)
  /-- An output layer set outputs nothing. -/
  | noOutputLayer (ols : Nat)
  /-- A layer belongs to no output layer set. -/
  | uselessLayer (layer : Nat)
  /-- A VPS has id 0. -/
  | zeroVpsId
  /-- The layer ids of a VPS do not increase. -/
  | layerIdsNotIncreasing (id : Nat)
  /-- A layer that is not independent refers to no layer. -/
  | dependentWithoutReference (layer : Nat)
  /-- There are more profile_tier_level() structures than output layer sets. -/
  | tooManyProfiles (minus1 : Nat)
  /-- A VPS of several layers has no output layer set of several layers. -/
  | noMultiLayerOls
  /-- A list names an inter-layer reference of a layer that has none. -/
  | interLayerWithoutReference
  /-- A chroma QP mapping leaves the range of QPs. -/
  | chromaQpTable (index : Nat)
  /-- A subpicture starts right of or below the picture. -/
  | subpictureStartsOutside (index : Nat)
  /-- A subpicture does not fit into the picture at all. -/
  | subpictureTooWide
  /-- Subpicture ids are too short to tell the subpictures apart. -/
  | subpictureIdsTooShort (lengthMinus1 count : Nat)
  /-- An SPS without VPS leaves its profile, DPB and HRD parameters out. -/
  | spsWithoutProfile
  /-- An SPS has more sublayers than its VPS. -/
  | tooManySublayers (minus1 vpsMinus1 : Nat)
  /-- A maximum picture size is zero. -/
  | emptyPicture (width height : Nat)
  /-- The conformance window leaves nothing of the picture. -/
  | conformanceWindow
  /-- The maximum picture size is no multiple of the smallest block. -/
  | maximumSizeNotMultiple (unit : Nat)
  /-- Virtual boundaries are used where a constraint excludes them. -/
  | constrainedVirtualBoundaries
  /-- An alignment bit before the VUI is one. -/
  | vuiAlignment
  /-- The VUI is longer than its payload. -/
  | vuiOverrun (used size : Nat)
  /-- The slice loop cuts more slices out of a tile than there are. -/
  | tooManySlicesInTile (tile : Nat)
  /-- Two slices in a row start in the same tile. -/
  | zeroTileDelta (slice : Nat)
  /-- The picture size is no multiple of the smallest block. -/
  | sizeNotMultiple (unit : Nat)
  /-- The picture size is fixed and another one is given. -/
  | sizeDiffers (width height : Nat)
  /-- A picture of the maximum size has a conformance window of its own. -/
  | redundantConformanceWindow
  /-- A scaling window is given where pictures cannot be resampled. -/
  | scalingWindowWithoutResampling
  /-- A picture that must be partitioned is not. -/
  | missingPartition
  /-- A picture with subpictures is smaller than the maximum. -/
  | subpicturesNeedMaximumSize
  /-- Subpicture ids are given a second time or not at all. -/
  | subpictureIdMapping
  /-- The number of subpictures differs from that of the SPS. -/
  | subpictureCountDiffers (minus1 : Nat)
  /-- The length of subpicture ids differs from that of the SPS. -/
  | subpictureIdLengthDiffers (minus1 : Nat)
  /-- Two subpictures have the same id. -/
  | duplicateSubpictureIds
  /-- The size of a coding tree unit differs from that of the SPS. -/
  | ctuSizeDiffers (log2Minus5 : Nat)
  /-- No slice starts in a subpicture. -/
  | subpictureWithoutSlice (index : Nat)
  /-- A picture uses weighted prediction and the SPS forbids it. -/
  | weightedPredictionDisabled
  /-- The picture is too narrow to wrap references around. -/
  | tooNarrowForWraparound
  /-- An ALF APS has no filter. -/
  | noAlfFilter
  /-- The range of luma mapping bins is empty. -/
  | emptyLmcsRange (maxBin minBin : Nat)
  /-- A scaling matrix has a zero coefficient. -/
  | zeroCoefficient (matrix x y : Nat)
  /-- A scaling matrix has a zero DC coefficient. -/
  | zeroDc (matrix : Nat)
  /-- A list is chosen from the SPS and the SPS has none at that index. -/
  | missingListCandidate (list index : Nat)
  /-- A list has more prediction weights than entries can have. -/
  | tooManyWeights (count list : Nat)
  /-- A GDR picture occurs where the SPS excludes it. -/
  | gdrDisabled
  /-- An ALF APS used for luma has no luma filter. -/
  | noLumaFilter (aps : Nat)
  /-- An ALF APS used for chroma has no chroma filter. -/
  | noChromaFilter (aps : Nat)
  /-- An ALF APS used across components has no filter for Cb. -/
  | noCbFilter (aps : Nat)
  /-- An ALF APS used across components has no filter for Cr. -/
  | noCrFilter (aps : Nat)
  /-- A scaling list APS has chroma matrices and the sequence has no chroma, or
  the other way round. -/
  | scalingListChroma (aps : Nat)
  /-- A slice names a subpicture that the picture does not have. -/
  | unknownSubpictureId (id : Nat)
  /-- A slice type code stands for no type. -/
  | unknownSliceType (code : Nat)
  /-- An I slice occurs in a picture without intra slices. -/
  | forbiddenIntraSlice
  /-- A slice of a random access point predicts from other pictures. -/
  | interSliceInIrap (type : SliceType)
  /-- The collocated picture is no active reference. -/
  | collocatedOutOfRange (index active : Nat)
  /-- A slice address names no slice of the subpicture. -/
  | unknownSlice (address : Nat)
  /-- A list has more active references than entries. -/
  | tooManyActive (active list entries : Nat)
  /-- A slice predicts from a list without active references. -/
  | noActiveReference (type : SliceType) (list : Nat)
  /-- The chroma QP offsets of picture and slice add up to too much. -/
  | chromaQpOffset (sum : Int)
  /-- A picture order count does not fit in 32 bits. -/
  | orderCountRange (value : Int)
  deriving DecidableEq, Repr

/-- The names of some kinds of NAL units, as a list in brackets. -/
def kindList (kinds : List Nal.Kind) : String :=
  "[" ++ ", ".intercalate (kinds.map (·.name)) ++ "]"

/-- The text that reports a fault. -/
def Fault.message : Fault → String
  | .unexpectedKind expected actual =>
    "invalid NALU type, expected one of " ++ kindList expected ++ ", got " ++ actual.name
  | .partition e => e.message
  | .store e => e.message
  | .missingProfile => "the first profile_tier_level() must carry a profile"
  | .unknownLevel code => s!"invalid general_level_idc {code}"
  | .invalidTiming tick scale => s!"invalid timing info {tick}/{scale}"
  | .noOutputLayer ols => s!"OLS {ols} has no output layer"
  | .uselessLayer layer => s!"layer {layer} is neither an output nor a reference layer"
  | .zeroVpsId => "vps_video_parameter_set_id must not be 0"
  | .layerIdsNotIncreasing id => s!"vps_layer_id {id} is not increasing"
  | .dependentWithoutReference layer => s!"dependent layer {layer} has no reference layer"
  | .tooManyProfiles minus1 => s!"vps_num_ptls_minus1 {minus1} exceeds TotalNumOlss"
  | .noMultiLayerOls => "no multi-layer OLS in a multi-layer VPS"
  | .interLayerWithoutReference => "inter-layer entry without reference layers"
  | .chromaQpTable index => s!"chroma QP mapping table {index} is out of range"
  | .subpictureStartsOutside index => s!"subpicture {index} starts outside the picture"
  | .subpictureTooWide => "subpicture wider than the picture"
  | .subpictureIdsTooShort minus1 count =>
    s!"sps_subpic_id_len_minus1 {minus1} cannot address {count} subpictures"
  | .spsWithoutProfile => "SPS without VPS must carry its profile, DPB and HRD parameters"
  | .tooManySublayers minus1 vpsMinus1 =>
    s!"sps_max_sublayers_minus1 {minus1} exceeds the VPS maximum {vpsMinus1}"
  | .emptyPicture width height => s!"invalid maximum picture size {width}x{height}"
  | .conformanceWindow => "conformance window larger than the picture"
  | .maximumSizeNotMultiple unit => s!"maximum picture size is not a multiple of {unit}"
  | .constrainedVirtualBoundaries =>
    "virtual boundaries enabled despite gci_no_virtual_boundaries_constraint_flag"
  | .vuiAlignment => "non-zero sps_vui_alignment_zero_bit"
  | .vuiOverrun used size => s!"VUI parameters use {used} bits of a {size} bit payload"
  | .tooManySlicesInTile tile => s!"tile {tile} holds more slices than the picture"
  | .zeroTileDelta slice => s!"pps_tile_idx_delta_val[{slice}] is 0"
  | .sizeNotMultiple unit => s!"picture size is not a multiple of {unit}"
  | .sizeDiffers width height =>
    s!"picture size {width}x{height} differs from the SPS maximum"
  | .redundantConformanceWindow =>
    "pps_conformance_window_flag set for a picture of the maximum size"
  | .scalingWindowWithoutResampling => "explicit scaling window without resampling"
  | .missingPartition =>
    "pps_no_pic_partition_flag set with subpictures or mixed NALU types"
  | .subpicturesNeedMaximumSize => "a picture with subpictures must have the maximum size"
  | .subpictureIdMapping => "unexpected subpicture ID mapping in the PPS"
  | .subpictureCountDiffers minus1 => s!"pps_num_subpics_minus1 {minus1} differs from the SPS"
  | .subpictureIdLengthDiffers minus1 =>
    s!"pps_subpic_id_len_minus1 {minus1} differs from the SPS"
  | .duplicateSubpictureIds => "subpicture IDs are not unique"
  | .ctuSizeDiffers log2Minus5 =>
    s!"pps_log2_ctu_size_minus5 {log2Minus5} differs from the SPS"
  | .subpictureWithoutSlice index => s!"subpicture {index} contains no slice"
  | .weightedPredictionDisabled => "weighted prediction disabled in the SPS"
  | .tooNarrowForWraparound => "picture too narrow for reference wraparound"
  | .noAlfFilter => "ALF APS does not signal any filter"
  | .emptyLmcsRange maxBin minBin =>
    s!"LmcsMaxBinIdx {maxBin} is lower than lmcs_min_bin_idx {minBin}"
  | .zeroCoefficient matrix x y =>
    s!"scaling matrix {matrix} has a zero coefficient at ({x}, {y})"
  | .zeroDc matrix => s!"scaling matrix {matrix} has a zero DC coefficient"
  | .missingListCandidate list index =>
    s!"rpl_idx[{list}] {index} refers to a missing SPS list"
  | .tooManyWeights count list => s!"{count} weights in list {list}"
  | .gdrDisabled => "GDR picture while GDR is disabled in the SPS"
  | .noLumaFilter aps => s!"ALF APS {aps} has no luma filter"
  | .noChromaFilter aps => s!"ALF APS {aps} has no chroma filter"
  | .noCbFilter aps => s!"ALF APS {aps} has no Cb cross component filter"
  | .noCrFilter aps => s!"ALF APS {aps} has no Cr cross component filter"
  | .scalingListChroma aps => s!"scaling list APS {aps} does not match the chroma format"
  | .unknownSubpictureId id => s!"unknown subpicture ID {id}"
  | .unknownSliceType code => s!"invalid slice type {code}"
  | .forbiddenIntraSlice => "I slice in a picture that forbids them"
  | .interSliceInIrap type => type.name ++ " slice in an IRAP picture"
  | .collocatedOutOfRange index active =>
    s!"collocated_ref_idx {index} exceeds the {active} active references"
  | .unknownSlice address => s!"slice {address} not found in its subpicture"
  | .tooManyActive active list entries =>
    s!"{active} active references in list {list} but only {entries} entries"
  | .noActiveReference type list =>
    type.name ++ s!" slice without references in list {list}"
  | .chromaQpOffset sum => s!"chroma QP offset {sum} out of range"
  | .orderCountRange value => s!"PicOrderCntVal {value} is out of range"

/-- What a NAL unit can refer to. -/
inductive Reference where
  | vps | sps | pps | alfAps | lmcsAps | scalingListAps | pictureHeader
  deriving DecidableEq, Repr

/-- The name under which reports mention a referenced structure. -/
def Reference.name : Reference → String
  | vps => "VPS"
  | sps => "SPS"
  | pps => "PPS"
  | alfAps => "ALF APS"
  | lmcsAps => "LMCS APS"
  | scalingListAps => "scaling list APS"
  | pictureHeader => "picture header"

/-- Why a NAL unit is not parsed. -/
inductive ParseError where
  /-- The unit breaks a rule of the bitstream. -/
  | invalid (fault : Fault)
  /-- A read fails. -/
  | read (error : ReadError)
  /-- The unit refers to a structure that has not been received. -/
  | missing (reference : Reference) (id : Nat)
  /-- An APS carries parameters of an unknown type. -/
  | unsupportedAps (type : Nat)
  deriving DecidableEq, Repr

namespace ParseError

/-- The text that reports a parse error. -/
def message : ParseError → String
  | invalid fault => "invalid stream: " ++ fault.message
  | read error => error.message
  | missing reference id => reference.name ++ s!" {id} has not been received"
  | unsupportedAps type => s!"unsupported: APS parameters type {type}"

/-- Whether the stream is at fault, and not a feature that is not supported. -/
def isInvalidStream : ParseError → Bool
  | unsupportedAps _ => false
  | _ => true

end ParseError

end CodedVideo
