import CodedVideo.Hrd
import CodedVideo.Vps.OutputLayerSet

/-!
# Video parameter sets

A video parameter set (VPS) describes the layers of a bitstream, the sets of
layers that can be decoded together, and for each set the profile it conforms
to.  Sets of several layers also have a picture buffer and, if there is timing
information, a reference decoder.

Each of these is listed once, and the output layer sets refer to the lists by
index.
-/

namespace CodedVideo

open Report (field)

/-- A profile_tier_level() of a VPS. -/
structure VpsProfile where
  /-- Whether it carries a profile of its own. -/
  present : Bool
  /-- The highest sublayer it covers. -/
  maxTid : Nat
  profile : ProfileTierLevel := {}
  deriving DecidableEq, Repr

/-- The picture buffer of an output layer set. -/
structure OlsPicture where
  width : Nat
  height : Nat
  chromaFormat : Nat
  bitDepthMinus8 : Nat
  /-- Which dpb_parameters() apply. -/
  parameters : Nat
  deriving DecidableEq, Repr

/-- The picture buffers of the output layer sets of several layers. -/
structure VpsBuffers where
  sublayerInfo : Bool := false
  /-- The dpb_parameters() with the highest sublayer that each covers. -/
  parameters : List (Nat × DpbParameters) := []
  sets : List OlsPicture := []
  deriving DecidableEq, Repr, Inhabited

/-- The reference decoders of the output layer sets of several layers. -/
structure VpsTiming where
  general : GeneralHrd
  sublayerInfo : Bool := false
  /-- The ols_timing_hrd_parameters() with the highest sublayer that each covers. -/
  parameters : List (Nat × OlsTiming) := []
  /-- Which of them applies to each set. -/
  sets : List Nat := []
  deriving DecidableEq, Repr

/-- The layers of a bitstream and how they can be decoded. -/
structure Vps where
  id : Nat
  maxSublayersMinus1 : Nat
  /-- Whether everything covers all sublayers. -/
  defaultMaxTid : Bool
  allIndependent : Bool
  layers : List VpsLayer
  mode : OlsMode
  sets : List OutputLayerSet
  profiles : List VpsProfile
  /-- Which profile applies to each output layer set. -/
  profileOfSet : List Nat
  buffers : Option VpsBuffers
  timing : Option VpsTiming
  extension : Bool := false
  deriving DecidableEq, Repr

namespace Vps

/-- The layers with their ids and direct references. -/
def layerTable (vps : Vps) : LayerTable := VpsLayer.table vps.layers

/-- The highest sublayer that a structure covers. -/
def readMaxTid (defaultMaxTid : Bool) (maxSublayer : Nat) : Parse Nat :=
  if defaultMaxTid then pure maxSublayer else Parse.uMax 3 maxSublayer

/-- Reads the profile_tier_level() structures, whose presence flags and sublayers
have been read. -/
def readProfiles : Option ProfileTierLevel → List VpsProfile → Parse (List VpsProfile)
  | _, [] => return []
  | previous, entry :: rest => do
    let profile ← ProfileTierLevel.read entry.present entry.maxTid previous
    let others ← readProfiles (some profile) rest
    return { entry with profile } :: others

/-- The index of the structure that applies to each of `sets` sets, given `count`
structures: its own if there are as many, else a coded one if there are several. -/
def readIndices (sets count : Nat) (coded : Parse Nat) : Parse (List Nat) :=
  Parse.collect sets fun i =>
    if count = sets then pure i else if count > 1 then coded else pure 0

/-- Reads the picture buffers of `sets` output layer sets. -/
def readBuffers (defaultMaxTid : Bool) (maxSublayer sets : Nat) : Parse VpsBuffers := do
  let count := (← Parse.ueMax (sets - 1)) + 1
  let sublayerInfo ← Parse.flagIf (maxSublayer > 0)
  let parameters ← Parse.collect count fun _ => do
    let maxTid ← readMaxTid defaultMaxTid maxSublayer
    return (maxTid, ← DpbParameters.read maxTid sublayerInfo)
  let pictures ← Parse.collect sets fun i => do
    let width ← Parse.ue
    let height ← Parse.ue
    let chromaFormat ← Parse.u 2
    let bitDepthMinus8 ← Parse.ueMax 8
    let parameters ←
      if count > 1 && count != sets then Parse.ueMax (count - 1)
      else pure (if count = 1 then 0 else i)
    return { width, height, chromaFormat, bitDepthMinus8, parameters : OlsPicture }
  return { sublayerInfo, parameters, sets := pictures }

/-- Reads the reference decoders of `sets` output layer sets. -/
def readTiming (defaultMaxTid : Bool) (maxSublayer sets : Nat) : Parse VpsTiming := do
  let general ← GeneralHrd.read
  let sublayerInfo ← Parse.flagIf (maxSublayer > 0)
  let count := (← Parse.ueMax (sets - 1)) + 1
  let parameters ← Parse.collect count fun _ => do
    let maxTid ← readMaxTid defaultMaxTid maxSublayer
    return (maxTid, ← OlsTiming.read general (if sublayerInfo then 0 else maxTid) maxTid)
  let indices ← readIndices sets count (Parse.ueMax (count - 1))
  return { general, sublayerInfo, parameters, sets := indices }

/-- Reads what comes before the extension flag. -/
def readElements : Parse Vps := do
  let id ← Parse.u 4
  let maxLayersMinus1 ← Parse.u 6
  let maxSublayersMinus1 ← Parse.uMax 3 (maxSublayers - 1)
  Parse.refuseIf (id == 0) .zeroVpsId
  let many := maxLayersMinus1 > 0
  let defaultMaxTid ← if many && maxSublayersMinus1 > 0 then Parse.flag else pure true
  let allIndependent ← if many then Parse.flag else pure true
  let layers ←
    VpsLayer.readMore (maxSublayersMinus1 + 1) allIndependent (maxLayersMinus1 + 1) []
  let mode ← OlsMode.read (maxLayersMinus1 + 1) allIndependent
  let sets ← Parse.ofFault (OutputLayerSet.derive layers mode)
  let profilesMinus1 ← Parse.given many (Parse.u 8)
  Parse.refuseIf (profilesMinus1 ≥ sets.length) (.tooManyProfiles profilesMinus1)
  let entries ← Parse.collect (profilesMinus1 + 1) fun i => do
    let present ← if i > 0 then Parse.flag else pure true
    let maxTid ← readMaxTid defaultMaxTid maxSublayersMinus1
    return { present, maxTid : VpsProfile }
  let _ ← Parse.align Parse.done
  let profiles ← readProfiles none entries
  let profileOfSet ←
    readIndices sets.length (profilesMinus1 + 1) (Parse.uMax 8 profilesMinus1)
  let each := mode == .everyLayer
  let multi := OutputLayerSet.multiLayerCount sets
  Parse.refuseIf (!each && multi == 0) .noMultiLayerOls
  let buffers ←
    if each then pure none else some <$> readBuffers defaultMaxTid maxSublayersMinus1 multi
  let timed ← Parse.flagIf (!each)
  let timing ←
    if timed then some <$> readTiming defaultMaxTid maxSublayersMinus1 multi else pure none
  return {
    id, maxSublayersMinus1, defaultMaxTid, allIndependent, layers, mode, sets, profiles
    profileOfSet, buffers, timing }

/-- Reads video_parameter_set_rbsp(). -/
def read : Parse Vps :=
  Parse.withExtension readElements fun vps extension => { vps with extension }

/-- The rows of a square over the layers: `f` of the references of each layer, and
`blank` where a layer does not come before another. -/
def square {α : Type} (vps : Vps) (blank : α) (f : LayerReference → α) : List (List α) :=
  vps.layers.map fun layer =>
    layer.references.map f
      ++ List.replicate (vps.layers.length - layer.references.length) blank

/-- Which layers each output layer set after the first marks, the first marking
none. -/
def outputFlags (vps : Vps) : List (List Bool) :=
  match vps.mode with
  | .marked flags => List.replicate vps.layers.length false :: flags
  | _ => []

instance : Reportable Vps where
  report vps :=
    let buffers := vps.buffers.getD {}
    let timing := vps.timing
    let table := vps.layerTable
    .group [
      field "vps_video_parameter_set_id" vps.id,
      field "vps_max_layers_minus1" (vps.layers.length - 1),
      field "vps_max_sublayers_minus1" vps.maxSublayersMinus1,
      field "vps_default_ptl_dpb_hrd_max_tid_flag" vps.defaultMaxTid,
      field "vps_all_independent_layers_flag" vps.allIndependent,
      field "vps_layer_id" table.ids,
      field "vps_independent_layer_flag" (vps.layers.map (·.independent)),
      field "vps_max_tid_ref_present_flag" (vps.layers.map (·.maxTidPresent)),
      field "vps_direct_ref_layer_flag" (vps.square false (·.direct)),
      field "vps_max_tid_il_ref_pics_plus1"
        (vps.square (vps.maxSublayersMinus1 + 1) (·.maxTidPlus1)),
      field "vps_each_layer_is_an_ols_flag" (vps.mode == .everyLayer),
      field "vps_ols_mode_idc" vps.mode.idc,
      field "vps_num_output_layer_sets_minus2" (vps.outputFlags.length - 2),
      field "vps_ols_output_layer_flag" vps.outputFlags,
      field "vps_num_ptls_minus1" (vps.profiles.length - 1),
      field "vps_pt_present_flag" (vps.profiles.map (·.present)),
      field "vps_ptl_max_tid" (vps.profiles.map (·.maxTid)),
      field "profile_tier_level" (vps.profiles.map (·.profile)),
      field "vps_ols_ptl_idx" vps.profileOfSet,
      field "vps_num_dpb_params_minus1" (buffers.parameters.length - 1),
      field "num_dpb_params" buffers.parameters.length,
      field "vps_sublayer_dpb_params_present_flag" buffers.sublayerInfo,
      field "vps_dpb_max_tid" (buffers.parameters.map (·.1)),
      field "dpb_parameters" (buffers.parameters.map (·.2)),
      field "vps_ols_dpb_pic_width" (buffers.sets.map (·.width)),
      field "vps_ols_dpb_pic_height" (buffers.sets.map (·.height)),
      field "vps_ols_dpb_chroma_format" (buffers.sets.map (·.chromaFormat)),
      field "vps_ols_dpb_bitdepth_minus8" (buffers.sets.map (·.bitDepthMinus8)),
      field "vps_ols_dpb_params_idx" (buffers.sets.map (·.parameters)),
      field "vps_timing_hrd_params_present_flag" timing.isSome,
      field "general_timing_hrd_parameters" (timing.map (·.general)),
      field "vps_sublayer_cpb_params_present_flag" (timing.map (·.sublayerInfo)),
      field "vps_num_ols_timing_hrd_params_minus1" (timing.map (·.parameters.length - 1)),
      field "vps_hrd_max_tid" (timing.map (·.parameters.map (·.1))),
      field "ols_timing_hrd_parameters" (timing.map (·.parameters.map (·.2))),
      field "vps_ols_timing_hrd_idx" (timing.map (·.sets)),
      field "vps_extension_flag" vps.extension,
      field "general_layer_idx" table.indexOfId,
      field "direct_ref_layer_idx" table.directReferences,
      field "reference_layer_idx" (VpsLayer.allReferences vps.layers),
      field "layer_used_as_ref_layer_flag" (OutputLayerSet.usedForReference vps.layers),
      field "layer_used_as_output_layer_flag"
        (OutputLayerSet.usedForOutput vps.layers vps.mode),
      field "total_num_olss" vps.sets.length,
      field "num_output_layers_in_ols" (vps.sets.map (·.outputs.length)),
      field "output_layer_id_in_ols" (vps.sets.map (·.outputs)),
      field "num_layers_in_ols" (vps.sets.map (·.layers.length)),
      field "layer_id_in_ols" (vps.sets.map (·.layers)),
      field "num_multi_layer_olss" (OutputLayerSet.multiLayerCount vps.sets),
      field "multi_layer_ols_idx" (OutputLayerSet.multiLayerIndices vps.sets),
      field "num_direct_ref_layers"
        ((List.range VpsLayer.idCount).map table.referenceCount)]

end Vps

end CodedVideo
