import CodedVideo.AccessUnit
import CodedVideo.Aps
import CodedVideo.Proofs.HeaderFeatures

/-!
# What parameter sets are read with

Parameter sets are read with every feature but two: none asks to be refused because it does
not fit into its store or because too much has been read.  A store is met only when a set has
been read to its end, and how much has been read is known to the reader.

As for headers, each part has a lemma which `simp` uses for the parts that contain it.  It
names the features that the part itself needs, so it serves any others as well.
-/

namespace CodedVideo

open Parse

variable {F : Feature → Prop}

/-- What parameter sets are read with. -/
def Feature.OfSet (feature : Feature) : Prop := feature ≠ .store ∧ feature ≠ .overrun

@[simp] theorem Feature.ofSet_iff {feature : Feature} :
    feature.OfSet ↔ feature ≠ .store ∧ feature ≠ .overrun := Iff.rfl

/-! ### Profiles and reference decoders -/

@[simp] theorem Constraint.within_readAll (constraints : List Constraint) :
    (readAll constraints).Within F := by
  induction constraints with
  | nil => simp [readAll]
  | cons c rest ih => simp [readAll, ih]

@[simp] theorem GeneralConstraints.within_read (halign : F .align) : read.Within F := by
  simp [read, halign]

namespace ProfileTierLevel

@[simp] theorem within_readSublayerLevels (present : List Bool) (above : Nat) :
    (readSublayerLevels present above).Within F := by
  induction present generalizing above with
  | nil => simp [readSublayerLevels]
  | cons flag rest ih => simp [readSublayerLevels, ih]

@[simp] theorem within_read (halign : F .align) (present : Bool) (maxSublayer : Nat)
    (previous : Option ProfileTierLevel) :
    (read present maxSublayer previous).Within F := by
  simp [read, readLevel, Fault.feature?, halign]

end ProfileTierLevel

@[simp] theorem DpbParameters.within_read (maxSublayer : Nat) (each : Bool) :
    (read maxSublayer each).Within F := by
  simp [read, DpbSize.read]

@[simp] theorem GeneralHrd.within_read : read.Within F := by
  simp [read, Fault.feature?]

@[simp] theorem CodedBuffer.within_readAll (general : GeneralHrd) :
    (readAll general).Within F := by
  simp [readAll, read]

@[simp] theorem OlsTiming.within_read (general : GeneralHrd) (first last : Nat) :
    (read general first last).Within F := by
  simp [read, SublayerTiming.read]

/-! ### Small sets -/

@[simp] theorem OperatingPoint.within_readElements : readElements.Within F := by
  simp [readElements]

theorem OperatingPoint.within_read : read.Within Feature.OfSet := by
  simp [read]

theorem AccessUnitDelimiter.within_read : read.Within Feature.OfSet := by
  simp [read]

/-! ### Video parameter sets -/

@[simp] theorem VpsLayer.within_readMore (allTids : Nat) (allIndependent : Bool)
    (remaining : Nat) (layers : List VpsLayer) :
    (readMore allTids allIndependent remaining layers).Within F := by
  induction remaining generalizing layers with
  | zero => simp [readMore]
  | succ remaining ih => simp [readMore, read, readDependent, readReference, ih, Fault.feature?]

@[simp] theorem OlsMode.within_read (layers : Nat) (allIndependent : Bool) :
    (read layers allIndependent).Within F := by
  have hmarked : (readMarked layers).Within F := by simp [readMarked]
  simp only [read, within_ite, within_bind, within_pure, implies_true, Bool.not_eq_true,
    ensures_pure, hmarked, and_self, within_uMax, ensures_uMax, true_and, Bool.true_eq_false,
    IsEmpty.forall_iff, within_flagIf]
  refine fun _ => ensures_of_forall fun _ _ _ idc _ _ => ?_
  split
  · exact within_pure
  · exact within_pure
  · exact hmarked

/-- Output layer sets are refused for what they lack. -/
theorem OutputLayerSet.feature?_of_derive {layers : List VpsLayer} {mode : OlsMode} {fault : Fault}
    (h : derive layers mode = .error fault) : fault.feature? = none := by
  unfold derive at h
  dsimp only at h
  split at h
  · cases h
    rfl
  · split at h
    · cases h
      rfl
    · cases h

namespace Vps

@[simp] theorem within_readMaxTid (defaultMaxTid : Bool) (maxSublayer : Nat) :
    (readMaxTid defaultMaxTid maxSublayer).Within F := by
  simp [readMaxTid]

@[simp] theorem within_readProfiles (halign : F .align) (previous : Option ProfileTierLevel)
    (entries : List VpsProfile) : (readProfiles previous entries).Within F := by
  induction entries generalizing previous with
  | nil => simp [readProfiles]
  | cons entry rest ih => simp [readProfiles, ih, halign]

@[simp] theorem within_readIndices (sets count : Nat) {coded : Parse Nat}
    (hcoded : coded.Within F) :
    (readIndices sets count coded).Within F := by
  simp [readIndices, hcoded]

@[simp] theorem within_readBuffers (defaultMaxTid : Bool) (maxSublayer sets : Nat) :
    (readBuffers defaultMaxTid maxSublayer sets).Within F := by
  simp [readBuffers]

@[simp] theorem within_readTiming (defaultMaxTid : Bool) (maxSublayer sets : Nat) :
    (readTiming defaultMaxTid maxSublayer sets).Within F := by
  simp [readTiming]

@[simp] theorem within_derive (layers : List VpsLayer) (mode : OlsMode) :
    (ofFault (OutputLayerSet.derive layers mode)).Within F := by
  rw [within_ofFault]
  intro fault hfault
  rw [OutputLayerSet.feature?_of_derive hfault]
  simp

@[simp] theorem within_readElements (halign : F .align) : readElements.Within F := by
  simp [readElements, Fault.feature?, halign]

theorem within_read : read.Within Feature.OfSet := by
  simp [read]

end Vps

/-! ### Sequence parameter sets -/

namespace SpsSubpictures

@[simp] theorem within_readArea (width height index : Nat) (last : Bool) :
    (readArea width height index last).Within F := by
  simp [readArea, Fault.feature?]

@[simp] theorem within_readFlags (independent : Bool) (area : SubpictureRect) :
    (readFlags independent area).Within F := by
  simp [readFlags]

@[simp] theorem within_readEntries (width height count : Nat) (independent sameSize : Bool) :
    (readEntries width height count independent sameSize).Within F := by
  simp [readEntries, placeArea, within_collectFrom, Fault.feature?]

@[simp] theorem within_read (hplace : F .place) (width height : Nat) :
    (read width height).Within F := by
  simp [read, readInfo, within_ofPartition hplace, Fault.feature?]

end SpsSubpictures

@[simp] theorem TransformTools.within_read (ctbLog2 : Nat) :
    (read ctbLog2).Within F := by
  simp [read]

@[simp] theorem FilterTools.within_read (chroma : Bool) : (read chroma).Within F := by
  simp [read]

@[simp] theorem InterTools.within_read (ctbLog2 : Nat) : (read ctbLog2).Within F := by
  simp [read, AffineTools.read]

@[simp] theorem IntraTools.within_read (chromaFormat : Nat) (transforms : TransformTools) :
    (read chromaFormat transforms).Within F := by
  simp [read]

@[simp] theorem AdaptiveDeblocking.within_read (bitDepth : Nat) :
    (read bitDepth).Within F := by
  simp [read]

@[simp] theorem QuantisationTools.within_read (nonSeparable colourTransform : Bool) :
    (read nonSeparable colourTransform).Within F := by
  simp [read]

@[simp] theorem RangeExtension.within_read (transformSkip : Bool) :
    (read transformSkip).Within F := by
  simp [read]

@[simp] theorem ChromaQp.within_read (lowest : Int) : (read lowest).Within F := by
  have hcurve : ∀ count, (QpCurve.readAll lowest count).Within F := by
    intro count
    refine Within.bind (by simp [QpCurve.read]) fun curves => ?_
    rw [within_ofFault]
    intro fault hfault
    cases hunfit : QpCurve.findUnfit lowest curves with
    | none =>
      rw [hunfit] at hfault
      cases hfault
    | some index =>
      rw [hunfit] at hfault
      cases hfault
      simp [Fault.feature?]
  simp [read, hcurve]

@[simp] theorem CroppingWindow.within_read {α : Type} {offset : Parse α} (toInt : α → Int)
    (hoffset : offset.Within F) : (read offset toInt).Within F := by
  simp [read, hoffset]

@[simp] theorem Vui.within_read : read.Within F := by
  simp [read, AspectRatio.read, ColourDescription.read, ChromaLocation.read]

@[simp] theorem SequenceUsability.within_read (halign : F .align) (hposition : F .position) :
    read.Within F := by
  simp [read, Fault.feature?, halign, hposition]

@[simp] theorem SequenceReferences.within_read (lsbBits : Nat) (layered : Bool)
    {references : Parse Nat} (hreferences : references.Within F) :
    (read lsbBits layered references).Within F := by
  simp [read, readCandidates, hreferences]

@[simp] theorem HeaderCoding.within_read : read.Within F := by
  simp [read, readExtraBits]

namespace Sps

@[simp] theorem within_readFormat (halign : F .align) (vpsOf : Nat → Option Vps) :
    (readFormat vpsOf).Within F := by
  simp [readFormat, Fault.feature?, halign]

@[simp] theorem within_readSize (hplace : F .place) (sps : Sps) :
    (readSize sps).Within F := by
  simp [readSize, CroppingWindow.readConformance, Fault.feature?, hplace]

@[simp] theorem within_readCoding (sps : Sps) : (readCoding sps).Within F := by
  simp [readCoding]

@[simp] theorem within_readTrees (sps : Sps) : (readTrees sps).Within F := by
  simp [readTrees, Fault.feature?]

@[simp] theorem within_readTools {references : Nat → Parse Nat}
    (hreferences : ∀ vpsId, (references vpsId).Within F) (sps : Sps) :
    (readTools references sps).Within F := by
  simp [readTools, hreferences]

@[simp] theorem within_readPresentation (halign : F .align) (hposition : F .position)
    (sps : Sps) : (readPresentation sps).Within F := by
  simp [readPresentation, SequenceTiming.read, Fault.feature?, halign, hposition]

@[simp] theorem within_readExtensions (sps : Sps) : (readExtensions sps).Within F := by
  simp [readExtensions]

@[simp] theorem within_readElements (halign : F .align) (hposition : F .position)
    (hplace : F .place) (vpsOf : Nat → Option Vps) (layer : Nat) :
    (readElements vpsOf layer).Within F := by
  simp [readElements, referenceCount, halign, hposition, hplace]

theorem within_read (vpsOf : Nat → Option Vps) (layer : Nat) :
    (read vpsOf layer).Within Feature.OfSet := by
  simp [read, readEnd]

end Sps

/-! ### Picture parameter sets -/

@[simp] theorem SliceRound.within_readGroup (hplace : F .place) (grid : TileGrid) (deltas : Bool)
    (tile previousHeightMinus1 : Nat) :
    (readGroup grid deltas tile previousHeightMinus1).Within F := by
  simp [readGroup, readCuts, within_ofPartition hplace]

@[simp] theorem SliceRound.within_checkTile (hplace : F .place) (grid : TileGrid) (tile : Int) :
    (checkTile grid tile).Within F := by
  simp [checkTile, within_ofPartition hplace]

@[simp] theorem SliceRound.within_readAll (hplace : F .place) (grid : TileGrid) (deltas : Bool)
    (count left inTile : Nat) (tile : Int) (previousHeightMinus1 : Nat) :
    (readAll grid deltas count left inTile tile previousHeightMinus1).Within F := by
  fun_induction readAll with
  | case1 => exact within_pure
  | case2 _ _ _ _ ih => exact ih
  | case3 => simp [hplace]
  | case4 left tile previous _ ih =>
    refine .bind (within_checkTile hplace grid tile) fun tile => ?_
    refine .bind (within_readGroup hplace grid deltas tile previous) fun round => ?_
    refine .bind (by simp [Fault.feature?]) fun _ => ?_
    refine .bind (by simp [readDelta, Fault.feature?]) fun tileDelta => ?_
    exact .bind (ih tile round tileDelta) fun _ => within_pure

namespace PicturePartition

@[simp] theorem within_readTiles (hplace : F .place) (width height : Nat) :
    (readTiles width height).Within F := by
  simp [readTiles, within_ofPartition hplace]

@[simp] theorem within_readSlices (hplace : F .place) (subpictures : Nat)
    (p : PicturePartition) : (readSlices subpictures p).Within F := by
  simp [readSlices, hplace]

@[simp] theorem within_complete (hplace : F .place) (width : Nat) (areas : List SubpictureRect)
    (p : PicturePartition) : (complete width areas p).Within F := by
  refine Within.bind (within_ofPartition hplace) fun slices => ?_
  dsimp only
  split
  · simp [Fault.feature?]
  · exact within_pure

@[simp] theorem within_read (hplace : F .place) (log2CtuSizeMinus5 width height : Nat)
    (areas : List SubpictureRect) (undivided : Bool) :
    (read log2CtuSizeMinus5 width height areas undivided).Within F := by
  simp [read, Fault.feature?, hplace]

end PicturePartition

@[simp] theorem PictureReferences.within_read (sps : Sps) (width : Nat) :
    (read sps width).Within F := by
  simp [read, readWraparound, Fault.feature?]

@[simp] theorem PictureQp.within_read (qpOffset : Nat) : (read qpOffset).Within F := by
  simp [read, readChroma]

@[simp] theorem PictureDeblocking.within_read (undivided chromaOffsets : Bool) :
    (read undivided chromaOffsets).Within F := by
  simp [read, DeblockingOffsets.read, DeblockingOffsets.readOffset]

@[simp] theorem PictureHeaderScope.within_read (weighted : Bool) :
    (read weighted).Within F := by
  simp [read]

namespace Pps

@[simp] theorem within_readSize (spsOf : Nat → Option Sps) :
    (readSize spsOf).Within F := by
  simp [readSize, Fault.feature?]

@[simp] theorem within_readWindows (pps : Pps) : (readWindows pps).Within F := by
  simp [readWindows, Fault.feature?]

@[simp] theorem within_readIds (undivided : Bool) (pps : Pps) :
    (readIds undivided pps).Within F := by
  simp [readIds, Fault.feature?]

@[simp] theorem within_readPartition (hplace : F .place) (pps : Pps) :
    (readPartition pps).Within F := by
  simp [readPartition, Fault.feature?, hplace]

@[simp] theorem within_readSettings (pps : Pps) : (readSettings pps).Within F := by
  simp [readSettings]

@[simp] theorem within_readHeaderExtensions (pps : Pps) :
    (readHeaderExtensions pps).Within F := by
  simp [readHeaderExtensions]

@[simp] theorem within_readElements (hplace : F .place) (spsOf : Nat → Option Sps) :
    (readElements spsOf).Within F := by
  simp [readElements, hplace]

theorem within_read (spsOf : Nat → Option Sps) : (read spsOf).Within Feature.OfSet := by
  simp [read]

end Pps

/-! ### Adaptation parameter sets -/

namespace AlfFilters

@[simp] theorem within_readSign (magnitude : Nat) :
    (readSign magnitude).Within F := by
  simp [readSign]

@[simp] theorem within_readCoefficient : readCoefficient.Within F := by
  simp [readCoefficient]

@[simp] theorem within_readClipping (clipped : Bool) (size : Nat) :
    (readClipping clipped size).Within F := by
  simp [readClipping]

@[simp] theorem within_read (chroma : Bool) : (read chroma).Within F := by
  simp [read, readLuma, readChroma, readCrossFilters, readCross, Fault.feature?]

end AlfFilters

@[simp] theorem LumaMapping.within_read (chroma : Bool) : (read chroma).Within F := by
  simp [read, readDifference, Fault.feature?]

namespace ScalingList

@[simp] theorem within_readDeltas (id : Nat) (positions : List (Nat × Nat)) (previous : Int) :
    (readDeltas id positions previous).Within F := by
  induction positions generalizing previous with
  | nil => simp [readDeltas]
  | cons place rest ih => simp [readDeltas, ih]

theorem feature?_of_addDeltas {id : Nat} {base : Prediction} {fault : Fault}
    {deltas : List ((Nat × Nat) × Int)} : ∀ {matrix : Array Nat},
    addDeltas id base matrix deltas = .error fault → fault.feature? = none := by
  induction deltas with
  | nil =>
    intro matrix h
    cases h
  | cons delta rest ih =>
    intro matrix h
    unfold addDeltas at h
    split at h
    · exact ih h
    · dsimp only at h
      split at h
      · cases h
        rfl
      · exact ih h

/-- A matrix is refused for a coefficient that is zero. -/
theorem feature?_of_reconstruct {id : Nat} {copied predicted : Bool} {idDelta : Nat}
    {dcDelta : Int} {deltas : List Int} {earlier : ScalingLists} {fault : Fault}
    (h : reconstruct id copied predicted idDelta dcDelta deltas earlier = .error fault) :
    fault.feature? = none := by
  rcases except_bind_eq_error.mp h with h | ⟨coefficients, _, h⟩
  · exact feature?_of_addDeltas h
  rcases except_bind_eq_error.mp h with h | ⟨dc, _, h⟩
  · unfold addDc at h
    split at h
    · cases h
    · dsimp only at h
      split at h
      · cases h
        rfl
      · cases h
  · cases h

@[simp] theorem within_read (chroma : Bool) (id : Nat) (earlier : ScalingLists) :
    (read chroma id earlier).Within F := by
  have hmatrix : ∀ copied predicted idDelta dcDelta deltas,
      (ofFault (reconstruct id copied predicted idDelta dcDelta deltas earlier)).Within F := by
    intro copied predicted idDelta dcDelta deltas
    rw [within_ofFault]
    intro fault hfault
    rw [feature?_of_reconstruct hfault]
    simp
  simp [read, hmatrix]

end ScalingList

@[simp] theorem ScalingLists.within_readMore (chroma : Bool) (remaining : Nat)
    (lists : ScalingLists) : (readMore chroma remaining lists).Within F := by
  induction remaining generalizing lists with
  | zero => simp [readMore]
  | succ remaining ih => simp [readMore, ih]

@[simp] theorem Aps.within_readElements (layer : Nat) : (readElements layer).Within F := by
  refine Within.bind (by simp) fun code => ?_
  cases ApsKind.ofCode? code with
  | none => simp
  | some kind => cases kind <;> simp [ApsContent.read, ScalingLists.read]

theorem Aps.within_read (layer : Nat) : (read layer).Within Feature.OfSet := by
  simp [read]

end CodedVideo
