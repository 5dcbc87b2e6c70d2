import CodedVideo.Proofs.SlicePlace
import CodedVideo.Session

/-!
# What headers are read with

No part of a picture or slice header asks for anything but bits, so each is within any
features.  Each has a lemma, which `simp` uses for the parts that contain it.

There is one exception.  The CTBs of a slice are looked up near the end of its header,
long after its place has been read.  Against a sound picture parameter set the place is
known to be valid by then, so no slice header is refused because its place does not
exist (`SliceHeader.within_read_of_sound`).
-/

namespace CodedVideo

open Parse

variable {F : Feature → Prop}

/-- The fault tells of a place in a picture that does not exist. -/
def Fault.OfPlace (fault : Fault) : Prop :=
  (∃ address, fault = .unknownSlice address) ∨ ∃ e, fault = .partition e

theorem Fault.ofPlace_iff {fault : Fault} : fault.OfPlace ↔ fault.feature? = some .place := by
  cases fault <;> simp [OfPlace, feature?]

/-! ### Parts of both headers -/

@[simp] theorem AlfChoice.within_read (hasChroma hasCross : Bool) :
    (read hasChroma hasCross).Within F := by
  simp [read]

@[simp] theorem VirtualBoundaries.within_read (width height : Nat) :
    (read width height).Within F := by
  simp [read, readAlong]

@[simp] theorem TreeLimits.within_read (sizes : BlockSizes) (largestBt : Nat) :
    (read sizes largestBt).Within F := by
  simp [read]

@[simp] theorem Deblocking.within_readOverride (offByDefault ofChroma : Bool)
    (inherited : DeblockingOffsets) :
    (readOverride offByDefault ofChroma inherited).Within F := by
  simp [readOverride, DeblockingOffsets.read, DeblockingOffsets.readOffset]

@[simp] theorem ChromaOffsets.within_read (joint : Bool) :
    (read joint).Within F := by
  simp [read]

@[simp] theorem Sps.within_headerReferences (vpsOf : Nat → Option Vps) (layer : Nat) (sps : Sps) :
    (headerReferences vpsOf layer sps).Within F := by
  simp [headerReferences, referenceCount]

/-! ### Reference lists -/

@[simp] theorem ListStructure.within_readEntry (rules : ListRules) (references : Nat)
    (lsbInHeader : Bool) (index : Nat) :
    (readEntry rules references lsbInHeader index).Within F := by
  simp [readEntry, readInterLayer, readShortTerm, Fault.feature?]

@[simp] theorem ListStructure.within_read (rules : ListRules) (candidate : Bool)
    (references : Nat) : (read rules candidate references).Within F := by
  simp [read]

@[simp] theorem HeaderList.within_readLongTerm (lsbBits previous : Nat)
    (lsbs : List (Option Nat)) :
    (readLongTerm lsbBits previous lsbs).Within F := by
  induction lsbs generalizing previous with
  | nil => simp [readLongTerm]
  | cons held rest ih => cases held <;> simp [readLongTerm, ih]

@[simp] theorem HeaderList.within_read (rules : ListRules) (candidates : List ListStructure)
    (references list : Nat) (choiceCoded : Bool) (previous : HeaderList) :
    (read rules candidates references list choiceCoded previous).Within F := by
  simp [read, Fault.feature?]

@[simp] theorem RefLists.within_read (rules : ListRules)
    (candidates0 candidates1 : List ListStructure) (choice1Coded : Bool) (references : Nat) :
    (read rules candidates0 candidates1 choice1Coded references).Within F := by
  simp [read]

/-! ### Weights -/

namespace WeightTable

@[simp] theorem within_readEntry (half : Int) (luma chroma : Bool) :
    (readEntry half luma chroma).Within F := by
  simp [readEntry, readLuma, readChroma]

@[simp] theorem within_readEntries (half : Int) (lumas chromas : List Bool) :
    (readEntries half lumas chromas).Within F := by
  induction lumas generalizing chromas with
  | nil => simp [readEntries]
  | cons luma lumas ih =>
    cases chromas with
    | nil => simp [readEntries]
    | cons chroma chromas => simp [readEntries, ih]

@[simp] theorem within_read (rules : WeightRules) : (read rules).Within F := by
  simp [read, readList, Fault.feature?]

end WeightTable

/-! ### Picture headers -/

namespace PictureHeader

theorem within_readStart : readStart.Within F := by
  simp [readStart]

@[simp] theorem within_readCount (sps : Sps) (h : PictureHeader) :
    (readCount sps h).Within F := by
  cases hcycle : sps.headers.msbCycleLengthMinus1 <;> simp [readCount, hcycle, Fault.feature?]

@[simp] theorem within_readChoices (pps : Pps) (h : PictureHeader) :
    (readChoices pps h).Within F := by
  simp [readChoices]

@[simp] theorem within_readScope (pps : Pps) {references : Parse Nat}
    (hreferences : references.Within F) (h : PictureHeader) :
    (readScope pps references h).Within F := by
  simp [readScope, hreferences]

@[simp] theorem within_readSubdivision (pps : Pps) (tree : TreeLimits) :
    (readSubdivision pps tree).Within F := by
  simp [readSubdivision]

@[simp] theorem within_readIntra (pps : Pps) (h : PictureHeader) :
    (readIntra pps h).Within F := by
  simp [readIntra]

@[simp] theorem within_readMotion (pps : Pps) (lists : RefLists) (m : PictureMotion) :
    (readMotion pps lists m).Within F := by
  simp [readMotion, readCollocated]

@[simp] theorem within_readInter (pps : Pps) (h : PictureHeader) :
    (readInter pps h).Within F := by
  simp [readInter]

@[simp] theorem within_readFilters (pps : Pps) (h : PictureHeader) :
    (readFilters pps h).Within F := by
  simp [readFilters, readQpDelta]

theorem within_readRest (pps : Pps) {references : Parse Nat}
    (hreferences : references.Within F) (start : PictureStart) :
    (readRest pps references start).Within F := by
  simp [readRest, hreferences]

end PictureHeader

/-! ### Slice headers -/

@[simp] theorem SlicePlace.within_read (pps : Pps) : (read pps).Within F := by
  simp [read, Fault.feature?]

theorem SlicePlace.within_ctbs (hplace : F .place) (place : SlicePlace) (p : PicturePartition) :
    (ofFault (place.ctbs p)).Within F := by
  rw [within_ofFault]
  intro fault hfault
  unfold SlicePlace.ctbs at hfault
  split at hfault
  · split at hfault
    · cases hfault
    · cases hfault
      simp [Fault.feature?, hplace]
  · cases hctbs : p.grid.ctbsOfTiles place.address (place.tilesMinus1 + 1) with
    | ok ctbs =>
      rw [hctbs] at hfault
      cases hfault
    | error e =>
      rw [hctbs] at hfault
      cases hfault
      simp [Fault.feature?, hplace]

@[simp] theorem ActiveEntries.within_read (type : SliceType) (entries defaultMinus1 : Nat × Nat) :
    (read type entries defaultMinus1).Within F := by
  simp [read, check, Fault.feature?]

@[simp] theorem SliceMotion.within_readCollocated (type : SliceType) (pps : Pps)
    (picture : PictureHeader) (counts : Nat × Nat) :
    (readCollocated type pps picture counts).Within F := by
  simp [readCollocated, Collocated.read, Collocated.check, Fault.feature?]

@[simp] theorem SliceMotion.within_read (type : SliceType) (pps : Pps) (picture : PictureHeader)
    (lists : RefLists) (counts : Nat × Nat) :
    (read type pps picture lists counts).Within F := by
  simp [read]

@[simp] theorem SliceQp.within_read (pps : Pps) (picture : PictureHeader) :
    (read pps picture).Within F := by
  unfold read
  refine .bind (by simp [PictureHeader.readQpDelta]) fun delta => .bind (by simp) fun offsets => ?_
  split <;> simp [Fault.feature?]

@[simp] theorem SliceResiduals.within_read (sps : Sps) : (read sps).Within F := by
  simp [read]

@[simp] theorem SliceStreams.within_read (pps : Pps) (ctbs : List Nat) :
    (read pps ctbs).Within F := by
  simp [read]

namespace SliceHeader

@[simp] theorem within_readType (c : Context) : (readType c).Within F := by
  simp [readType, Fault.feature?]

theorem within_readLists {c : Context} (hreferences : c.references.Within F) :
    (readLists c).Within F := by
  simp [readLists, hreferences]

@[simp] theorem within_readStart (c : Context) : (readStart c).Within F := by
  simp [readStart]

@[simp] theorem within_readUse (c : Context) (inPicture : Bool) :
    (readUse c inPicture).Within F := by
  simp [readUse]

theorem within_readRest {c : Context} (hreferences : c.references.Within F) {start : Start}
    (hctbs : (ofFault (start.place.ctbs c.pps.partition)).Within F) (mapped scaled : Bool) :
    (readRest c start mapped scaled).Within F := by
  simp [readRest, within_readLists hreferences, hctbs]

theorem within_read {c : Context} (hplace : F .place) (hreferences : c.references.Within F) :
    (read c).Within F := by
  refine (within_readStart c).bind fun start => ?_
  refine (within_readUse c _).bind fun mapped => (within_readUse c _).bind fun scaled => ?_
  exact within_readRest hreferences (SlicePlace.within_ctbs hplace _ _) mapped scaled

/-- **No slice header is refused because its place does not exist.** -/
theorem within_read_of_sound {c : Context} (h : c.pps.Sound)
    (hreferences : c.references.Within F) : (read c).Within F := by
  refine within_bind.mpr ⟨within_readStart c, (readStart_ensures h).mono fun start hplace => ?_⟩
  refine (within_readUse c _).bind fun mapped => (within_readUse c _).bind fun scaled => ?_
  obtain ⟨ctbs, hctbs⟩ := hplace.ctbs_eq
  exact within_readRest hreferences (by rw [hctbs]; exact within_done) mapped scaled

@[simp] theorem within_checkLumaFilters (apsOf : ApsKind → Nat → Option Aps) (ids : List Nat) :
    (checkLumaFilters apsOf ids).Within F := by
  induction ids with
  | nil => simp [checkLumaFilters]
  | cons id rest ih => simp [checkLumaFilters, checkFilters, ih, Fault.feature?]

@[simp] theorem within_checkAlf (apsOf : ApsKind → Nat → Option Aps) (alf : AlfChoice) :
    (checkAlf apsOf alf).Within F := by
  cases hcb : alf.crossCb <;> cases hcr : alf.crossCr <;>
    simp [checkAlf, checkFilters, hcb, hcr, Fault.feature?]

theorem within_checkReferences (apsOf : ApsKind → Nat → Option Aps) (slice : SliceHeader) :
    (checkReferences apsOf slice).Within F := by
  simp [checkReferences, Fault.feature?]

end SliceHeader

end CodedVideo
