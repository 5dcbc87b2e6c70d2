import CodedVideo.Proofs.Steps

/-!
# What structures are refused for

A structure is refused because bits are missing or out of range, because something that it
refers to is missing, or for a fault.  `p.RefusedFor P` says that all faults which `p` can be
refused for satisfy `P`.  Like what is ensured of its values, it is computed from the structure,
by a rule for each request, refusal and descriptor.

The rules are used here for one fault, that of too many weights.  It comes from nothing but the
weights of a list (`WeightTable.refusedFor_readList`), and a picture header, which says itself
how many weights there are, is never refused for it (`PictureHeader.refusedFor_readRest`).  What
a slice header says about weights depends on how many references are active, so here are only
the parts around that.
-/

namespace CodedVideo

/-- The fault is another one than that of too many weights. -/
def Fault.BesidesWeights (fault : Fault) : Prop := ∀ count list, fault ≠ .tooManyWeights count list

namespace Parse

variable {α β : Type} {P : Fault → Prop}

/-- The faults that the structure can be refused for satisfy `P`. -/
def RefusedFor (P : Fault → Prop) : Parse α → Prop
  | done _ => True
  | fail error => ∀ fault, error = .invalid fault → P fault
  | bits count next => ∀ value < pow2 count, (next value).RefusedFor P
  | moreData next => ∀ answer, (next answer).RefusedFor P
  | align next => ∀ zero, (next zero).RefusedFor P
  | skipData next => next.RefusedFor P
  | position next => ∀ n, (next n).RefusedFor P
  | checkOverrun next => next.RefusedFor P

theorem RefusedFor.of_gives {p : Parse α} (h : p.RefusedFor P) {fault : Fault}
    (hgives : p.Gives (.error (.invalid fault))) : P fault := by
  induction p with
  | done value => cases hgives
  | fail error => exact h fault (Except.error.inj hgives).symm
  | bits count next ih =>
    rcases hgives with ⟨_, ⟨⟩⟩ | ⟨value, hvalue, hnext⟩
    exact ih value (h value hvalue) hnext
  | moreData next ih | align next ih | position next ih =>
    obtain ⟨answer, hnext⟩ := hgives
    exact ih answer (h answer) hnext
  | skipData next ih | checkOverrun next ih =>
    rcases hgives with ⟨_, ⟨⟩⟩ | hnext
    exact ih h hnext

/-- A run is refused for nothing else. -/
theorem RefusedFor.of_run {p : Parse α} (h : p.RefusedFor P) {r : BitReader} {fault : Fault}
    (hrun : (p.run r).1 = .error (.invalid fault)) : P fault :=
  h.of_gives (hrun ▸ gives_run p r)

/-! ### Requests and structures that follow one another -/

@[simp] theorem refusedFor_done {value : α} : (done value).RefusedFor P := trivial

@[simp] theorem refusedFor_pure {value : α} : (pure value : Parse α).RefusedFor P := trivial

@[simp] theorem refusedFor_fail {e : ParseError} :
    (fail e : Parse α).RefusedFor P ↔ ∀ fault, e = .invalid fault → P fault := Iff.rfl

@[simp] theorem refusedFor_invalid {fault : Fault} :
    (invalid fault : Parse α).RefusedFor P ↔ P fault := by
  refine refusedFor_fail.trans ⟨fun h => h fault rfl, ?_⟩
  rintro h _ ⟨⟩
  exact h

@[simp] theorem refusedFor_bits {count : Nat} {next : Nat → Parse α} :
    (bits count next).RefusedFor P ↔ ∀ value < pow2 count, (next value).RefusedFor P := Iff.rfl

@[simp] theorem refusedFor_align {next : Bool → Parse α} :
    (align next).RefusedFor P ↔ ∀ zero, (next zero).RefusedFor P := Iff.rfl

@[simp] theorem refusedFor_checkOverrun {next : Parse α} :
    (checkOverrun next).RefusedFor P ↔ next.RefusedFor P := Iff.rfl

@[simp] theorem refusedFor_bind {p : Parse α} {f : α → Parse β} :
    (p >>= f).RefusedFor P ↔ p.RefusedFor P ∧ p.Ensures fun a => (f a).RefusedFor P := by
  induction p with
  | done a => exact ⟨fun h => ⟨trivial, ensures_done.mpr h⟩, fun h => h.2 a rfl⟩
  | fail e => exact ⟨fun h => ⟨h, ensures_fail⟩, fun h => h.1⟩
  | bits count next ih =>
    rw [ensures_bits]
    constructor
    · intro h
      exact ⟨fun n hn => ((ih n).mp (h n hn)).1, fun n hn => ((ih n).mp (h n hn)).2⟩
    · rintro ⟨hnext, hf⟩ n hn
      exact (ih n).mpr ⟨hnext n hn, hf n hn⟩
  | moreData next ih | align next ih | position next ih =>
    first | rw [ensures_moreData] | rw [ensures_align] | rw [ensures_position]
    constructor
    · intro h
      exact ⟨fun x => ((ih x).mp (h x)).1, fun x => ((ih x).mp (h x)).2⟩
    · rintro ⟨hnext, hf⟩ x
      exact (ih x).mpr ⟨hnext x, hf x⟩
  | skipData next ih | checkOverrun next ih =>
    first | rw [ensures_skipData] | rw [ensures_checkOverrun]
    exact ih

@[simp] theorem refusedFor_map {p : Parse α} {f : α → β} :
    (f <$> p).RefusedFor P ↔ p.RefusedFor P := by
  show (p >>= fun a => done (f a)).RefusedFor P ↔ _
  rw [refusedFor_bind]
  exact and_iff_left fun _ _ => refusedFor_done

theorem RefusedFor.bind {p : Parse α} {f : α → Parse β} (hp : p.RefusedFor P)
    (hf : ∀ a, (f a).RefusedFor P) : (p >>= f).RefusedFor P :=
  refusedFor_bind.mpr ⟨hp, fun a _ => hf a⟩

/-! ### Refusals and choices -/

@[simp] theorem refusedFor_refuseIf {broken : Bool} {fault : Fault} :
    (refuseIf broken fault).RefusedFor P ↔ (broken = true → P fault) := by
  cases broken <;> simp [refuseIf]

theorem refusedFor_ofFault {result : Except Fault α} :
    (ofFault result).RefusedFor P ↔ ∀ fault, result = .error fault → P fault := by
  cases result <;> simp [ofFault]

@[simp] theorem refusedFor_ofFault_elim {found : Option α} {fault : Fault} :
    (ofFault (found.elim (.error fault) .ok)).RefusedFor P ↔ (found = none → P fault) := by
  cases found <;> simp [ofFault]

@[simp] theorem refusedFor_ofReference {reference : Reference} {id : Nat} {found : Option α} :
    (ofReference reference id found).RefusedFor P := by
  cases found <;> simp [ofReference]

@[simp] theorem refusedFor_given [Inhabited α] {present : Bool} {p : Parse α} :
    (given present p).RefusedFor P ↔ (present = true → p.RefusedFor P) := by
  cases present <;> simp [given]

@[simp] theorem refusedFor_ite {c : Prop} [Decidable c] {p q : Parse α} :
    (if c then p else q).RefusedFor P ↔ (c → p.RefusedFor P) ∧ (¬ c → q.RefusedFor P) := by
  split <;> simp [*]

/-! ### Descriptors -/

@[simp] theorem refusedFor_u {n : Nat} : (u n).RefusedFor P := by
  simp [u]

@[simp] theorem refusedFor_inRange {lo hi value : Int} : (inRange lo hi value).RefusedFor P := by
  simp [inRange]

@[simp] theorem refusedFor_uMax {n hi : Nat} : (uMax n hi).RefusedFor P := by
  simp [uMax]

@[simp] theorem refusedFor_flag : flag.RefusedFor P := by
  simp [flag]

@[simp] theorem refusedFor_flagIf {present : Bool} : (flagIf present).RefusedFor P := by
  simp [flagIf]

@[simp] theorem refusedFor_leadingZeros {zeros limit : Nat} :
    (leadingZeros zeros limit).RefusedFor P := by
  induction limit generalizing zeros with
  | zero => simp [leadingZeros]
  | succ limit ih => simp [leadingZeros, ih]

@[simp] theorem refusedFor_ue : ue.RefusedFor P := by
  simp [ue]

@[simp] theorem refusedFor_ueMax {hi : Nat} : (ueMax hi).RefusedFor P := by
  simp [ueMax, ueBetween]

@[simp] theorem refusedFor_seBetween {lo hi : Int} : (seBetween lo hi).RefusedFor P := by
  simp [seBetween, se]

@[simp] theorem refusedFor_collect {p : Nat → Parse α} (hp : ∀ index, (p index).RefusedFor P)
    {count : Nat} : (collect count p).RefusedFor P := by
  have honto : ∀ count start (read : List α), (collectOnto p read start count).RefusedFor P := by
    intro count
    induction count with
    | zero => exact fun _ _ => refusedFor_done
    | succ count ih => exact fun start read => (hp start).bind fun _ => ih _ _
  exact honto count 0 []

@[simp] theorem refusedFor_skip {n : Nat} : (skip n).RefusedFor P := by
  simp [skip]

@[simp] theorem refusedFor_finish : finish.RefusedFor P := by
  simp [finish, trailingBits]

end Parse

open Parse

variable {P : Fault → Prop}

/-! ### Parts of both headers -/

@[simp] theorem AlfChoice.refusedFor_read (hasChroma hasCross : Bool) :
    (read hasChroma hasCross).RefusedFor P := by
  simp [read]

@[simp] theorem VirtualBoundaries.refusedFor_read (width height : Nat) :
    (read width height).RefusedFor P := by
  simp [read, readAlong]

@[simp] theorem TreeLimits.refusedFor_read (sizes : BlockSizes) (largestBt : Nat) :
    (read sizes largestBt).RefusedFor P := by
  simp [read]

@[simp] theorem Deblocking.refusedFor_readOverride (offByDefault ofChroma : Bool)
    (inherited : DeblockingOffsets) :
    (readOverride offByDefault ofChroma inherited).RefusedFor P := by
  simp [readOverride, DeblockingOffsets.read, DeblockingOffsets.readOffset]

@[simp] theorem ChromaOffsets.refusedFor_read (joint : Bool) : (read joint).RefusedFor P := by
  simp [read]

@[simp] theorem Sps.refusedFor_headerReferences (vpsOf : Nat → Option Vps) (layer : Nat)
    (sps : Sps) : (headerReferences vpsOf layer sps).RefusedFor P := by
  simp [headerReferences, referenceCount]

/-! ### Reference lists -/

@[simp] theorem ListStructure.refusedFor_read (rules : ListRules) (candidate : Bool)
    (references : Nat) : (read rules candidate references).RefusedFor Fault.BesidesWeights := by
  simp [read, readEntry, readInterLayer, readShortTerm, Fault.BesidesWeights]

@[simp] theorem HeaderList.refusedFor_readLongTerm (lsbBits previous : Nat)
    (lsbs : List (Option Nat)) : (readLongTerm lsbBits previous lsbs).RefusedFor P := by
  induction lsbs generalizing previous with
  | nil => simp [readLongTerm]
  | cons held rest ih => cases held <;> simp [readLongTerm, ih]

@[simp] theorem RefLists.refusedFor_read (rules : ListRules)
    (candidates0 candidates1 : List ListStructure) (choice1Coded : Bool) (references : Nat) :
    (read rules candidates0 candidates1 choice1Coded references).RefusedFor
      Fault.BesidesWeights := by
  simp [read, HeaderList.read, Fault.BesidesWeights]

/-! ### Weights -/

namespace WeightTable

@[simp] theorem refusedFor_readEntry (half : Int) (luma chroma : Bool) :
    (readEntry half luma chroma).RefusedFor P := by
  simp [readEntry, readLuma, readChroma]

@[simp] theorem refusedFor_readEntries (half : Int) (lumas chromas : List Bool) :
    (readEntries half lumas chromas).RefusedFor P := by
  induction lumas generalizing chromas with
  | nil => simp [readEntries]
  | cons luma lumas ih =>
    cases chromas with
    | nil => simp [readEntries]
    | cons chroma chromas => simp [readEntries, ih]

/-- The weights of a list are refused only if there are too many. -/
theorem refusedFor_readList {rules : WeightRules} {list count : Nat} (h : count ≤ maxWeights) :
    (readList rules list count).RefusedFor P := by
  have hfits : ¬ maxWeights < count := not_lt.mpr h
  simp [readList, hfits]

/-- A picture header says how many weights there are, and is held to the maximum. -/
theorem refusedFor_read {rules : WeightRules} (h : rules.inPictureHeader = false →
      rules.active.1 ≤ maxWeights ∧ rules.active.2 ≤ maxWeights) :
    (read rules).RefusedFor P := by
  have hcoded : ∀ (present : Bool) (entries : Nat),
      (given present (ueMax (min maxWeights entries))).Ensures (· ≤ maxWeights) := fun _ entries =>
    ensures_given.mpr ⟨fun _ => .ueMax fun _ hcount => hcount.trans (Nat.min_le_left _ _),
      fun _ => Nat.zero_le _⟩
  refine .bind refusedFor_ueMax fun lumaDenominator => .bind (by simp) fun chromaDelta => ?_
  refine refusedFor_bind.mpr ⟨by simp, (hcoded _ _).mono fun codedCount0 hcount0 => ?_⟩
  refine .bind (refusedFor_readList ?_) fun list0 => ?_
  · split
    case isTrue => exact hcount0
    case isFalse hinSlice => exact (h (Bool.eq_false_iff.mpr hinSlice)).1
  refine refusedFor_bind.mpr ⟨by simp, (hcoded _ _).mono fun codedCount1 hcount1 => ?_⟩
  refine .bind (refusedFor_readList ?_) fun list1 => refusedFor_pure
  split_ifs with hsingle hinHeader
  · exact Nat.zero_le _
  · exact hcount1
  · exact (h (Bool.eq_false_iff.mpr hinHeader)).2

end WeightTable

/-! ### Picture headers -/

namespace PictureHeader

theorem refusedFor_readStart : readStart.RefusedFor P := by
  simp [readStart]

@[simp] theorem refusedFor_readCount (sps : Sps) (h : PictureHeader) :
    (readCount sps h).RefusedFor Fault.BesidesWeights := by
  cases hcycle : sps.headers.msbCycleLengthMinus1 <;>
    simp [readCount, hcycle, Fault.BesidesWeights]

@[simp] theorem refusedFor_readChoices (pps : Pps) (h : PictureHeader) :
    (readChoices pps h).RefusedFor P := by
  simp [readChoices]

@[simp] theorem refusedFor_readScope (pps : Pps) {references : Parse Nat}
    (hreferences : references.RefusedFor Fault.BesidesWeights) (h : PictureHeader) :
    (readScope pps references h).RefusedFor Fault.BesidesWeights := by
  simp [readScope, hreferences]

@[simp] theorem refusedFor_readSubdivision (pps : Pps) (tree : TreeLimits) :
    (readSubdivision pps tree).RefusedFor P := by
  simp [readSubdivision]

@[simp] theorem refusedFor_readIntra (pps : Pps) (h : PictureHeader) :
    (readIntra pps h).RefusedFor P := by
  simp [readIntra]

@[simp] theorem refusedFor_readMotion (pps : Pps) (lists : RefLists) (m : PictureMotion) :
    (readMotion pps lists m).RefusedFor P := by
  have hweights : ∀ active, (WeightTable.read (weightRules pps lists true active)).RefusedFor P :=
    fun _ => WeightTable.refusedFor_read nofun
  simp [readMotion, readCollocated, hweights]

@[simp] theorem refusedFor_readInter (pps : Pps) (h : PictureHeader) :
    (readInter pps h).RefusedFor P := by
  simp [readInter]

@[simp] theorem refusedFor_readFilters (pps : Pps) (h : PictureHeader) :
    (readFilters pps h).RefusedFor P := by
  simp [readFilters, readQpDelta]

/-- **No picture header is refused for too many weights.** -/
theorem refusedFor_readRest (pps : Pps) {references : Parse Nat}
    (hreferences : references.RefusedFor Fault.BesidesWeights) (start : PictureStart) :
    (readRest pps references start).RefusedFor Fault.BesidesWeights := by
  simp [readRest, hreferences]

end PictureHeader

/-! ### Slice headers -/

@[simp] theorem SlicePlace.refusedFor_read (pps : Pps) :
    (read pps).RefusedFor Fault.BesidesWeights := by
  simp [read, Fault.BesidesWeights]

@[simp] theorem SlicePlace.refusedFor_ctbs (place : SlicePlace) (p : PicturePartition) :
    (ofFault (place.ctbs p)).RefusedFor Fault.BesidesWeights := by
  rw [refusedFor_ofFault]
  rintro fault hfault count list rfl
  unfold SlicePlace.ctbs at hfault
  split at hfault
  · split at hfault <;> cases hfault
  · cases hctbs : p.grid.ctbsOfTiles place.address (place.tilesMinus1 + 1) <;>
      rw [hctbs] at hfault <;> cases hfault

@[simp] theorem ActiveEntries.refusedFor_read (type : SliceType)
    (entries defaultMinus1 : Nat × Nat) :
    (read type entries defaultMinus1).RefusedFor Fault.BesidesWeights := by
  simp [read, check, Fault.BesidesWeights]

/-- A slice is refused for too many weights only if too many references are active. -/
theorem SliceMotion.refusedFor_read (type : SliceType) (pps : Pps) (picture : PictureHeader)
    (lists : RefLists) {counts : Nat × Nat}
    (h : counts.1 ≤ WeightTable.maxWeights ∧ counts.2 ≤ WeightTable.maxWeights) :
    (read type pps picture lists counts).RefusedFor Fault.BesidesWeights := by
  have hweights : (WeightTable.read (PictureHeader.weightRules pps lists false counts)).RefusedFor
      Fault.BesidesWeights := WeightTable.refusedFor_read fun _ => h
  simp [read, readCollocated, Collocated.read, Collocated.check, Fault.BesidesWeights, hweights]

@[simp] theorem SliceQp.refusedFor_read (pps : Pps) (picture : PictureHeader) :
    (read pps picture).RefusedFor Fault.BesidesWeights := by
  unfold read
  refine .bind (by simp [PictureHeader.readQpDelta]) fun delta => .bind (by simp) fun offsets => ?_
  split <;> simp [Fault.BesidesWeights]

@[simp] theorem SliceResiduals.refusedFor_read (sps : Sps) : (read sps).RefusedFor P := by
  simp [read]

@[simp] theorem SliceStreams.refusedFor_read (pps : Pps) (ctbs : List Nat) :
    (read pps ctbs).RefusedFor P := by
  simp [read]

namespace SliceHeader

@[simp] theorem refusedFor_readStart (c : Context) :
    (readStart c).RefusedFor Fault.BesidesWeights := by
  simp [readStart, readType, Fault.BesidesWeights]

@[simp] theorem refusedFor_readUse (c : Context) (inPicture : Bool) :
    (readUse c inPicture).RefusedFor P := by
  simp [readUse]

theorem refusedFor_checkReferences (apsOf : ApsKind → Nat → Option Aps) (slice : SliceHeader) :
    (checkReferences apsOf slice).RefusedFor Fault.BesidesWeights := by
  have hluma : ∀ ids, (checkLumaFilters apsOf ids).RefusedFor Fault.BesidesWeights := by
    intro ids
    induction ids with
    | nil => simp [checkLumaFilters]
    | cons id rest ih => simp [checkLumaFilters, checkFilters, ih, Fault.BesidesWeights]
  have half : ∀ alf, (checkAlf apsOf alf).RefusedFor Fault.BesidesWeights := by
    intro alf
    cases hcb : alf.crossCb <;> cases hcr : alf.crossCr <;>
      simp [checkAlf, checkFilters, hluma, hcb, hcr, Fault.BesidesWeights]
  simp [checkReferences, half, Fault.BesidesWeights]

end SliceHeader

/-! ### Steps of headers -/

namespace Session

namespace Step

variable {α β : Type} {I : Session → Prop} {p : Step α} {f : α → Step β}

/-- From a session that satisfies `I`, the faults that the step can be refused for satisfy `P`. -/
def RefusedFor (I : Session → Prop) (P : Fault → Prop) (step : Step α) : Prop :=
  ∀ reading : Reading, I reading.session →
    ∀ fault, (step.run reading).1 = .error (.invalid fault) → P fault

theorem refusedFor_ofParse {content : Parse α} (h : content.RefusedFor P) :
    (ofParse content).RefusedFor I P :=
  fun _ _ _ hrun => h.of_run hrun

/-- A step that is never refused. -/
theorem refusedFor_of_ok (h : ∀ reading, ∃ a, (p.run reading).1 = .ok a) : p.RefusedFor I P := by
  intro reading _ fault hrun
  obtain ⟨a, ha⟩ := h reading
  cases ha.symm.trans hrun

theorem refusedFor_pure (a : α) : (pure a : Step α).RefusedFor I P :=
  refusedFor_of_ok fun _ => ⟨a, rfl⟩

theorem refusedFor_update (g : Session → Session) : (update g).RefusedFor I P :=
  refusedFor_of_ok fun _ => ⟨(), rfl⟩

theorem refusedFor_session : session.RefusedFor I P :=
  refusedFor_of_ok fun reading => ⟨reading.session, rfl⟩

theorem refusedFor_extent : extent.RefusedFor I P := refusedFor_of_ok fun _ => ⟨_, rfl⟩

/-- If two steps are refused, it is the first one or the second one after the first. -/
theorem run_bind_error {reading : Reading} {e : ParseError}
    (h : ((p >>= f).run reading).1 = .error e) : (p.run reading).1 = .error e ∨
      ∃ a reading', p.run reading = (.ok a, reading') ∧ ((f a).run reading').1 = .error e := by
  rw [run_bind] at h
  rcases hrun : p.run reading with ⟨e' | a, reading'⟩
  · rw [hrun] at h
    exact .inl (congrArg Except.error (Except.error.inj h))
  · rw [hrun] at h
    exact .inr ⟨a, reading', rfl, h⟩

theorem RefusedFor.bind {Q : α → Prop} (hp : p.RefusedFor I P)
    (hkeeps : p.Keeps I (fun _ => True) Q) (hf : ∀ a, Q a → (f a).RefusedFor I P) :
    (p >>= f).RefusedFor I P := by
  intro reading hs fault hrefused
  rcases run_bind_error hrefused with hfirst | ⟨a, reading', hrun, hsecond⟩
  · exact hp reading hs fault hfirst
  · have hkept := (hkeeps reading hs).1
    rw [hrun] at hkept
    exact hf a (hkeeps.of_run hs hrun) reading' hkept fault hsecond

/-- Where what follows needs no invariant, it does not matter what comes first. -/
theorem RefusedFor.andThen (hp : p.RefusedFor I P)
    (hf : ∀ a, (f a).RefusedFor (fun _ => True) P) : (p >>= f).RefusedFor I P := by
  intro reading hs fault hrefused
  rcases run_bind_error hrefused with hfirst | ⟨a, reading', -, hsecond⟩
  · exact hp reading hs fault hfirst
  · exact hf a reading' trivial fault hsecond

theorem RefusedFor.of_true (h : p.RefusedFor (fun _ => True) P) : p.RefusedFor I P :=
  fun reading _ => h reading trivial

theorem refusedFor_pictureSet (id : Nat) : (pictureSet id).RefusedFor (fun _ => True) P :=
  refusedFor_session.andThen fun _ => refusedFor_ofParse refusedFor_ofReference

end Step

theorem refusedFor_pictureStructure (layer : Nat) :
    (pictureStructure layer).RefusedFor (fun _ => True) Fault.BesidesWeights := by
  refine (Step.refusedFor_ofParse PictureHeader.refusedFor_readStart).andThen fun start => ?_
  refine (Step.refusedFor_pictureSet start.ppsId).andThen fun pps => ?_
  refine (Step.refusedFor_update _).andThen fun _ => Step.refusedFor_session.andThen fun s => ?_
  exact Step.refusedFor_ofParse
    (PictureHeader.refusedFor_readRest pps (Sps.refusedFor_headerReferences _ _ _) start)

theorem refusedFor_separatePicture (layer : Nat) :
    (separatePicture layer).RefusedFor (fun _ => True) Fault.BesidesWeights := by
  refine (refusedFor_pictureStructure layer).andThen fun picture => ?_
  refine (Step.refusedFor_ofParse refusedFor_finish).andThen fun _ => ?_
  exact (Step.refusedFor_update _).andThen fun _ => Step.refusedFor_pure picture

theorem refusedFor_sliceContext (header : Nal.Header) (carriesPicture : Bool) :
    (sliceContext header carriesPicture).RefusedFor (fun _ => True) Fault.BesidesWeights := by
  have hpicture : (pictureOfSlice header.layer carriesPicture).RefusedFor (fun _ => True)
      Fault.BesidesWeights := by
    unfold pictureOfSlice
    split
    · refine (refusedFor_pictureStructure header.layer).andThen fun picture => ?_
      exact (Step.refusedFor_update _).andThen fun _ => Step.refusedFor_pure picture
    · exact Step.refusedFor_session.andThen fun _ => Step.refusedFor_ofParse refusedFor_ofReference
  refine hpicture.andThen fun picture => ?_
  refine (Step.refusedFor_pictureSet picture.start.ppsId).andThen fun pps => ?_
  exact Step.refusedFor_session.andThen fun s => Step.refusedFor_pure _

/-- Nothing but a unit of another kind is refused for more than the steps are. -/
theorem runStep_refusedFor {α : Type} {I : Session → Prop} {step : Step α}
    (hstep : step.RefusedFor I P) (hkind : ∀ expected kind, P (.unexpectedKind expected kind))
    {s : Session} (hs : I s) {expected : List Nal.Kind} {nal : Nal} {fault : Fault}
    (h : (s.runStep expected step nal).1 = .error (.invalid fault)) : P fault := by
  unfold runStep checkKind at h
  split at h
  · rename_i hunexpected
    split at hunexpected
    · cases hunexpected
    · cases hunexpected
      cases h
      exact hkind expected nal.header.kind
  · exact hstep _ hs fault h

end Session

end CodedVideo
