import CodedVideo.Proofs.AvailableSets
import CodedVideo.Proofs.Refusals
import CodedVideo.Proofs.StoredSets

/-!
# How many references are active

How many entries of a reference list are active is coded in the slice header, inferred from the
picture parameter set, or one.  The list itself comes from the sequence parameter set, the
picture header or the slice header, and the picture parameter set may have been replaced since
the picture header was read.

However it comes about, the number is checked against the list that applies, and it is at most
15: the coded numbers are bounded, and so are those of all picture parameter sets that a session
keeps (`Pps.fewActive_read`).  The collocated picture is checked against the active entries.
`Session.Reachable.activeEntries` says this of all slices that are accepted, and that no header
is refused for too many weights, since those of a slice are for the active entries.
-/

namespace CodedVideo

open Parse

/-! ### Active entries -/

namespace ActiveEntries

/-- Of a list that is not used no entry is active.  Otherwise one is at least, and no more than
there are and than can have weights. -/
def Fits (used : Bool) (count entries : Nat) : Prop :=
  if used then 1 ≤ count ∧ count ≤ min WeightTable.maxWeights entries else count = 0

/-- The numbers of active entries fit a slice with so many entries of each list. -/
structure Legal (type : SliceType) (entries : Nat × Nat) (a : ActiveEntries) : Prop where
  first : Fits (0 < type.lists) a.counts.1 entries.1
  second : Fits (1 < type.lists) a.counts.2 entries.2

theorem Fits.le {used : Bool} {count entries : Nat} (h : Fits used count entries) :
    count ≤ WeightTable.maxWeights := by
  unfold Fits at h
  split at h
  · exact h.2.trans (Nat.min_le_left _ _)
  · rw [h]
    exact Nat.zero_le _

theorem count_le {overridden : Bool} {codedMinus1 defaultMinus1 entries : Nat}
    (hcoded : codedMinus1 ≤ 14) (hdefault : defaultMinus1 ≤ 14) :
    count overridden codedMinus1 defaultMinus1 entries ≤ WeightTable.maxWeights := by
  unfold count WeightTable.maxWeights
  split <;> omega

theorem check_ensures (type : SliceType) (list count entries : Nat) :
    (check type list count entries).Ensures fun _ => 1 ≤ count ∧ count ≤ entries := by
  unfold check
  rw [ensures_bind, ensures_refuseIf]
  intro hmany
  rw [ensures_refuseIf]
  intro hnone
  simp only [decide_eq_false_iff_not, not_lt, beq_eq_false_iff_ne] at hmany hnone
  exact ⟨Nat.one_le_iff_ne_zero.mpr hnone, hmany⟩

/-- The number of active entries of a list is checked if the list is used. -/
theorem ensures_check_used {α : Type} {Q : α → Prop} {used : Prop} [Decidable used]
    (type : SliceType) (list : Nat) {count entries : Nat} (hcount : count ≤ WeightTable.maxWeights)
    {f : Unit → Parse α}
    (hf : Fits used (if used then count else 0) entries → (f ()).Ensures Q) :
    (if used then check type list (if used then count else 0) entries >>= f else f ()).Ensures Q := by
  by_cases hused : used
  · simp only [if_pos hused] at hf ⊢
    refine (check_ensures type list count entries).bind fun _ ⟨hpos, hentries⟩ => hf ?_
    simp [Fits, hused, hpos, hcount, hentries]
  · simp only [if_neg hused] at hf ⊢
    exact hf (by simp [Fits, hused])

/-- **The numbers of active entries fit the lists.** -/
theorem read_legal (type : SliceType) (entries : Nat × Nat) {defaultMinus1 : Nat × Nat}
    (hdefault : defaultMinus1.1 ≤ 14 ∧ defaultMinus1.2 ≤ 14) :
    (read type entries defaultMinus1).Ensures (·.Legal type entries) := by
  unfold read
  extract_lets -underBinder uses0 uses1 choice0 choice1 withOverridden
  have hwithOverridden : ∀ overridden,
      (withOverridden overridden).Ensures (·.Legal type entries) := by
    intro overridden
    have hcoded : ∀ choice, (given (overridden && choice) (ueMax 14)).Ensures (· ≤ 14) :=
      fun choice => ensures_given.mpr ⟨fun _ => .ueMax fun _ h => h, fun _ => Nat.zero_le _⟩
    refine (hcoded choice0).bind fun coded0 hcoded0 => ?_
    refine (hcoded choice1).bind fun coded1 hcoded1 => ?_
    extract_lets -underBinder count0 count1 withFirst
    refine ensures_check_used type 0 (count_le hcoded0 hdefault.1) fun hfirst => ?_
    refine ensures_check_used type 1 (count_le hcoded1 hdefault.2) fun hsecond => ?_
    exact ensures_pure.mpr ⟨hfirst, hsecond⟩
  split
  · exact .andThen hwithOverridden
  · exact hwithOverridden true

end ActiveEntries

/-! ### Collocated pictures -/

namespace SliceMotion

/-- The picture that motion is predicted from is an active entry, if there is one. -/
def CollocatedActive (picture : PictureHeader) (counts : Nat × Nat) (m : SliceMotion) : Prop :=
  picture.motion.temporal = true → m.collocated.index < m.collocated.active counts

theorem readCollocated_ensures (type : SliceType) (pps : Pps) (picture : PictureHeader)
    (counts : Nat × Nat) :
    (readCollocated type pps picture counts).Ensures fun c =>
      picture.motion.temporal = true → c.2.index < c.2.active counts := by
  unfold readCollocated
  split
  case isTrue hoff =>
    refine ensures_pure.mpr fun htemporal => ?_
    rw [htemporal] at hoff
    cases hoff
  case isFalse =>
    extract_lets -underBinder withOwn
    have hwithOwn : ∀ own, (withOwn own).Ensures fun c =>
        picture.motion.temporal = true → c.2.index < c.2.active counts := by
      intro own
      unfold withOwn
      extract_lets applied
      refine .bind (P := fun _ => applied.index < applied.active counts) ?_ fun _ hactive => ?_
      · rw [Collocated.check, ensures_refuseIf, decide_eq_false_iff_not]
        exact not_le.mp
      · exact ensures_pure.mpr fun _ => hactive
    split
    · exact hwithOwn {}
    · exact .andThen hwithOwn

theorem read_collocatedActive (type : SliceType) (pps : Pps) (picture : PictureHeader)
    (lists : RefLists) (counts : Nat × Nat) :
    (read type pps picture lists counts).Ensures (CollocatedActive picture counts) := by
  refine .andThen fun cabacInit => (readCollocated_ensures type pps picture counts).bind ?_
  rintro ⟨own, collocated⟩ hcollocated
  dsimp -zeta only
  extract_lets -underBinder weighted withWeights
  have hwithWeights : ∀ ownWeights,
      (withWeights ownWeights).Ensures (CollocatedActive picture counts) :=
    fun _ => ensures_pure.mpr hcollocated
  split
  · exact .andThen hwithWeights
  · exact hwithWeights none

end SliceMotion

/-! ### Picture parameter sets -/

namespace Pps

/-- Unless a slice says otherwise, there are not too many active entries. -/
def FewActive (pps : Pps) : Prop :=
  pps.references.defaultActiveMinus1.1 ≤ 14 ∧ pps.references.defaultActiveMinus1.2 ≤ 14

theorem fewActive_readReferences (sps : Sps) (width : Nat) :
    (PictureReferences.read sps width).Ensures fun references =>
      references.defaultActiveMinus1.1 ≤ 14 ∧ references.defaultActiveMinus1.2 ≤ 14 := by
  refine .bind (.ueMax fun _ h => h) fun active0 h0 => .bind (.ueMax fun _ h => h) fun active1 h1 => ?_
  refine .andThen fun _ => .andThen fun _ => .andThen fun _ => .andThen fun _ => .andThen fun _ => ?_
  extract_lets withWraparound
  have hwith : ∀ wraparound, (withWraparound wraparound).Ensures fun references =>
      references.defaultActiveMinus1.1 ≤ 14 ∧ references.defaultActiveMinus1.2 ≤ 14 :=
    fun _ => ensures_pure.mpr ⟨h0, h1⟩
  split
  · exact .andThen hwith
  · exact hwith none

theorem fewActive_readSettings (pps : Pps) : (readSettings pps).Ensures FewActive := by
  refine .andThen fun _ => (fewActive_readReferences _ _).bind fun references hfew => ?_
  exact .andThen fun _ => .andThen fun _ => .andThen fun _ => ensures_pure.mpr hfew

theorem fewActive_read (spsOf : Nat → Option Sps) : (read spsOf).Ensures FewActive := by
  refine .withExtension ?_ fun _ _ hfew => hfew
  refine .andThen fun _ => .andThen fun _ => .andThen fun pps => ?_
  refine (fewActive_readSettings pps).bind fun pps hfew => (readHeaderExtensions_frame pps).mono ?_
  rintro pps' hpps'
  rw [hpps']
  exact hfew

end Pps

/-! ### Slice headers -/

namespace SliceHeader

/-- The numbers of active entries fit the lists that apply, and the picture that motion is
predicted from is an active entry. -/
structure ActiveLegal (slice : SliceHeader) : Prop where
  counts : slice.active.Legal slice.type
    (slice.applied.lists.list0.size, slice.applied.lists.list1.size)
  collocated : slice.type ≠ .i → slice.picture.motion.temporal = true →
    slice.motion.collocated.index < slice.motion.collocated.active slice.active.counts

variable {c : Context}

theorem Composed.activeLegal {slice : SliceHeader} (h : slice.Composed c) (hpps : c.pps.FewActive) :
    slice.ActiveLegal where
  counts := ActiveEntries.read_legal _ _ hpps slice.active h.active
  collocated := by
    intro htype htemporal
    have hmotion := h.motion
    rw [given, if_pos (bne_iff_ne.mpr htype)] at hmotion
    rw [h.picture] at htemporal
    exact SliceMotion.read_collocatedActive _ _ _ _ _ slice.motion hmotion htemporal

/-- The weights of a slice are for its active entries, which are not too many. -/
theorem refusedFor_readRest (hpps : c.pps.FewActive)
    (hreferences : c.references.RefusedFor Fault.BesidesWeights) (start : Start)
    (mapped scaled : Bool) :
    (readRest c start mapped scaled).RefusedFor Fault.BesidesWeights := by
  unfold readRest
  extract_lets pps sps inPicture
  refine .bind (by simp [readLists, hreferences]) fun lists => ?_
  extract_lets appliedLists
  refine refusedFor_bind.mpr ⟨ActiveEntries.refusedFor_read _ _ _, ?_⟩
  refine (ActiveEntries.read_legal _ _ hpps).mono fun active hactive => ?_
  have hmotion := SliceMotion.refusedFor_read start.type pps c.picture appliedLists
    ⟨hactive.first.le, hactive.second.le⟩
  refine .bind (refusedFor_given.mpr fun _ => hmotion) fun motion => ?_
  simp

theorem refusedFor_read (hpps : c.pps.FewActive)
    (hreferences : c.references.RefusedFor Fault.BesidesWeights) :
    (read c).RefusedFor Fault.BesidesWeights :=
  (refusedFor_readStart c).bind fun start => (refusedFor_readUse c _).bind fun mapped =>
    (refusedFor_readUse c _).bind fun scaled =>
      refusedFor_readRest hpps hreferences start mapped scaled

end SliceHeader

namespace Session

variable {s s' : Session}

/-- All picture parameter sets that are kept are held to few active entries. -/
def FewActive (s : Session) : Prop := s.pictureSets.All Pps.FewActive

theorem fewActive_stable : Stable FewActive where
  activate := fun hs _ _ => hs
  setPicture := fun hs _ => hs

theorem Reachable.fewActive (hs : s.Reachable) : s.FewActive :=
  hs.pictureSets_all (P := fun _ => True) (fun _ _ => ensures_of_forall fun _ => trivial)
    fun spsOf _ => Pps.fewActive_read spsOf

theorem keeps_activeLegal (header : Nal.Header) :
    (sliceStructure header).Keeps FewActive (fun _ => True) SliceHeader.ActiveLegal :=
  keeps_sliceStructure fewActive_stable (fun _ hs => hs) trivial trivial
    (fun _ _ hreferences => SliceHeader.within_read trivial hreferences)
    (fun c hpps => (SliceHeader.read_composed c).mono fun _ h => h.activeLegal hpps)
    (fun _ _ _ _ hslice => { hslice with }) header

/-- A slice is read against a picture parameter set that is kept. -/
theorem keeps_contextFewActive (header : Nal.Header) (carriesPicture : Bool) :
    (sliceContext header carriesPicture).Keeps FewActive (fun _ => True) fun c =>
      c.pps.FewActive ∧ c.references.RefusedFor Fault.BesidesWeights := by
  refine (keeps_pictureOfSlice fewActive_stable header.layer carriesPicture).bind fun picture _ => ?_
  refine (Step.keeps_pictureSet (fun _ hs => hs) picture.start.ppsId).bind fun pps hpps => ?_
  exact Step.keeps_session.bind fun s _ =>
    Step.keeps_pure ⟨hpps, Sps.refusedFor_headerReferences _ _ _⟩

theorem refusedFor_sliceStructure (header : Nal.Header) :
    (sliceStructure header).RefusedFor FewActive Fault.BesidesWeights := by
  have helements : (sliceElements header).RefusedFor FewActive Fault.BesidesWeights := by
    refine (Step.refusedFor_ofParse refusedFor_flag).bind (Step.keeps_ofParse_true within_flag)
      fun carriesPicture _ => ?_
    refine (refusedFor_sliceContext header carriesPicture).of_true.bind
      (keeps_contextFewActive header carriesPicture) fun c ⟨hpps, hreferences⟩ => ?_
    exact (Step.refusedFor_ofParse (SliceHeader.refusedFor_read hpps hreferences)).andThen
      fun slice => Step.refusedFor_pure _
  refine helements.andThen fun slice => ?_
  refine (Step.refusedFor_ofParse refusedFor_finish).andThen fun _ => ?_
  refine Step.refusedFor_session.andThen fun s => ?_
  refine (Step.refusedFor_ofParse (SliceHeader.refusedFor_checkReferences _ _)).andThen fun _ => ?_
  exact Step.refusedFor_extent.andThen fun extent => Step.refusedFor_pure _

/-- **The active entries of an accepted slice are legal, and no header has too many weights.** -/
theorem Reachable.activeEntries (hs : s.Reachable) (nal : Nal) :
    (∀ slice, (s.readSlice nal).1 = .ok slice → slice.ActiveLegal) ∧
    ∀ count list,
      (s.readSlice nal).1 ≠ .error (.invalid (.tooManyWeights count list)) ∧
      (s.readPictureHeader nal).1 ≠ .error (.invalid (.tooManyWeights count list)) := by
  have hkind : ∀ expected kind, (Fault.unexpectedKind expected kind).BesidesWeights := by
    rintro _ _ _ _ ⟨⟩
  refine ⟨fun slice hslice => ?_, fun count list => ⟨fun hrefused => ?_, fun hrefused => ?_⟩⟩
  · have hkeeps := (runStep_keeps (keeps_activeLegal nal.header) hs.fewActive sliceKinds nal).2
    rw [show (s.runStep sliceKinds (sliceStructure nal.header) nal).1 = .ok slice from hslice]
      at hkeeps
    exact hkeeps
  · exact runStep_refusedFor (refusedFor_sliceStructure nal.header) hkind hs.fewActive hrefused
      count list rfl
  · exact runStep_refusedFor (refusedFor_separatePicture nal.header.layer) hkind trivial hrefused
      count list rfl

/-- Of the two entries of each list one is active, and motion is predicted from that of the first
list. -/
theorem activeEntries_filteredSlice : filtered.Reachable ∧ ∃ slice,
    (filtered.readSlice filteredSlice).1 = .ok slice ∧ slice.type = .b ∧
    slice.active.counts = (1, 1) ∧ slice.ActiveLegal ∧ slice.picture.motion.temporal = true ∧
    slice.motion.collocated.first = true ∧ slice.motion.collocated.index < 1 := by
  have hcheck : (match (filtered.readSlice filteredSlice).1 with
    | .ok slice => slice.type == .b && slice.active.counts == (1, 1) &&
        slice.picture.motion.temporal && slice.motion.collocated.first
    | .error _ => false) = true := by
    decide +kernel
  split at hcheck
  · rename_i slice hread
    simp only [Bool.and_eq_true, beq_iff_eq] at hcheck
    obtain ⟨⟨⟨htype, hcounts⟩, htemporal⟩, hfirst⟩ := hcheck
    have hlegal := (filtered_reachable.activeEntries filteredSlice).1 slice hread
    have hcollocated := hlegal.collocated (by rw [htype]; decide) htemporal
    rw [Collocated.active, hfirst, hcounts] at hcollocated
    exact ⟨filtered_reachable, slice, hread, htype, hcounts, hlegal, htemporal, hfirst,
      hcollocated⟩
  · cases hcheck

end Session

end CodedVideo
