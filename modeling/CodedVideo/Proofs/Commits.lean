import CodedVideo.Proofs.Reachable
import CodedVideo.Proofs.SetFeatures

/-!
# Sets are registered at once or not at all

Reading a parameter set has two outcomes.  Either the set is refused, and then the
session is what it was, or it is put into the one slot that its kind and its id name.
`Session.Sized.commits` says this of all calls, and of headers that they change no slot.

Some refusals never occur: every id that can be read is below the number of slots.  That
is a fact about the widths of ids, which each set has a lemma for, and about the sizes of
stores, which nothing changes (`Session.Reachable.sized`).
-/

namespace CodedVideo

open Parse

/-! ### Slots -/

namespace ParameterStore

variable {α : Type} {s s' : ParameterStore α}

/-- The store `s'` holds `set` in the slot of `id` and otherwise what `s` holds. -/
structure Updated (s : ParameterStore α) (id : Nat) (set : α) (s' : ParameterStore α) : Prop where
  capacity : s'.capacity = s.capacity
  currentId : s'.currentId = s.currentId
  get? : ∀ other, s'.get? other = if other = id then some set else s.get? other

theorem updated_of_insert {id : Nat} {set : α} (h : s.insert id set = .ok s') :
    s.Updated id set s' := by
  unfold ParameterStore.insert at h
  split at h
  · cases h
    exact ⟨rfl, rfl, join_getElem?_fill id set s.slots⟩
  · cases h

theorem insert_updated {id : Nat} (h : id < s.capacity) (set : α) :
    ∃ s', s.insert id set = .ok s' ∧ s.Updated id set s' :=
  ⟨_, if_pos h, updated_of_insert (if_pos h)⟩

end ParameterStore

/-! ### The ids of sets -/

theorem Vps.id_lt : read.Ensures (·.id < 16) := by
  refine .withExtension ?_ fun _ _ h => h
  refine .bind (ensures_u.mpr fun id hid => hid) fun id hid => ?_
  have hid : id < 16 := hid
  simp [hid]

theorem Sps.id_lt (vpsOf : Nat → Option Vps) (layer : Nat) :
    (read vpsOf layer).Ensures (·.id < 16) := by
  have hformat : (readFormat vpsOf).Ensures (·.id < 16) := by
    refine .bind (ensures_u.mpr fun id hid => hid) fun id hid => ?_
    have hid : id < 16 := hid
    simp [hid]
  have hsize : ∀ sps, (readSize sps).Ensures (·.id = sps.id) := by simp [readSize]
  have hcoding : ∀ sps, (readCoding sps).Ensures (·.id = sps.id) := by simp [readCoding]
  have htrees : ∀ sps, (readTrees sps).Ensures (·.id = sps.id) := by simp [readTrees]
  have htools : ∀ references sps, (readTools references sps).Ensures (·.id = sps.id) := by
    simp [readTools]
  have hpresentation : ∀ sps, (readPresentation sps).Ensures (·.id = sps.id) := by
    simp [readPresentation]
  have hextensions : ∀ sps, (readExtensions sps).Ensures (·.id = sps.id) := by
    simp [readExtensions]
  refine ensures_read ?_
  refine hformat.bind fun sps h => (hsize sps).bind fun sps₁ h₁ => ?_
  refine (hcoding sps₁).bind fun sps₂ h₂ => (htrees sps₂).bind fun sps₃ h₃ => ?_
  refine (htools _ sps₃).bind fun sps₄ h₄ => (hpresentation sps₄).bind fun sps₅ h₅ => ?_
  refine (hextensions sps₅).mono fun sps₆ h₆ => ?_
  rwa [h₆, h₅, h₄, h₃, h₂, h₁]

theorem Pps.id_lt (spsOf : Nat → Option Sps) : (read spsOf).Ensures (·.id < 64) := by
  have hsize : (readSize spsOf).Ensures (·.id < 64) := by
    refine .bind (ensures_u.mpr fun id hid => hid) fun id hid => ?_
    have hid : id < 64 := hid
    simp [hid]
  have hwindows : ∀ pps, (readWindows pps).Ensures (·.id = pps.id) := by simp [readWindows]
  have hpartition : ∀ pps, (readPartition pps).Ensures (·.id = pps.id) := by
    simp [readPartition]
  have hsettings : ∀ pps, (readSettings pps).Ensures (·.id = pps.id) := by simp [readSettings]
  have hextensions : ∀ pps, (readHeaderExtensions pps).Ensures (·.id = pps.id) := by
    simp [readHeaderExtensions]
  refine .withExtension ?_ fun _ _ h => h
  refine hsize.bind fun pps h => (hwindows pps).bind fun pps₁ h₁ => ?_
  refine (hpartition pps₁).bind fun pps₂ h₂ => (hsettings pps₂).bind fun pps₃ h₃ => ?_
  refine (hextensions pps₃).mono fun pps₄ h₄ => ?_
  rwa [h₄, h₃, h₂, h₁]

theorem ApsKind.capacity_pos (kind : ApsKind) : 0 < kind.capacity := by
  cases kind <;> decide

theorem ApsContent.kind_read (chroma : Bool) (kind : ApsKind) :
    (read chroma kind).Ensures (·.kind = kind) := by
  cases kind <;> simp [read, ApsContent.kind]

theorem Aps.id_lt (layer : Nat) : (read layer).Ensures fun aps => aps.id < aps.kind.capacity := by
  refine .withExtension ?_ fun _ _ h => h
  refine .andThen fun code => ?_
  cases ApsKind.ofCode? code with
  | none => exact ensures_fail
  | some kind =>
    refine .bind (P := (· < kind.capacity)) ?_ fun id hid => .andThen fun chroma => ?_
    · rw [ensures_uMax]
      intro id _ hle
      have hpos := kind.capacity_pos
      omega
    refine (ApsContent.kind_read chroma kind).bind fun content hkind => ?_
    rw [← hkind] at hid
    simp [Aps.kind, hid]

/-! ### Registration -/

/-- A set is refused because its id is too large for its store. -/
def ParseError.OfStore (e : ParseError) : Prop := ∃ error, e = .invalid (.store error)

namespace Session

variable {α : Type} {s : Session} {nal : Nal}

/-- Either the session is `s`, which refuses the unit and not for the size of a store, or
what is yielded has been registered. -/
def Commits (s : Session) (registered : α → Session → Prop) :
    Except ParseError α × Session → Prop
  | (.error e, s') => s' = s ∧ ¬ e.OfStore
  | (.ok set, s') => registered set s'

theorem not_ofStore_of_readPayload {content : Parse α} (hcontent : content.Within Feature.OfSet)
    {expected : List Nal.Kind} {e : ParseError}
    (h : s.readPayload expected content nal = .error e) : ¬ e.OfStore := by
  rintro ⟨error, rfl⟩
  rcases except_bind_eq_error.mp h with h | ⟨_, _, h⟩
  · unfold checkKind at h
    split at h
    · cases h
    · cases h
  · exact (hcontent.of_run h .store rfl).1 rfl

/-- A set whose id is below the number of slots is registered in its slot. -/
theorem register_commits {content : Parse α} (hcontent : content.Within Feature.OfSet)
    {id : α → Nat} {store : α → ParameterStore α} {put : α → ParameterStore α → Session}
    (hid : content.Ensures fun set => id set < (store set).capacity)
    (expected : List Nal.Kind) (nal : Nal) :
    s.Commits (fun set s' => ∃ sets, (store set).Updated (id set) set sets ∧ s' = put set sets)
      (s.register expected content (fun set => do
        return put set (← (store set).insert (id set) set)) nal) := by
  unfold register
  split
  · rename_i e he
    exact ⟨rfl, not_ofStore_of_readPayload hcontent he⟩
  · rename_i set hset
    obtain ⟨_, _, hrun⟩ := except_bind_eq_ok.mp hset
    obtain ⟨sets, hsets, hupdated⟩ := ParameterStore.insert_updated (hid.of_run hrun) set
    dsimp only
    rw [hsets]
    exact ⟨sets, hupdated, rfl⟩

/-- The stores have as many slots as there are ids. -/
structure Sized (s : Session) : Prop where
  operatingPoints : s.operatingPoints.capacity = 1
  videoSets : s.videoSets.capacity = 16
  sequenceSets : s.sequenceSets.capacity = 16
  pictureSets : s.pictureSets.capacity = 64
  alfSets : s.alfSets.capacity = ApsKind.alf.capacity
  lmcsSets : s.lmcsSets.capacity = ApsKind.lmcs.capacity
  scalingListSets : s.scalingListSets.capacity = ApsKind.scalingList.capacity

theorem Sized.adaptationSets (h : s.Sized) (kind : ApsKind) :
    (s.adaptationSets kind).capacity = kind.capacity := by
  cases kind with
  | alf => exact h.alfSets
  | lmcs => exact h.lmcsSets
  | scalingList => exact h.scalingListSets

/-- The session `s'` is `s` but for the picture header and the ids of sets in use. -/
def OnlyActivates (s s' : Session) : Prop :=
  ∃ sequenceId pictureId picture, s' = { s with
    sequenceSets := { s.sequenceSets with currentId := sequenceId }
    pictureSets := { s.pictureSets with currentId := pictureId }
    picture }

theorem OnlyActivates.refl (s : Session) : s.OnlyActivates s :=
  ⟨s.sequenceSets.currentId, s.pictureSets.currentId, s.picture, rfl⟩

theorem onlyActivates_stable (s : Session) : Stable s.OnlyActivates where
  activate := by
    rintro _ ⟨sequenceId, pictureId, picture, rfl⟩ id pps
    exact ⟨some pps.sps.id, some id, picture, rfl⟩
  setPicture := by
    rintro _ ⟨sequenceId, pictureId, _, rfl⟩ picture
    exact ⟨sequenceId, pictureId, some picture, rfl⟩

/-- The registered sets stay as they are, and nothing is refused for the size of a store. -/
def LeavesSets (s : Session) (r : Except ParseError α × Session) : Prop :=
  s.OnlyActivates r.2 ∧ ∀ e, r.1 = .error e → ¬ e.OfStore

theorem runStep_leavesSets {step : Step α}
    (hstep : step.Keeps s.OnlyActivates (· ≠ .store) fun _ => True) (expected : List Nal.Kind)
    (nal : Nal) : s.LeavesSets (s.runStep expected step nal) := by
  have h := runStep_keeps hstep (.refl s) expected nal
  refine ⟨h.1, ?_⟩
  rintro _ he ⟨error, rfl⟩
  rw [he] at h
  exact h.2 (.store error) rfl .store rfl rfl

theorem readPictureHeader_leavesSets (s : Session) (nal : Nal) :
    s.LeavesSets (s.readPictureHeader nal) :=
  runStep_leavesSets
    (keeps_separatePicture (onlyActivates_stable s) (by decide) (by decide) _) _ nal

theorem readSlice_leavesSets (s : Session) (nal : Nal) : s.LeavesSets (s.readSlice nal) :=
  runStep_leavesSets
    (keeps_sliceStructure (P := fun _ => True) (onlyActivates_stable s)
      (fun _ _ _ _ _ => trivial) (by decide) (by decide)
      (fun _ _ hreferences => SliceHeader.within_read (by decide) hreferences)
      (fun _ _ => ensures_of_forall fun _ => trivial) (fun _ _ _ _ _ => trivial) nal.header)
    _ nal

/-- What can come of reading a NAL unit as each of the things it may be. -/
structure Committing (s : Session) (nal : Nal) : Prop where
  operatingPoint : s.Commits (fun point s' => ∃ sets,
    s.operatingPoints.Updated 0 point sets ∧ s' = { s with operatingPoints := sets })
    (s.readOperatingPoint nal)
  videoSet : s.Commits (fun vps s' => ∃ sets,
    s.videoSets.Updated vps.id vps sets ∧ s' = { s with videoSets := sets }) (s.readVps nal)
  sequenceSet : s.Commits (fun sps s' => ∃ sets,
    s.sequenceSets.Updated sps.id sps sets ∧ s' = { s with sequenceSets := sets })
    (s.readSps nal)
  pictureSet : s.Commits (fun pps s' => ∃ sets,
    s.pictureSets.Updated pps.id pps sets ∧ s' = { s with pictureSets := sets }) (s.readPps nal)
  adaptationSet : s.Commits (fun aps s' => ∃ sets,
    (s.adaptationSets aps.kind).Updated aps.id aps sets ∧
      s' = s.setAdaptationSets sets aps.kind) (s.readAps nal)
  delimiter : s.Commits (fun _ s' => s' = s) (s.readDelimiter nal, s.after (.delimiter nal))
  pictureHeader : s.LeavesSets (s.readPictureHeader nal)
  slice : s.LeavesSets (s.readSlice nal)

/-- **Sets are registered at once or not at all.** -/
theorem Sized.commits (h : s.Sized) (nal : Nal) : s.Committing nal where
  operatingPoint := by
    refine register_commits OperatingPoint.within_read (ensures_of_forall fun _ => ?_) _ nal
    rw [h.operatingPoints]
    exact Nat.one_pos
  videoSet := by
    refine register_commits Vps.within_read (Vps.id_lt.mono fun vps hid => ?_) _ nal
    rwa [h.videoSets]
  sequenceSet := by
    refine register_commits (Sps.within_read _ _) ((Sps.id_lt _ _).mono fun sps hid => ?_) _ nal
    rwa [h.sequenceSets]
  pictureSet := by
    refine register_commits (Pps.within_read _) ((Pps.id_lt _).mono fun pps hid => ?_) _ nal
    rwa [h.pictureSets]
  adaptationSet := by
    refine register_commits (Aps.within_read _) ((Aps.id_lt _).mono fun aps hid => ?_) _ nal
    rwa [h.adaptationSets]
  delimiter := by
    cases hread : s.readDelimiter nal with
    | error e => exact ⟨rfl, not_ofStore_of_readPayload AccessUnitDelimiter.within_read hread⟩
    | ok delimiter => exact rfl
  pictureHeader := s.readPictureHeader_leavesSets nal
  slice := s.readSlice_leavesSets nal

theorem start_sized (escaped : Bool) : (start escaped).Sized :=
  ⟨rfl, rfl, rfl, rfl, rfl, rfl, rfl⟩

/-- A session with two picture parameter sets of initial QP 26, the first of which is in use. -/
def twoPictures : Session :=
  (start false).after (.sequenceSet {
      header := { kind := .sps, temporalIdPlus1 := 1 }
      bytes := [0x00, 0x79, 0x00, 0x09, 0x02, 0x33, 0x80, 0x00, 0x00, 0x82, 0x04, 0x11, 0x88, 0x02,
        0xf6, 0xc3, 0xe0, 0x30, 0x10, 0x40, 0x00, 0x10] })
    |>.after (.pictureSet {
      header := { kind := .pps, temporalIdPlus1 := 1 }
      bytes := [0x00, 0x81, 0x00, 0x00, 0x41, 0x02, 0x08, 0x0d, 0x29, 0x84, 0x08, 0x80] })
    |>.after (.pictureSet {
      header := { kind := .pps, temporalIdPlus1 := 1 }
      bytes := [0x00, 0x81, 0x04, 0x00, 0x41, 0x02, 0x08, 0x0d, 0x29, 0x84, 0x08, 0x80] })
    |>.after (.pictureHeader {
      header := { kind := .pictureHeader, temporalIdPlus1 := 1 }
      bytes := [0x00, 0x99, 0x88, 0x00, 0x12, 0xa0] })

theorem twoPictures_sized : twoPictures.Sized := by
  constructor <;> decide +kernel

/-- The second set is replaced by one of initial QP 63. -/
theorem commits_secondPicture :
    let nal : Nal :=
      { header := { kind := .pps, temporalIdPlus1 := 1 }
        bytes := [0x00, 0x81, 0x04, 0x00, 0x41, 0x02, 0x08, 0x0d, 0x29, 0x80, 0x12, 0x80, 0x88] }
    twoPictures.Sized ∧ twoPictures.pictureSets.entries.map (fun (id, pps) => (id, pps.qp.init)) =
        [(0, 26), (1, 26)] ∧
      ∃ pps sets, twoPictures.readPps nal = (.ok pps, { twoPictures with pictureSets := sets }) ∧
        pps.id = 1 ∧ pps.qp.init = 63 ∧ sets.currentId = some 0 ∧
        ∀ id, sets.get? id = if id = 1 then some pps else twoPictures.pictureSets.get? id := by
  intro nal
  refine ⟨twoPictures_sized, by decide +kernel, ?_⟩
  have hcommits := (twoPictures_sized.commits nal).pictureSet
  have hcheck : (match (twoPictures.readPps nal).1 with
    | .ok pps => pps.id == 1 && pps.qp.init == 63
    | .error _ => false) = true := by
    decide +kernel
  have hcurrent : twoPictures.pictureSets.currentId = some 0 := by decide +kernel
  revert hcommits hcheck
  rcases twoPictures.readPps nal with ⟨e | pps, s'⟩
  · intro _ hcheck
    cases hcheck
  · rintro ⟨sets, hsets, rfl⟩ hcheck
    simp only [Bool.and_eq_true, beq_iff_eq] at hcheck
    obtain ⟨hid, hinit⟩ := hcheck
    refine ⟨pps, sets, rfl, hid, hinit, hsets.currentId.trans hcurrent, fun id => ?_⟩
    rw [hsets.get?, hid]

/-! ### Sizes -/

theorem LeavesSets.sized {r : Except ParseError α × Session} (hr : s.LeavesSets r)
    (h : s.Sized) : r.2.Sized := by
  obtain ⟨⟨_, _, _, hs'⟩, _⟩ := hr
  rw [hs']
  exact { h with }

/-- What holds of the session still does if it does when one store has been updated. -/
theorem register_updated_keeps {I : Session → Prop} (h : I s) {α : Type} {content : Parse α}
    {id : α → Nat} {store : α → ParameterStore α} {put : α → ParameterStore α → Session}
    (hput : ∀ set sets, (store set).Updated (id set) set sets → I (put set sets))
    (expected : List Nal.Kind) (nal : Nal) :
    I (s.register expected content (fun set => do
      return put set (← (store set).insert (id set) set)) nal).2 :=
  register_insert_keeps h (P := fun _ => True) (ensures_of_forall fun _ => trivial)
    (fun set sets _ hsets => hput set sets (ParameterStore.updated_of_insert hsets)) expected nal

theorem Sized.setAdaptationSets (h : s.Sized) {sets : ParameterStore Aps} {kind : ApsKind}
    (hsets : sets.capacity = kind.capacity) : (s.setAdaptationSets sets kind).Sized := by
  cases kind with
  | alf => exact { h with alfSets := hsets }
  | lmcs => exact { h with lmcsSets := hsets }
  | scalingList => exact { h with scalingListSets := hsets }

theorem Sized.reset (h : s.Sized) (keeping : Bool) : (s.reset keeping).Sized where
  operatingPoints := (ParameterStore.capacity_reset keeping _).trans h.operatingPoints
  videoSets := (ParameterStore.capacity_reset keeping _).trans h.videoSets
  sequenceSets := (ParameterStore.capacity_reset keeping _).trans h.sequenceSets
  pictureSets := (ParameterStore.capacity_reset keeping _).trans h.pictureSets
  alfSets := (ParameterStore.capacity_reset keeping _).trans h.alfSets
  lmcsSets := (ParameterStore.capacity_reset keeping _).trans h.lmcsSets
  scalingListSets := (ParameterStore.capacity_reset keeping _).trans h.scalingListSets

theorem Sized.after (h : s.Sized) (request : Request) : (s.after request).Sized := by
  cases request with
  | operatingPoint nal =>
    refine register_updated_keeps h (fun _ _ hsets => ?_) _ nal
    exact { h with operatingPoints := hsets.capacity.trans h.operatingPoints }
  | videoSet nal =>
    refine register_updated_keeps h (fun _ _ hsets => ?_) _ nal
    exact { h with videoSets := hsets.capacity.trans h.videoSets }
  | sequenceSet nal =>
    refine register_updated_keeps h (fun _ _ hsets => ?_) _ nal
    exact { h with sequenceSets := hsets.capacity.trans h.sequenceSets }
  | pictureSet nal =>
    refine register_updated_keeps h (fun _ _ hsets => ?_) _ nal
    exact { h with pictureSets := hsets.capacity.trans h.pictureSets }
  | adaptationSet nal =>
    refine register_updated_keeps h (fun aps _ hsets => ?_) _ nal
    exact h.setAdaptationSets (hsets.capacity.trans (h.adaptationSets aps.kind))
  | delimiter nal => exact h
  | pictureHeader nal => exact (s.readPictureHeader_leavesSets nal).sized h
  | slice nal => exact (s.readSlice_leavesSets nal).sized h
  | reset keeping => exact h.reset keeping

/-- The stores of a session that can be reached are as large as they were made. -/
theorem Reachable.sized (h : s.Reachable) : s.Sized := by
  induction h with
  | start escaped => exact start_sized escaped
  | after request _ ih => exact ih.after request

end Session

end CodedVideo
