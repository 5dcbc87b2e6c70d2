import CodedVideo.Proofs.Commits
import CodedVideo.Proofs.SliceBoundary
import CodedVideo.Proofs.Slices

/-!
# What a refused header leaves behind

A parameter set that is refused leaves the session as it was.  A picture or slice header
does not: as soon as the start of a picture header has been read, the picture parameter set
that it names is in use, and a slice that carries a picture header has made it the current
one when the slice itself is refused.

These are the only traces (`Session.sameUse_of_refused_iff`).  The registered sets stay as
they are.  What is in use stays as it was exactly if the named set is in use anyway, with
its sequence parameter set, and the picture header that has been read off a slice is the
current one anyway.

All but two steps of a header leave the session alone (`Step.Still`), so the session after a
header is that after the steps up to these two, whether the header is accepted or not.
-/

namespace CodedVideo

open Parse

namespace Session

/-! ### Steps that leave the session alone -/

namespace Step

variable {α β : Type}

/-- The step leaves the session as it is, also when it is refused. -/
def Still (p : Step α) : Prop := ∀ reading, (p.run reading).2.session = reading.session

theorem still_ofParse (content : Parse α) : (ofParse content).Still := fun _ => rfl

theorem still_session : session.Still := fun _ => rfl

theorem still_extent : extent.Still := fun _ => rfl

theorem still_pure (a : α) : (pure a : Step α).Still := fun _ => rfl

/-- What follows a step and leaves the session alone does not matter to it. -/
theorem session_bind {p : Step α} {f : α → Step β} (hf : ∀ a, (f a).Still) (reading : Reading) :
    ((p >>= f).run reading).2.session = (p.run reading).2.session := by
  rw [run_bind]
  rcases p.run reading with ⟨e | a, reading'⟩
  · rfl
  · exact hf a reading'

theorem Still.bind {p : Step α} {f : α → Step β} (hp : p.Still) (hf : ∀ a, (f a).Still) :
    (p >>= f).Still :=
  fun reading => (session_bind hf reading).trans (hp reading)

theorem still_pictureSet (id : Nat) : (pictureSet id).Still :=
  still_session.bind fun _ => still_ofParse _

end Step

/-! ### Sessions after headers -/

/-- The session with the sets in use that the picture header in front of the reader
names. -/
def named (s : Session) (r : BitReader) : Session :=
  match (PictureHeader.readStart.run r).1 with
  | .error _ => s
  | .ok start =>
    match s.pictureSets.get? start.ppsId with
    | none => s
    | some pps => s.activate start.ppsId pps

theorem picture_named (s : Session) (r : BitReader) : (s.named r).picture = s.picture := by
  unfold named
  split
  · rfl
  · split <;> rfl

theorem get?_named (s : Session) (r : BitReader) (id : Nat) :
    (s.named r).pictureSets.get? id = s.pictureSets.get? id := by
  unfold named
  split
  · rfl
  · split <;> rfl

/-- The session after the picture header that a slice carries. -/
def carried (s : Session) (layer : Nat) (r : BitReader) : Session :=
  match ((pictureStructure layer).run ⟨s, r⟩).1 with
  | .error _ => s.named r
  | .ok picture => (s.named r).setPicture picture

/-- A picture header puts the sets that it names in use, however it ends. -/
theorem session_pictureStructure (layer : Nat) (s : Session) (r : BitReader) :
    ((pictureStructure layer).run ⟨s, r⟩).2.session = s.named r := by
  unfold pictureStructure named
  rw [Step.run_ofParse_bind]
  rcases PictureHeader.readStart.run r with ⟨e | start, r₁⟩
  · rfl
  · dsimp only
    rw [Step.run_bind, Step.run_pictureSet]
    cases s.pictureSets.get? start.ppsId with
    | none => rfl
    | some pps => rfl

/-- A picture header that comes alone becomes the current one if it is accepted to its end. -/
theorem session_separatePicture (layer : Nat) (s : Session) (r : BitReader) :
    (∃ e, ((separatePicture layer).run ⟨s, r⟩).1 = .error e ∧
      ((separatePicture layer).run ⟨s, r⟩).2.session = s.named r) ∨
    ∃ picture reading, (pictureStructure layer).run ⟨s, r⟩ = (.ok picture, reading) ∧
      ((separatePicture layer).run ⟨s, r⟩).1 = .ok picture ∧
      ((separatePicture layer).run ⟨s, r⟩).2.session = (s.named r).setPicture picture := by
  unfold separatePicture
  rw [← session_pictureStructure layer, Step.run_bind]
  rcases (pictureStructure layer).run ⟨s, r⟩ with ⟨e | picture, s₁, r₁⟩
  · exact .inl ⟨e, rfl, rfl⟩
  · dsimp only
    rw [Step.run_ofParse_bind]
    rcases finish.run r₁ with ⟨e | _, r₂⟩
    · exact .inl ⟨e, rfl, rfl⟩
    · exact .inr ⟨picture, _, rfl, rfl, rfl⟩

theorem session_pictureOfSlice (layer : Nat) (s : Session) (r : BitReader) :
    ((pictureOfSlice layer true).run ⟨s, r⟩).2.session = s.carried layer r := by
  have hsession := session_pictureStructure layer s r
  show ((pictureStructure layer >>= fun picture => do
    Step.update (setPicture picture); return picture).run ⟨s, r⟩).2.session = _
  unfold carried
  rw [Step.run_bind, ← hsession]
  rcases (pictureStructure layer).run ⟨s, r⟩ with ⟨e | picture, reading⟩
  · rfl
  · rfl

theorem still_pictureOfSlice (layer : Nat) : (pictureOfSlice layer false).Still :=
  Step.still_session.bind fun _ => Step.still_ofParse _

/-- Behind the picture header of a slice, nothing changes the session. -/
theorem session_sliceStructure (header : Nal.Header) (reading : Reading) :
    ((sliceStructure header).run reading).2.session =
      ((Step.ofParse flag >>= pictureOfSlice header.layer).run reading).2.session := by
  have hcontext : ∀ carriesPicture reading,
      ((sliceContext header carriesPicture).run reading).2.session =
        ((pictureOfSlice header.layer carriesPicture).run reading).2.session := fun _ reading =>
    Step.session_bind (fun _ => (Step.still_pictureSet _).bind fun _ =>
      Step.still_session.bind fun _ => Step.still_pure _) reading
  have hfront : ((sliceElements header).run reading).2.session =
      ((Step.ofParse flag >>= pictureOfSlice header.layer).run reading).2.session := by
    unfold sliceElements
    rw [Step.run_bind, Step.run_bind]
    rcases (Step.ofParse flag).run reading with ⟨e | carriesPicture, reading₁⟩
    · rfl
    · rw [← hcontext]
      exact Step.session_bind (fun _ => (Step.still_ofParse _).bind fun _ => Step.still_pure _)
        reading₁
  -- What is left is the end of the payload and the check of what the slice refers to.
  rw [← hfront]
  exact Step.session_bind (fun _ => (Step.still_ofParse _).bind fun _ =>
    Step.still_session.bind fun _ => (Step.still_ofParse _).bind fun _ =>
      Step.still_extent.bind fun _ => Step.still_pure _) reading

/-! ### What stays the same -/

/-- The registered sets are the same. -/
structure SameSets (s s' : Session) : Prop where
  operatingPoint : s'.operatingPoint? = s.operatingPoint?
  videoSets : ∀ id, s'.videoSets.get? id = s.videoSets.get? id
  sequenceSets : ∀ id, s'.sequenceSets.get? id = s.sequenceSets.get? id
  pictureSets : ∀ id, s'.pictureSets.get? id = s.pictureSets.get? id
  adaptationSets : ∀ kind id, s'.adaptationSet? kind id = s.adaptationSet? kind id

/-- The same parameter sets are in use, and the picture header is the same. -/
structure SameUse (s s' : Session) : Prop where
  sps : s'.activeSps? = s.activeSps?
  pps : s'.activePps? = s.activePps?
  picture : s'.picture = s.picture

theorem SameUse.refl (s : Session) : s.SameUse s := ⟨rfl, rfl, rfl⟩

theorem OnlyActivates.sameSets {s s' : Session} (h : s.OnlyActivates s') : s.SameSets s' := by
  obtain ⟨_, _, _, rfl⟩ := h
  refine ⟨rfl, fun _ => rfl, fun _ => rfl, fun _ => rfl, fun kind _ => ?_⟩
  cases kind <;> rfl

/-- The sets that the picture header in front of the reader names are in use. -/
def NamesInUse (s : Session) (r : BitReader) : Prop :=
  ∀ start r' pps, PictureHeader.readStart.run r = (.ok start, r') →
    s.pictureSets.get? start.ppsId = some pps →
    s.activePps? = some pps ∧ s.activeSps? = s.sequenceSets.get? pps.sps.id

/-- If the picture header in front of the reader can be read, it is the current one. -/
def ReadsCurrent (s : Session) (layer : Nat) (r : BitReader) : Prop :=
  ∀ picture reading, (pictureStructure layer).run ⟨s, r⟩ = (.ok picture, reading) →
    s.picture = some picture

variable {s : Session}

theorem sameUse_activate_iff {id : Nat} {pps : Pps} (h : s.pictureSets.get? id = some pps) :
    s.SameUse (s.activate id pps) ↔
      s.activePps? = some pps ∧ s.activeSps? = s.sequenceSets.get? pps.sps.id := by
  have hpps : (s.activate id pps).activePps? = some pps := h
  have hsps : (s.activate id pps).activeSps? = s.sequenceSets.get? pps.sps.id := rfl
  constructor
  · intro hsame
    exact ⟨hsame.pps ▸ hpps, hsame.sps ▸ hsps⟩
  · rintro ⟨hactivePps, hactiveSps⟩
    exact ⟨hsps.trans hactiveSps.symm, hpps.trans hactivePps.symm, rfl⟩

theorem sameUse_named_iff (r : BitReader) : s.SameUse (s.named r) ↔ s.NamesInUse r := by
  unfold named NamesInUse
  rcases PictureHeader.readStart.run r with ⟨e | start, r₁⟩
  · refine ⟨?_, fun _ => .refl s⟩
    rintro - _ _ _ ⟨⟩
  · dsimp only
    cases hget : s.pictureSets.get? start.ppsId with
    | none =>
      refine ⟨?_, fun _ => .refl s⟩
      rintro - _ _ pps ⟨⟩ hpps
      cases hget.symm.trans hpps
    | some pps =>
      rw [sameUse_activate_iff hget]
      constructor
      · rintro hinUse _ _ _ ⟨⟩ hpps
        cases hget.symm.trans hpps
        exact hinUse
      · intro hinUse
        exact hinUse start r₁ pps rfl hget

theorem sameUse_setPicture_iff {s' : Session} (picture : PictureHeader)
    (h : s'.picture = s.picture) :
    s.SameUse (s'.setPicture picture) ↔ s.SameUse s' ∧ s.picture = some picture := by
  constructor
  · intro hsame
    exact ⟨⟨hsame.sps, hsame.pps, h⟩, hsame.picture.symm⟩
  · rintro ⟨hsame, hpicture⟩
    exact ⟨hsame.sps, hsame.pps, hpicture.symm⟩

theorem sameUse_carried_iff (layer : Nat) (r : BitReader) :
    s.SameUse (s.carried layer r) ↔ s.NamesInUse r ∧ s.ReadsCurrent layer r := by
  rw [← sameUse_named_iff]
  unfold carried ReadsCurrent
  rcases (pictureStructure layer).run ⟨s, r⟩ with ⟨e | picture, reading⟩
  · refine ⟨fun hsame => ⟨hsame, ?_⟩, fun h => h.1⟩
    rintro _ _ ⟨⟩
  · dsimp only
    rw [sameUse_setPicture_iff picture (s.picture_named r)]
    refine and_congr_right fun _ => ⟨?_, fun hcurrent => hcurrent picture reading rfl⟩
    rintro hcurrent _ _ ⟨⟩
    exact hcurrent

/-! ### Refused headers -/

theorem session_runStep {α : Type} (expected : List Nal.Kind) (step : Step α) (nal : Nal) :
    (s.runStep expected step nal).2 =
      if nal.header.kind ∈ expected then (step.run ⟨s, s.readerFor nal⟩).2.session else s := by
  unfold runStep checkKind
  by_cases hkind : nal.header.kind ∈ expected
  · rw [if_pos hkind, if_pos hkind]
    rfl
  · rw [if_neg hkind, if_neg hkind]

theorem sameUse_readPictureHeader_iff {nal : Nal} {e : ParseError}
    (h : (s.readPictureHeader nal).1 = .error e) :
    s.SameUse (s.readPictureHeader nal).2 ↔
      (nal.header.kind = .pictureHeader → s.NamesInUse (s.readerFor nal)) := by
  have hmem : nal.header.kind ∈ [Nal.Kind.pictureHeader] ↔ nal.header.kind = .pictureHeader :=
    List.mem_singleton
  unfold readPictureHeader at h ⊢
  rw [session_runStep]
  by_cases hkind : nal.header.kind = .pictureHeader
  · unfold runStep checkKind at h
    rw [if_pos (hmem.mpr hkind)] at h
    rw [if_pos (hmem.mpr hkind)]
    rcases session_separatePicture nal.header.layer s (s.readerFor nal) with
      ⟨e', -, hsession⟩ | ⟨picture, _, -, haccepted, -⟩
    · rw [hsession, sameUse_named_iff]
      exact ⟨fun hinUse _ => hinUse, fun hinUse => hinUse hkind⟩
    · cases haccepted.symm.trans h
  · rw [if_neg (mt hmem.mp hkind)]
    exact ⟨fun _ hpicture => absurd hpicture hkind, fun _ => .refl s⟩

theorem sameUse_readSlice_iff (nal : Nal) :
    s.SameUse (s.readSlice nal).2 ↔ (nal.header.kind ∈ sliceKinds →
      ∀ r, flag.run (s.readerFor nal) = (.ok true, r) →
        s.NamesInUse r ∧ s.ReadsCurrent nal.header.layer r) := by
  unfold readSlice
  rw [session_runStep]
  by_cases hkind : nal.header.kind ∈ sliceKinds
  · rw [if_pos hkind, session_sliceStructure, Step.run_ofParse_bind]
    rcases flag.run (s.readerFor nal) with ⟨e | carriesPicture, r⟩
    · refine ⟨?_, fun _ => .refl s⟩
      rintro - - _ ⟨⟩
    · cases carriesPicture with
      | false =>
        dsimp only
        rw [still_pictureOfSlice]
        refine ⟨?_, fun _ => .refl s⟩
        rintro - - _ ⟨⟩
      | true =>
        dsimp only
        rw [session_pictureOfSlice, sameUse_carried_iff]
        refine ⟨?_, fun h => h hkind r rfl⟩
        rintro h - _ ⟨⟩
        exact h
  · rw [if_neg hkind]
    exact ⟨fun _ hmem => absurd hmem hkind, fun _ => .refl s⟩

/-- **A refused header may change what is in use.**  The registered sets stay as they are.
What is in use stays as it is if and only if the sets that the header names are in use and
a picture header that has been read off a slice is the current one. -/
theorem sameUse_of_refused_iff (s : Session) (nal : Nal) :
    (∀ e, (s.readPictureHeader nal).1 = .error e →
      s.SameSets (s.readPictureHeader nal).2 ∧
        (s.SameUse (s.readPictureHeader nal).2 ↔
          (nal.header.kind = .pictureHeader → s.NamesInUse (s.readerFor nal)))) ∧
    ∀ e, (s.readSlice nal).1 = .error e →
      s.SameSets (s.readSlice nal).2 ∧
        (s.SameUse (s.readSlice nal).2 ↔
          (nal.header.kind ∈ sliceKinds → ∀ r, flag.run (s.readerFor nal) = (.ok true, r) →
            s.NamesInUse r ∧ s.ReadsCurrent nal.header.layer r)) := by
  constructor
  · intro e he
    exact ⟨(s.readPictureHeader_leavesSets nal).1.sameSets, sameUse_readPictureHeader_iff he⟩
  · intro e _
    exact ⟨(s.readSlice_leavesSets nal).1.sameSets, sameUse_readSlice_iff nal⟩

/-- The start of a picture header, without what comes behind the id of the parameter set. -/
def cutPicture : Nal where
  header := { kind := .pictureHeader, temporalIdPlus1 := 1 }
  bytes := [0x00, 0x99, 0x88]

/-- A slice that ends with the picture header that it carries. -/
def cutSlice : Nal where
  header := { kind := .idrNoLeading, temporalIdPlus1 := 1 }
  bytes := [0x00, 0x41, 0xc4, 0x00]

/-- The session in which `cutPicture` has been refused. -/
def cutOff : Session := fourSubpictures.after (.pictureHeader cutPicture)

/-- When it is refused once more, the picture header leaves no trace. -/
theorem sameUse_of_refused_cutOff :
    (cutOff.readPictureHeader cutPicture).1 = .error (.read .outOfBits) ∧
      cutOff.SameUse (cutOff.readPictureHeader cutPicture).2 := by
  have hrefused : (cutOff.readPictureHeader cutPicture).1 = .error (.read .outOfBits) := by
    decide +kernel
  have hstart : (PictureHeader.readStart.run (cutOff.readerFor cutPicture)).1.map (·.ppsId) =
      .ok 0 := by
    decide +kernel
  have hinUse : ∀ pps ∈ cutOff.pictureSets.get? 0, cutOff.activePps? = some pps ∧
      cutOff.activeSps? = cutOff.sequenceSets.get? pps.sps.id := by
    decide +kernel
  refine ⟨hrefused, (((sameUse_of_refused_iff _ cutPicture).1 _ hrefused).2).mpr fun _ => ?_⟩
  intro start r' pps hread hpps
  rw [hread] at hstart
  have hid : start.ppsId = 0 := Except.ok.inj hstart
  rw [hid] at hpps
  exact hinUse pps hpps

/-- A picture header that is refused puts sets in use, and a slice that is refused replaces
the picture header. -/
theorem refused_headers_leave_traces : fourSubpictures.Reachable ∧
    (fourSubpictures.readPictureHeader cutPicture).1 = .error (.read .outOfBits) ∧
    (fourSubpictures.readPictureHeader cutPicture).2.activeSps? ≠ fourSubpictures.activeSps? ∧
    (fourSubpictures.readPictureHeader cutPicture).2.activePps? ≠ fourSubpictures.activePps? ∧
    (fourSubpictures.readSlice cutSlice).1 = .error (.read .outOfBits) ∧
    (fourSubpictures.readSlice cutSlice).2.picture ≠ fourSubpictures.picture := by
  refine ⟨fourSubpictures_reachable, ?_⟩
  decide +kernel

end Session

end CodedVideo
