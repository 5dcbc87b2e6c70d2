import CodedVideo.Proofs.CarriedPicture
import CodedVideo.Proofs.MissingSets
import CodedVideo.Proofs.QpRange

/-!
# Decoding after a partial reset

A partial reset keeps the set in use of each kind.  But only picture and sequence parameter
sets are ever put in use, so it keeps these two and drops all video and adaptation parameter
sets, also those that the slices of the current picture refer to.

`Session.Reachable.partial_reset_resumes` says what this comes to for a slice that carries
its picture header.  It is read as before if it neither refers to an adaptation parameter set
nor has to look up how many layers it can refer to, and otherwise a set is reported missing.
-/

namespace CodedVideo

open Parse

/-- The slice header with the extent of what has been read. -/
def SliceHeader.endingAt (slice : SliceHeader) (r : BitReader) : SliceHeader :=
  { slice with bits := r.position, escapes := r.removed }

/-! ### What a reset keeps -/

namespace ParameterStore

variable {α : Type} {s : ParameterStore α}

theorem currentId_reset_of_none (h : s.currentId = none) (keeping : Bool) :
    (s.reset keeping).currentId = none := by
  cases keeping with
  | false => rfl
  | true =>
    show s.keepCurrent.currentId = none
    rw [currentId_keepCurrent, h, ite_self]

theorem get?_keepCurrent_of_none (h : s.currentId = none) (id : Nat) :
    s.keepCurrent.get? id = none := by
  rw [get?_keepCurrent, h]
  rfl

end ParameterStore

namespace Session

/-- Neither a video nor an adaptation parameter set is in use. -/
structure Unselected (s : Session) : Prop where
  videoSets : s.videoSets.currentId = none
  alfSets : s.alfSets.currentId = none
  lmcsSets : s.lmcsSets.currentId = none
  scalingListSets : s.scalingListSets.currentId = none

variable {s s' : Session}

theorem Unselected.adaptationSets (h : s.Unselected) (kind : ApsKind) :
    (s.adaptationSets kind).currentId = none := by
  cases kind with
  | alf => exact h.alfSets
  | lmcs => exact h.lmcsSets
  | scalingList => exact h.scalingListSets

theorem Unselected.setAdaptationSets (h : s.Unselected) {sets : ParameterStore Aps}
    (hsets : sets.currentId = none) (kind : ApsKind) :
    (s.setAdaptationSets sets kind).Unselected := by
  cases kind with
  | alf => exact { h with alfSets := hsets }
  | lmcs => exact { h with lmcsSets := hsets }
  | scalingList => exact { h with scalingListSets := hsets }

theorem Unselected.reset (h : s.Unselected) (keeping : Bool) : (s.reset keeping).Unselected where
  videoSets := ParameterStore.currentId_reset_of_none h.videoSets keeping
  alfSets := ParameterStore.currentId_reset_of_none h.alfSets keeping
  lmcsSets := ParameterStore.currentId_reset_of_none h.lmcsSets keeping
  scalingListSets := ParameterStore.currentId_reset_of_none h.scalingListSets keeping

theorem LeavesSets.unselected {α : Type} {r : Except ParseError α × Session} (hr : s.LeavesSets r)
    (h : s.Unselected) : r.2.Unselected := by
  obtain ⟨⟨_, _, _, hs'⟩, _⟩ := hr
  rw [hs']
  exact { h with }

/-- No request puts a video or an adaptation parameter set in use. -/
theorem Unselected.after (h : s.Unselected) (request : Request) : (s.after request).Unselected := by
  cases request with
  | operatingPoint nal =>
    refine register_updated_keeps h (fun _ _ _ => ?_) _ nal
    exact { h with }
  | videoSet nal =>
    refine register_updated_keeps h (fun _ _ hsets => ?_) _ nal
    exact { h with videoSets := hsets.currentId.trans h.videoSets }
  | sequenceSet nal =>
    refine register_updated_keeps h (fun _ _ _ => ?_) _ nal
    exact { h with }
  | pictureSet nal =>
    refine register_updated_keeps h (fun _ _ _ => ?_) _ nal
    exact { h with }
  | adaptationSet nal =>
    refine register_updated_keeps h (fun aps _ hsets => ?_) _ nal
    exact h.setAdaptationSets (hsets.currentId.trans (h.adaptationSets aps.kind)) aps.kind
  | delimiter nal => exact h
  | pictureHeader nal => exact (s.readPictureHeader_leavesSets nal).unselected h
  | slice nal => exact (s.readSlice_leavesSets nal).unselected h
  | reset keeping => exact h.reset keeping

theorem Reachable.unselected (h : s.Reachable) : s.Unselected := by
  induction h with
  | start escaped => exact ⟨rfl, rfl, rfl, rfl⟩
  | after request _ ih => exact ih.after request

/-! ### Slices that carry their picture header -/

variable {header : Nal.Header} {slice : SliceHeader} {r r' : BitReader}

/-- What a slice header holds after the start of the picture header that it carries. -/
def carriedRest (s : Session) (header : Nal.Header) (pps : Pps) (start : PictureStart) :
    Parse SliceHeader := do
  let picture ← PictureHeader.readRest pps (s.references header.layer pps) start
  let elements ← SliceHeader.read (s.contextFor header true picture pps)
  Parse.finish
  let slice := { elements with carriesPicture := true }
  SliceHeader.checkReferences s.adaptationSet? slice
  return slice

variable {pps : Pps} {start : PictureStart} {r₁ r₂ : BitReader}

/-- The context that comes of reading the picture header of a slice from its start. -/
theorem run_sliceContext_of_start (hstart : PictureHeader.readStart.run r₁ = (.ok start, r₂))
    (hpps : s.pictureSets.get? start.ppsId = some pps) :
    (sliceContext header true).run ⟨s, r₁⟩ =
      match (PictureHeader.readRest pps (s.references header.layer pps) start).run r₂ with
      | (.ok picture, r₃) => (.ok (s.contextFor header true picture pps),
          ⟨(s.activate start.ppsId pps).setPicture picture, r₃⟩)
      | (.error e, r₃) => (.error e, ⟨s.activate start.ppsId pps, r₃⟩) := by
  have hstructure : (pictureStructure header.layer).run ⟨s, r₁⟩ =
      (Step.ofParse (PictureHeader.readRest pps (s.references header.layer pps) start)).run
        ⟨s.activate start.ppsId pps, r₂⟩ := by
    unfold pictureStructure
    rw [Step.run_ofParse_bind, hstart]
    dsimp only
    rw [Step.run_bind, Step.run_pictureSet, hpps]
    rfl
  have hpicture : (pictureOfSlice header.layer true).run ⟨s, r₁⟩ =
      match (PictureHeader.readRest pps (s.references header.layer pps) start).run r₂ with
      | (.ok picture, r₃) => (.ok picture, ⟨(s.activate start.ppsId pps).setPicture picture, r₃⟩)
      | (.error e, r₃) => (.error e, ⟨s.activate start.ppsId pps, r₃⟩) := by
    unfold pictureOfSlice
    rw [if_pos rfl, Step.run_bind, hstructure, Step.run_ofParse]
    rcases (PictureHeader.readRest pps (s.references header.layer pps) start).run r₂ with
      ⟨e | picture, r₃⟩ <;> rfl
  unfold sliceContext
  rw [Step.run_bind, hpicture]
  rcases hrest : (PictureHeader.readRest pps (s.references header.layer pps) start).run r₂ with
    ⟨e | picture, r₃⟩
  · rfl
  · have hsame : picture.start = start :=
      (PictureHeader.start_readRest pps _ start).of_run (congrArg Prod.fst hrest)
    have hset : ((s.activate start.ppsId pps).setPicture picture).pictureSets.get?
        picture.start.ppsId = some pps := hsame ▸ hpps
    dsimp only
    rw [Step.run_bind, Step.run_pictureSet, hset]
    rfl

/-- Behind the start of the picture header, a slice header is read by one structure. -/
theorem run_sliceStructure_of_start (header : Nal.Header) (hflag : flag.run r = (.ok true, r₁))
    (hstart : PictureHeader.readStart.run r₁ = (.ok start, r₂))
    (hpps : s.pictureSets.get? start.ppsId = some pps) :
    ((sliceStructure header).run ⟨s, r⟩).1 =
      match (s.carriedRest header pps start).run r₂ with
      | (.ok slice, r₃) => .ok (slice.endingAt r₃)
      | (.error e, _) => .error e := by
  unfold sliceStructure sliceElements carriedRest
  simp only [bind_assoc, pure_bind]
  rw [Step.run_ofParse_bind, hflag, run_bind]
  dsimp only
  rw [Step.run_bind, run_sliceContext_of_start hstart hpps]
  rcases (PictureHeader.readRest pps (s.references header.layer pps) start).run r₂ with
    ⟨e | picture, r₃⟩
  · rfl
  dsimp only
  rw [Step.run_ofParse_bind, run_bind]
  rcases (SliceHeader.read (s.contextFor header true picture pps)).run r₃ with ⟨e | elements, r₄⟩
  · rfl
  dsimp only
  rw [Step.run_ofParse_bind, run_bind]
  rcases finish.run r₄ with ⟨e | _, r₅⟩
  · rfl
  show ((Step.ofParse (SliceHeader.checkReferences s.adaptationSet? _) >>= _).run ⟨_, r₅⟩).1 = _
  rw [Step.run_ofParse_bind]
  dsimp only
  rw [run_bind]
  rcases (SliceHeader.checkReferences s.adaptationSet? { elements with
    carriesPicture := true }).run r₅ with ⟨e | _, r₆⟩ <;> rfl

/-- A slice that carries its picture header names a set that the session keeps. -/
theorem exists_start_of_carries {reading' : Reading}
    (h : (sliceStructure header).run ⟨s, r⟩ = (.ok slice, reading'))
    (hcarries : slice.carriesPicture = true) :
    ∃ start pps r₁ r₂, flag.run r = (.ok true, r₁) ∧
      PictureHeader.readStart.run r₁ = (.ok start, r₂) ∧
      s.pictureSets.get? start.ppsId = some pps := by
  obtain ⟨elements, s₁, r', _, helements, -, -, -, rfl⟩ := run_sliceStructure_eq_ok.mp h
  obtain ⟨carried, _, hcarried, helements⟩ := Step.run_bind_eq_ok.mp helements
  obtain ⟨r₁, hflag, rfl⟩ := Step.run_ofParse_eq_ok.mp hcarried
  obtain ⟨c, _, hcontext, helements⟩ := Step.run_bind_eq_ok.mp helements
  obtain ⟨read, _, -, hpure⟩ := Step.run_bind_eq_ok.mp helements
  cases hpure
  obtain rfl : carried = true := hcarries
  obtain ⟨picture, _, hpicture, -⟩ := Step.run_bind_eq_ok.mp hcontext
  obtain ⟨_, _, hstructure, -⟩ := Step.run_bind_eq_ok.mp hpicture
  obtain ⟨start, pps, r₂, _, hstart, hpps, -, -⟩ := run_pictureStructure_eq_ok.mp hstructure
  exact ⟨start, pps, r₁, r₂, hflag, hstart, hpps⟩

/-- Afterwards this set is in use. -/
theorem pictureSets_of_start (header : Nal.Header) (hflag : flag.run r = (.ok true, r₁))
    (hstart : PictureHeader.readStart.run r₁ = (.ok start, r₂))
    (hpps : s.pictureSets.get? start.ppsId = some pps) :
    ((sliceStructure header).run ⟨s, r⟩).2.session.pictureSets =
      s.pictureSets.setCurrent start.ppsId := by
  have hnamed : s.named r₁ = s.activate start.ppsId pps := by
    unfold named
    rw [hstart]
    dsimp only
    rw [hpps]
  rw [session_sliceStructure, Step.run_ofParse_bind, hflag]
  dsimp only
  rw [session_pictureOfSlice]
  unfold carried
  rw [hnamed]
  split <;> rfl

/-! ### The slice after the reset -/

end Session

/-- Slices of the kind, or the picture headers that they carry, have reference lists for which
a video parameter set tells how many layers there are. -/
def Pps.CountsLayers (pps : Pps) (kind : Nal.Kind) : Prop :=
  pps.sps.NeedsVps ∧ (pps.inPictureHeader.lists = true ∨ kind.isIdr = false ∨
    pps.sps.references.listsInIdr = true)

instance (pps : Pps) (kind : Nal.Kind) : Decidable (pps.CountsLayers kind) :=
  inferInstanceAs (Decidable (_ ∧ _))

/-- The slice refers to picture and sequence parameter sets only. -/
structure SliceHeader.SelfContained (slice : SliceHeader) (kind : Nal.Kind) : Prop where
  not_needsAps : ¬ slice.NeedsAps
  not_countsLayers : ¬ slice.pps.CountsLayers kind

namespace Session

variable {s s' s₂ : Session} {header : Nal.Header} {pps : Pps} {start : PictureStart}
  {slice : SliceHeader} {r r' r₁ r₂ : BitReader}

/-- The session keeps neither video nor adaptation parameter sets. -/
structure Bare (s : Session) : Prop where
  videoSets : ∀ id, s.videoSets.get? id = none
  adaptationSets : ∀ kind id, s.adaptationSet? kind id = none

theorem Unselected.bare_reset (h : s.Unselected) : (s.reset true).Bare where
  videoSets := ParameterStore.get?_keepCurrent_of_none h.videoSets
  adaptationSets := fun kind id => by
    cases kind with
    | alf => exact ParameterStore.get?_keepCurrent_of_none h.alfSets id
    | lmcs => exact ParameterStore.get?_keepCurrent_of_none h.lmcsSets id
    | scalingList => exact ParameterStore.get?_keepCurrent_of_none h.scalingListSets id

theorem Bare.lacks_carriedRest (h : s₂.Bare) (s : Session) (header : Nal.Header) (pps : Pps)
    (start : PictureStart) :
    (s₂.carriedRest header pps start).Lacks (s.carriedRest header pps start) := by
  have hreferences : (s₂.references header.layer pps).Lacks (s.references header.layer pps) :=
    Sps.lacks_headerReferences h.videoSets
  refine (PictureHeader.lacks_readRest hreferences pps start).bind fun picture => ?_
  refine (SliceHeader.lacks_read hreferences (s.contextFor header true picture pps)).bind
    fun elements => (Lacks.refl _).bind fun _ => ?_
  by_cases hneeds : SliceHeader.NeedsAps { elements with carriesPicture := true }
  · obtain ⟨reference, id, hcheck⟩ :=
      SliceHeader.checkReferences_of_needsAps hneeds h.adaptationSets
    dsimp only
    rw [hcheck]
    exact fun _ => .inr ⟨reference, id, rfl⟩
  · dsimp only
    rw [SliceHeader.checkReferences_of_not_needsAps hneeds,
      SliceHeader.checkReferences_of_not_needsAps hneeds]
    exact .refl _

/-- What is read off a slice that carries its picture header. -/
theorem run_carriedRest_eq_ok :
    (s.carriedRest header pps start).run r = (.ok slice, r') ↔
      ∃ picture elements r₁ r₂,
        (PictureHeader.readRest pps (s.references header.layer pps) start).run r =
          (.ok picture, r₁) ∧
        (SliceHeader.read (s.contextFor header true picture pps)).run r₁ = (.ok elements, r₂) ∧
        finish.run r₂ = (.ok (), r') ∧
        (∀ r, (SliceHeader.checkReferences s.adaptationSet? slice).run r = (.ok (), r)) ∧
        slice = { elements with carriesPicture := true } := by
  constructor
  · intro h
    obtain ⟨picture, r₁, hrest, h⟩ := run_bind_eq_ok.mp h
    obtain ⟨elements, r₂, hread, h⟩ := run_bind_eq_ok.mp h
    obtain ⟨_, r₃, hfinish, h⟩ := run_bind_eq_ok.mp h
    obtain ⟨_, _, hcheck, h⟩ := run_bind_eq_ok.mp h
    cases h
    obtain ⟨result, hresult⟩ := (SliceHeader.quiet_checkReferences s.adaptationSet? _).run_eq
    obtain ⟨rfl, rfl⟩ := Prod.mk.inj ((hresult r₃).symm.trans hcheck)
    exact ⟨picture, elements, r₁, r₂, hrest, hread, hfinish, hresult, rfl⟩
  · rintro ⟨picture, elements, r₁, r₂, hrest, hread, hfinish, hcheck, rfl⟩
    refine run_bind_eq_ok.mpr ⟨picture, r₁, hrest, ?_⟩
    refine run_bind_eq_ok.mpr ⟨elements, r₂, hread, ?_⟩
    refine run_bind_eq_ok.mpr ⟨(), r', hfinish, ?_⟩
    exact run_bind_eq_ok.mpr ⟨(), r', hcheck r', rfl⟩

/-- What is accepted without video and adaptation parameter sets needs none. -/
theorem Bare.selfContained (h : s₂.Bare)
    (hrun : (s₂.carriedRest header pps start).run r = (.ok slice, r')) :
    slice.SelfContained header.kind := by
  obtain ⟨picture, elements, r₁, r₂, hrest, hread, -, hcheck, rfl⟩ := run_carriedRest_eq_ok.mp hrun
  have hpps : elements.pps = pps :=
    ((SliceHeader.read_against _).of_run (congrArg Prod.fst hread)).pps
  constructor
  · intro hneeds
    obtain ⟨reference, id, hmissing⟩ :=
      SliceHeader.checkReferences_of_needsAps hneeds h.adaptationSets
    rw [hmissing] at hcheck
    cases hcheck r
  · rintro ⟨hneeds, hlists⟩
    rw [show ({ elements with carriesPicture := true } : SliceHeader).pps = pps from hpps]
      at hneeds hlists
    have hnever : (s₂.references header.layer pps).Never := by
      unfold references
      rw [Sps.headerReferences_of_missing hneeds (h.videoSets _)]
      exact ensures_fail
    cases hinPicture : pps.inPictureHeader.lists with
    | true => exact (PictureHeader.readRest_never hinPicture hnever start).not_accepted hrest
    | false =>
      have hown : SliceHeader.hasLists (s₂.contextFor header true picture pps) = true := by
        unfold SliceHeader.hasLists contextFor
        simpa [hinPicture] using hlists
      exact (SliceHeader.read_never hown hnever).not_accepted hread

/-- What needs no video and no adaptation parameter sets is accepted without them. -/
theorem run_carriedRest_of_selfContained (hslice : slice.SelfContained header.kind)
    (hrun : (s.carriedRest header pps start).run r = (.ok slice, r')) (s₂ : Session) :
    (s₂.carriedRest header pps start).run r = (.ok slice, r') := by
  obtain ⟨picture, elements, r₁, r₂, hrest, hread, hfinish, -, rfl⟩ :=
    run_carriedRest_eq_ok.mp hrun
  have hpps : elements.pps = pps :=
    ((SliceHeader.read_against _).of_run (congrArg Prod.fst hread)).pps
  have hcounts : ¬ pps.CountsLayers header.kind := hpps ▸ hslice.not_countsLayers
  refine run_carriedRest_eq_ok.mpr ⟨picture, elements, r₁, r₂, ?_, ?_, hfinish, ?_, rfl⟩
  · rw [← hrest]
    by_cases hneeds : pps.sps.NeedsVps
    · have hlists : pps.inPictureHeader.lists = false := by
        by_contra hlists
        exact hcounts ⟨hneeds, .inl (Bool.eq_true_of_not_eq_false hlists)⟩
      rw [PictureHeader.readRest_of_lists hlists]
    · unfold references
      rw [Sps.headerReferences_of_not_needsVps hneeds, Sps.headerReferences_of_not_needsVps hneeds]
  · rw [← hread]
    by_cases hneeds : pps.sps.NeedsVps
    · have hown : SliceHeader.hasLists (s.contextFor header true picture pps) = false := by
        by_contra hlists
        have hlists : (!pps.inPictureHeader.lists &&
            (!header.kind.isIdr || pps.sps.references.listsInIdr)) = true :=
          Bool.eq_true_of_not_eq_false hlists
        simp only [Bool.and_eq_true, Bool.or_eq_true, Bool.not_eq_true'] at hlists
        exact hcounts ⟨hneeds, .inr hlists.2⟩
      exact congrArg (Parse.run · r₁) (SliceHeader.read_of_lists hown)
    · unfold contextFor references
      rw [Sps.headerReferences_of_not_needsVps hneeds, Sps.headerReferences_of_not_needsVps hneeds]
  · rw [SliceHeader.checkReferences_of_not_needsAps hslice.not_needsAps]
    exact fun _ => rfl

/-- **Without video and adaptation parameter sets, the same is read or a set is missing.** -/
theorem Bare.run_carriedRest (h : s₂.Bare)
    (hrun : (s.carriedRest header pps start).run r = (.ok slice, r')) :
    (slice.SelfContained header.kind →
      (s₂.carriedRest header pps start).run r = (.ok slice, r')) ∧
    (¬ slice.SelfContained header.kind → ∃ reference id,
      ((s₂.carriedRest header pps start).run r).1 = .error (.missing reference id)) := by
  refine ⟨fun hslice => run_carriedRest_of_selfContained hslice hrun s₂, fun hslice => ?_⟩
  rcases h.lacks_carriedRest s header pps start r with hsame | hmissing
  · exact absurd (h.selfContained (hsame.trans hrun)) hslice
  · exact hmissing

/-- A slice that carries its picture header is read by one structure behind the start of it. -/
theorem fst_readSlice_of_start {nal : Nal} (hkind : nal.header.kind ∈ sliceKinds)
    (hflag : flag.run (s.readerFor nal) = (.ok true, r₁))
    (hstart : PictureHeader.readStart.run r₁ = (.ok start, r₂))
    (hpps : s.pictureSets.get? start.ppsId = some pps) :
    (s.readSlice nal).1 = match (s.carriedRest nal.header pps start).run r₂ with
      | (.ok slice, r₃) => .ok (slice.endingAt r₃)
      | (.error e, _) => .error e := by
  unfold readSlice runStep checkKind
  rw [if_pos hkind]
  exact run_sliceStructure_of_start nal.header hflag hstart hpps

/-- The reset leaves no set that is not in use, and the picture parameter set that the slice
before it names. -/
theorem Reachable.reset_of_accepted (hs : s.Reachable) {nal : Nal}
    (haccepted : s.readSlice nal = (.ok slice, s')) (hcarries : slice.carriesPicture = true) :
    (s'.reset true).Bare ∧ (s'.reset true).readerFor nal = s.readerFor nal ∧
      ∃ start pps r₁ r₂, flag.run (s.readerFor nal) = (.ok true, r₁) ∧
        PictureHeader.readStart.run r₁ = (.ok start, r₂) ∧
        s.pictureSets.get? start.ppsId = some pps ∧
        (s'.reset true).pictureSets.get? start.ppsId = some pps := by
  obtain ⟨-, _, hrun⟩ := readSlice_eq_ok.mp haccepted
  obtain ⟨start, pps, r₁, r₂, hflag, hstart, hpps⟩ := exists_start_of_carries hrun hcarries
  refine ⟨?_, ?_, start, pps, r₁, r₂, hflag, hstart, hpps, ?_⟩
  · have hs' : s' = s.after (.slice nal) := (congrArg Prod.snd haccepted).symm
    rw [hs']
    exact (hs.after _).unselected.bare_reset
  · obtain ⟨_, _, _, hs'⟩ := (s.readSlice_leavesSets nal).1
    rw [haccepted] at hs'
    subst hs'
    rfl
  · have hcurrent := pictureSets_of_start nal.header hflag hstart hpps
    rw [hrun] at hcurrent
    show s'.pictureSets.keepCurrent.get? start.ppsId = some pps
    rw [show s'.pictureSets = s.pictureSets.setCurrent start.ppsId from hcurrent]
    exact (ParameterStore.get?_keepCurrent _ _).trans ((if_pos rfl).trans hpps)

/-- **After a partial reset, a slice is read again or a set is missing.** -/
theorem Reachable.partial_reset_resumes (hs : s.Reachable) {nal : Nal}
    (haccepted : s.readSlice nal = (.ok slice, s')) (hcarries : slice.carriesPicture = true) :
    (slice.SelfContained nal.header.kind → ((s'.reset true).readSlice nal).1 = .ok slice) ∧
      (¬ slice.SelfContained nal.header.kind →
        ∃ reference id, ((s'.reset true).readSlice nal).1 = .error (.missing reference id)) := by
  have hkind := (readSlice_eq_ok.mp haccepted).1
  obtain ⟨hbare, hreader, start, pps, r₁, r₂, hflag, hstart, hpps, hkept⟩ :=
    hs.reset_of_accepted haccepted hcarries
  have hfirst := fst_readSlice_of_start hkind hflag hstart hpps
  have hagain := fst_readSlice_of_start hkind (hreader ▸ hflag) hstart hkept
  rw [haccepted] at hfirst
  rw [hagain]
  rcases hrest : (s.carriedRest nal.header pps start).run r₂ with ⟨e | read, r₃⟩
  · rw [hrest] at hfirst
    cases hfirst
  · rw [hrest] at hfirst
    obtain rfl : slice = read.endingAt r₃ := Except.ok.inj hfirst
    obtain ⟨hresumes, hmissing⟩ := hbare.run_carriedRest hrest
    constructor
    · intro hslice
      rw [hresumes ⟨hslice.not_needsAps, hslice.not_countsLayers⟩]
    · intro hslice
      obtain ⟨reference, id, herror⟩ := hmissing fun hread =>
        hslice ⟨hread.not_needsAps, hread.not_countsLayers⟩
      refine ⟨reference, id, ?_⟩
      rcases hlacks : ((s'.reset true).carriedRest nal.header pps start).run r₂ with ⟨e | _, _⟩
      · rw [hlacks] at herror
        exact herror
      · rw [hlacks] at herror
        cases herror

/-- A slice of the first subpicture is read again. -/
theorem partial_reset_resumes_fourSubpictures : ∃ slice s',
    fourSubpictures.readSlice (sliceOfFirst 0x30) = (.ok slice, s') ∧
      slice.carriesPicture = true ∧
        ((s'.reset true).readSlice (sliceOfFirst 0x30)).1 = .ok slice := by
  have hcheck : (match fourSubpictures.readSlice (sliceOfFirst 0x30) with
    | (.ok slice, _) => slice.carriesPicture && !decide slice.NeedsAps &&
        !decide (slice.pps.CountsLayers .idrNoLeading)
    | _ => false) = true := by
    decide +kernel
  split at hcheck
  · rename_i slice s' hread
    simp only [Bool.and_eq_true, Bool.not_eq_true', decide_eq_false_iff_not] at hcheck
    obtain ⟨⟨hcarries, haps⟩, hlayers⟩ := hcheck
    refine ⟨slice, s', hread, hcarries, ?_⟩
    exact (fourSubpictures_reachable.partial_reset_resumes hread hcarries).1 ⟨haps, hlayers⟩
  · cases hcheck

theorem mappedLuma_reachable : mappedLuma.Reachable :=
  .after _ (.after _ (.after _ (.start false)))

/-- A slice that maps luma values is not read again, for the reset has dropped the adaptation
parameter set that it uses. -/
theorem partial_reset_drops_mapping : mappedLuma.Reachable ∧ ∃ slice s',
    mappedLuma.readSlice (idrSlice [0xc4, 0x02, 0x03]) = (.ok slice, s') ∧
      slice.carriesPicture = true ∧
        ((s'.reset true).readSlice (idrSlice [0xc4, 0x02, 0x03])).1 =
          .error (.missing .lmcsAps 0) := by
  refine ⟨mappedLuma_reachable, ?_⟩
  have hcheck : (match mappedLuma.readSlice (idrSlice [0xc4, 0x02, 0x03]) with
    | (.ok slice, s') => slice.carriesPicture &&
        decide (((s'.reset true).readSlice (idrSlice [0xc4, 0x02, 0x03])).1 =
          .error (.missing .lmcsAps 0))
    | _ => false) = true := by
    decide +kernel
  split at hcheck
  · rename_i slice s' hread
    simp only [Bool.and_eq_true, decide_eq_true_eq] at hcheck
    exact ⟨slice, s', hread, hcheck⟩
  · cases hcheck

end Session

end CodedVideo
