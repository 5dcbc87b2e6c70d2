import CodedVideo.Proofs.HeaderFeatures
import CodedVideo.Proofs.Slots

/-!
# What reading a header keeps

Headers are read in steps that may fail halfway and still leave the session changed.
There are two such changes: a picture parameter set is put in use, and a picture header
becomes the current one.  `Session.Stable` says of an invariant that it survives both.

`Step.Keeps` says that a step keeps an invariant in any case, that what it yields
satisfies a predicate, and that it is refused for the given features only.  The rules
below lead from the parts of a header to whole NAL units (`runStep_keeps`).
-/

namespace CodedVideo

open Parse

/-- Every set in the store satisfies `P`. -/
def ParameterStore.All {α : Type} (P : α → Prop) (s : ParameterStore α) : Prop :=
  ∀ id set, s.get? id = some set → P set

namespace Session

variable {I : Session → Prop} {F : Feature → Prop}

namespace Step

variable {α β : Type}

theorem run_bind (p : Step α) (f : α → Step β) (reading : Reading) :
    (p >>= f).run reading = match p.run reading with
      | (.ok a, reading) => (f a).run reading
      | (.error e, reading) => (.error e, reading) := by
  rw [ExceptT.run_bind]
  show StateT.bind p.run _ reading = _
  unfold StateT.bind
  rcases p.run reading with ⟨e | a, _⟩ <;> rfl

/-- The session still satisfies `I`, what is yielded satisfies `Q`, and only features in
`F` are the reason for a refusal. -/
def Keeps (I : Session → Prop) (F : Feature → Prop) (step : Step α) (Q : α → Prop) : Prop :=
  ∀ reading : Reading, I reading.session →
    I (step.run reading).2.session ∧
      match (step.run reading).1 with
      | .ok a => Q a
      | .error e => ∀ fault, e = .invalid fault → ∀ feature ∈ fault.feature?, F feature

variable {Q : α → Prop}

theorem Keeps.bind {R : β → Prop} {p : Step α} {f : α → Step β} (hp : p.Keeps I F Q)
    (hf : ∀ a, Q a → (f a).Keeps I F R) : (p >>= f).Keeps I F R := by
  intro reading hs
  have h := hp reading hs
  rw [run_bind]
  revert h
  rcases p.run reading with ⟨e | a, reading'⟩
  · exact fun h => h
  · exact fun h => hf a h.2 reading' h.1

/-- There is nothing to keep. -/
theorem keeps_true (step : Step α) : step.Keeps (fun _ => True) (fun _ => True) fun _ => True := by
  intro reading _
  refine ⟨trivial, ?_⟩
  split
  · trivial
  · exact fun _ _ _ _ => trivial

theorem Keeps.of_run {step : Step α} (h : step.Keeps I F Q) {reading reading' : Reading} {a : α}
    (hI : I reading.session) (hrun : step.run reading = (.ok a, reading')) : Q a := by
  have hkeeps := (h reading hI).2
  rwa [hrun] at hkeeps

theorem keeps_pure {a : α} (h : Q a) : (pure a : Step α).Keeps I F Q := fun _ hs => ⟨hs, h⟩

theorem keeps_ofParse {content : Parse α} (hensures : content.Ensures Q)
    (hwithin : content.Within F) : (ofParse content).Keeps I F Q := by
  intro reading hs
  refine ⟨hs, ?_⟩
  show match (content.run reading.reader).1 with
    | .ok a => Q a
    | .error e => ∀ fault, e = .invalid fault → ∀ feature ∈ fault.feature?, F feature
  split
  · rename_i hrun
    exact hensures.of_run hrun
  · rename_i hrun
    rintro fault rfl
    exact hwithin.of_run hrun

theorem keeps_ofParse_true {content : Parse α} (hwithin : content.Within F) :
    (ofParse content).Keeps I F fun _ => True :=
  keeps_ofParse (ensures_of_forall fun _ => trivial) hwithin

theorem keeps_update {f : Session → Session} (h : ∀ s : Session, I s → I (f s)) :
    (update f).Keeps I F fun _ => True :=
  fun reading hs => ⟨h reading.session hs, trivial⟩

theorem keeps_session : session.Keeps I F I := fun _ hs => ⟨hs, hs⟩

theorem keeps_extent : extent.Keeps I F fun _ => True := fun _ hs => ⟨hs, trivial⟩

theorem keeps_pictureSet {P : Pps → Prop} (hP : ∀ s : Session, I s → s.pictureSets.All P)
    (id : Nat) : (pictureSet id).Keeps I F P :=
  keeps_session.bind fun s hs =>
    keeps_ofParse (ensures_ofReference.mpr fun pps hpps => hP s hs id pps hpps) within_ofReference

end Step

/-! ### Picture and slice headers -/

/-- Headers keep the invariant. -/
structure Stable (I : Session → Prop) : Prop where
  activate : ∀ {s : Session}, I s → ∀ id pps, I (s.activate id pps)
  setPicture : ∀ {s : Session}, I s → ∀ picture, I (s.setPicture picture)

theorem keeps_pictureStructure (hI : Stable I) (layer : Nat) :
    (pictureStructure layer).Keeps I F fun _ => True := by
  refine (Step.keeps_ofParse_true PictureHeader.within_readStart).bind fun start _ => ?_
  refine (Step.keeps_pictureSet (P := fun _ => True) (fun _ _ _ _ _ => trivial) start.ppsId).bind
    fun pps _ => ?_
  refine (Step.keeps_update (I := I) fun s hs => hI.activate hs start.ppsId pps).bind fun _ _ => ?_
  refine Step.keeps_session.bind fun s _ => Step.keeps_ofParse_true ?_
  exact PictureHeader.within_readRest pps (Sps.within_headerReferences _ _ _) start

theorem keeps_setPicture (hI : Stable I) (picture : PictureHeader) :
    (Step.update (setPicture picture)).Keeps I F fun _ => True :=
  Step.keeps_update fun _ hs => hI.setPicture hs picture

theorem keeps_pictureOfSlice (hI : Stable I) (layer : Nat) (carried : Bool) :
    (pictureOfSlice layer carried).Keeps I F fun _ => True := by
  unfold pictureOfSlice
  split
  · refine (keeps_pictureStructure hI layer).bind fun picture _ => ?_
    exact (keeps_setPicture hI picture).bind fun _ _ => Step.keeps_pure trivial
  · exact Step.keeps_session.bind fun _ _ => Step.keeps_ofParse_true within_ofReference

variable {P : Pps → Prop}

theorem keeps_sliceContext (hI : Stable I) (hP : ∀ s : Session, I s → s.pictureSets.All P)
    (header : Nal.Header) (carriesPicture : Bool) :
    (sliceContext header carriesPicture).Keeps I F fun c =>
      P c.pps ∧ c.references.Within F := by
  refine (keeps_pictureOfSlice hI header.layer carriesPicture).bind fun picture _ => ?_
  refine (Step.keeps_pictureSet hP picture.start.ppsId).bind fun pps hpps => ?_
  exact Step.keeps_session.bind fun s _ =>
    Step.keeps_pure ⟨hpps, Sps.within_headerReferences _ _ _⟩

theorem keeps_finish (halign : F .align) (hoverrun : F .checkOverrun) :
    (Step.ofParse finish).Keeps I F fun _ => True :=
  Step.keeps_ofParse_true (within_finish halign hoverrun)

theorem keeps_separatePicture (hI : Stable I) (halign : F .align) (hoverrun : F .checkOverrun)
    (layer : Nat) : (separatePicture layer).Keeps I F fun _ => True := by
  refine (keeps_pictureStructure hI layer).bind fun picture _ => ?_
  refine (keeps_finish halign hoverrun).bind fun _ _ => ?_
  exact (keeps_setPicture hI picture).bind fun _ _ => Step.keeps_pure trivial

theorem keeps_sliceStructure (hI : Stable I) (hP : ∀ s : Session, I s → s.pictureSets.All P)
    (halign : F .align) (hoverrun : F .checkOverrun) {Q : SliceHeader → Prop}
    (hread : ∀ c : SliceHeader.Context, P c.pps → c.references.Within F →
      (SliceHeader.read c).Within F)
    (hyields : ∀ c : SliceHeader.Context, P c.pps → (SliceHeader.read c).Ensures Q)
    (hupdate : ∀ slice carriesPicture bits escapes, Q slice →
      Q { slice with carriesPicture, bits, escapes }) (header : Nal.Header) :
    (sliceStructure header).Keeps I F Q := by
  have helements : (sliceElements header).Keeps I F Q := by
    refine (Step.keeps_ofParse_true within_flag).bind fun carriesPicture _ => ?_
    refine (keeps_sliceContext hI hP header carriesPicture).bind fun c hc => ?_
    refine (Step.keeps_ofParse (hyields c hc.1) (hread c hc.1 hc.2)).bind fun slice hslice => ?_
    exact Step.keeps_pure (hupdate slice carriesPicture slice.bits slice.escapes hslice)
  refine helements.bind fun slice hslice => ?_
  refine (keeps_finish halign hoverrun).bind fun _ _ => ?_
  refine Step.keeps_session.bind fun s _ => ?_
  refine (Step.keeps_ofParse_true (SliceHeader.within_checkReferences _ _)).bind fun _ _ => ?_
  refine Step.keeps_extent.bind fun extent _ => ?_
  exact Step.keeps_pure (hupdate slice slice.carriesPicture extent.1 extent.2 hslice)

/-- What a step keeps is kept by reading a NAL unit, of whatever kind it is. -/
theorem runStep_keeps {α : Type} {Q : α → Prop} {step : Step α} (hstep : step.Keeps I F Q)
    {s : Session} (h : I s) (expected : List Nal.Kind) (nal : Nal) :
    I (s.runStep expected step nal).2 ∧
      match (s.runStep expected step nal).1 with
      | .ok a => Q a
      | .error e => ∀ fault, e = .invalid fault → ∀ feature ∈ fault.feature?, F feature := by
  unfold runStep checkKind
  split
  · rename_i e hkind
    split at hkind
    · cases hkind
    · cases hkind
      refine ⟨h, fun fault hfault feature hfeature => ?_⟩
      cases hfault
      cases hfeature
  · exact hstep _ h

end Session

end CodedVideo
