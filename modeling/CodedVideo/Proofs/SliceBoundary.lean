import CodedVideo.Proofs.Passing
import CodedVideo.Proofs.Reachable

/-!
# Where a slice header ends

A slice header ends on a byte boundary, and the slice data follow.  `SliceHeader.bits`
counts the bits of the header without emulation prevention bytes, and
`SliceHeader.escapes` counts those that were dropped.  So the two together say how many
bytes of the payload the header takes, and the header depends on no byte behind them
(`Session.readSlice_local`).
-/

namespace CodedVideo

open Parse BitReader

/-! ### Steps -/

namespace Session.Step

variable {α β : Type}

theorem run_bind_eq_ok {p : Step α} {f : α → Step β} {value : β} {reading reading' : Reading} :
    (p >>= f).run reading = (.ok value, reading') ↔
      ∃ a reading₁, p.run reading = (.ok a, reading₁) ∧
        (f a).run reading₁ = (.ok value, reading') := by
  rw [run_bind]
  rcases p.run reading with ⟨e | a, reading₁⟩
  · constructor
    · rintro ⟨⟩
    · rintro ⟨_, _, ⟨⟩, _⟩
  · constructor
    · intro h
      exact ⟨a, reading₁, rfl, h⟩
    · rintro ⟨_, _, ⟨⟩, h⟩
      exact h

theorem run_ofParse (content : Parse α) (s : Session) (r : BitReader) :
    (ofParse content).run ⟨s, r⟩ = ((content.run r).1, ⟨s, (content.run r).2⟩) := rfl

theorem run_ofParse_bind (content : Parse α) (f : α → Step β) (s : Session) (r : BitReader) :
    (ofParse content >>= f).run ⟨s, r⟩ = match content.run r with
      | (.ok a, r') => (f a).run ⟨s, r'⟩
      | (.error e, r') => (.error e, ⟨s, r'⟩) := by
  rw [run_bind, run_ofParse]
  rcases content.run r with ⟨e | a, _⟩ <;> rfl

theorem run_ofParse_eq_ok {content : Parse α} {s : Session} {r : BitReader} {value : α}
    {reading' : Reading} :
    (ofParse content).run ⟨s, r⟩ = (.ok value, reading') ↔
      ∃ r', content.run r = (.ok value, r') ∧ reading' = ⟨s, r'⟩ := by
  rw [run_ofParse]
  rcases content.run r with ⟨result, r'⟩
  constructor
  · rintro ⟨⟩
    exact ⟨r', rfl, rfl⟩
  · rintro ⟨_, ⟨⟩, rfl⟩
    rfl

theorem run_pictureSet (id : Nat) (s : Session) (r : BitReader) :
    (pictureSet id).run ⟨s, r⟩ =
      (match s.pictureSets.get? id with
        | some pps => .ok pps
        | none => .error (.missing .pps id), ⟨s, r⟩) := by
  have hrun : (pictureSet id).run ⟨s, r⟩ =
      (ofParse (ofReference .pps id (s.pictureSets.get? id))).run ⟨s, r⟩ := rfl
  rw [hrun, run_ofParse]
  cases s.pictureSets.get? id with
  | none => rfl
  | some pps => rfl

theorem run_pictureSet_eq_ok {id : Nat} {pps : Pps} {s : Session} {r : BitReader}
    {reading' : Reading} :
    (pictureSet id).run ⟨s, r⟩ = (.ok pps, reading') ↔
      s.pictureSets.get? id = some pps ∧ reading' = ⟨s, r⟩ := by
  rw [run_pictureSet]
  cases s.pictureSets.get? id with
  | none =>
    constructor
    · rintro ⟨⟩
    · rintro ⟨⟨⟩, _⟩
  | some found =>
    constructor
    · rintro ⟨⟩
      exact ⟨rfl, rfl⟩
    · rintro ⟨⟨⟩, rfl⟩
      rfl

/-- What is accepted has been read off the bytes passed over, and would have been in any
payload that has these. -/
def Local (step : Step α) : Prop :=
  ∀ ⦃s s₁ : Session⦄ ⦃r r₁ : BitReader⦄ ⦃value : α⦄, r.Balanced →
    step.run ⟨s, r⟩ = (.ok value, ⟨s₁, r₁⟩) →
    r₁.Balanced ∧ ∃ passed, Passes r r₁ passed ∧
      ∀ tail size, r.size + passed.length ≤ size + r.bytes.length →
        step.run ⟨s, r.graft (passed ++ tail) size⟩ = (.ok value, ⟨s₁, r₁.graft tail size⟩)

theorem local_ofParse {content : Parse α} (h : content.Local) : (ofParse content).Local := by
  intro s s₁ r r₁ value hr hrun
  obtain ⟨_, hrun, ⟨⟩⟩ := run_ofParse_eq_ok.mp hrun
  obtain ⟨hr₁, passed, hpassed, hgraft⟩ := h hr hrun
  refine ⟨hr₁, passed, hpassed, fun tail size hsize => ?_⟩
  exact run_ofParse_eq_ok.mpr ⟨_, hgraft tail size hsize, rfl⟩

theorem local_of_within {content : Parse α}
    (h : content.Within fun feature => feature ≠ .moreData ∧ feature ≠ .skipData) :
    (ofParse content).Local :=
  local_ofParse (Parse.local_of_within h)

theorem local_pure (a : α) : (pure a : Step α).Local := by
  intro s s₁ r r₁ _ hr hrun
  cases hrun
  exact ⟨hr, [], .refl r, fun _ _ _ => rfl⟩

theorem local_update (f : Session → Session) : (update f).Local := by
  intro s s₁ r r₁ _ hr hrun
  cases hrun
  exact ⟨hr, [], .refl r, fun _ _ _ => rfl⟩

theorem local_session : session.Local := by
  intro s s₁ r r₁ _ hr hrun
  cases hrun
  exact ⟨hr, [], .refl r, fun _ _ _ => rfl⟩

theorem Local.bind_of_keeps {F : Feature → Prop} {Q : α → Prop} {p : Step α} {f : α → Step β}
    (hp : p.Local) (hQ : p.Keeps (fun _ => True) F Q) (hf : ∀ a, Q a → (f a).Local) :
    (p >>= f).Local := by
  intro s s₂ r r₂ value hr hrun
  obtain ⟨a, ⟨s₁, r₁⟩, hrunFront, hrunBack⟩ := run_bind_eq_ok.mp hrun
  obtain ⟨hr₁, front, hfront, hfrontGraft⟩ := hp hr hrunFront
  obtain ⟨hr₂, back, hback, hbackGraft⟩ := hf a (hQ.of_run trivial hrunFront) hr₁ hrunBack
  refine ⟨hr₂, front ++ back, hfront.trans hback, fun tail size hsize => ?_⟩
  have hbytes := congrArg List.length hfront.bytes
  rw [List.length_append] at hbytes hsize
  rw [List.append_assoc]
  refine run_bind_eq_ok.mpr ⟨a, _, hfrontGraft (back ++ tail) size (by omega), ?_⟩
  refine hbackGraft tail size ?_
  rw [hfront.size]
  omega

theorem Local.bind {p : Step α} {f : α → Step β} (hp : p.Local) (hf : ∀ a, (f a).Local) :
    (p >>= f).Local :=
  hp.bind_of_keeps (keeps_true p) fun a _ => hf a

theorem local_pictureSet (id : Nat) : (pictureSet id).Local :=
  local_session.bind fun _ => local_of_within within_ofReference

end Session.Step

namespace Session

/-- A picture header names a set that is there, and is read with it. -/
theorem run_pictureStructure_eq_ok {layer : Nat} {s : Session} {r : BitReader}
    {picture : PictureHeader} {reading' : Reading} :
    (pictureStructure layer).run ⟨s, r⟩ = (.ok picture, reading') ↔
      ∃ start pps r₁ r₂, PictureHeader.readStart.run r = (.ok start, r₁) ∧
        s.pictureSets.get? start.ppsId = some pps ∧
        (PictureHeader.readRest pps ((s.activate start.ppsId pps).references layer pps) start).run
          r₁ = (.ok picture, r₂) ∧
        reading' = ⟨s.activate start.ppsId pps, r₂⟩ := by
  constructor
  · intro h
    obtain ⟨start, _, hrunStart, h⟩ := Step.run_bind_eq_ok.mp h
    obtain ⟨r₁, hstart, rfl⟩ := Step.run_ofParse_eq_ok.mp hrunStart
    obtain ⟨pps, _, hrunPps, h⟩ := Step.run_bind_eq_ok.mp h
    obtain ⟨hpps, rfl⟩ := Step.run_pictureSet_eq_ok.mp hrunPps
    obtain ⟨_, _, ⟨⟩, h⟩ := Step.run_bind_eq_ok.mp h
    obtain ⟨_, _, ⟨⟩, h⟩ := Step.run_bind_eq_ok.mp h
    obtain ⟨r₂, hrest, rfl⟩ := Step.run_ofParse_eq_ok.mp h
    exact ⟨start, pps, r₁, r₂, hstart, hpps, hrest, rfl⟩
  · rintro ⟨start, pps, r₁, r₂, hstart, hpps, hrest, rfl⟩
    refine Step.run_bind_eq_ok.mpr ⟨start, _, Step.run_ofParse_eq_ok.mpr ⟨r₁, hstart, rfl⟩, ?_⟩
    refine Step.run_bind_eq_ok.mpr ⟨pps, _, Step.run_pictureSet_eq_ok.mpr ⟨hpps, rfl⟩, ?_⟩
    refine Step.run_bind_eq_ok.mpr ⟨(), _, rfl, ?_⟩
    refine Step.run_bind_eq_ok.mpr ⟨_, _, rfl, ?_⟩
    exact Step.run_ofParse_eq_ok.mpr ⟨r₂, hrest, rfl⟩

theorem local_pictureStructure (layer : Nat) : (pictureStructure layer).Local := by
  refine (Step.local_of_within PictureHeader.within_readStart).bind fun start => ?_
  refine (Step.local_pictureSet start.ppsId).bind fun pps => ?_
  refine (Step.local_update _).bind fun _ => Step.local_session.bind fun s => ?_
  exact Step.local_of_within
    (PictureHeader.within_readRest pps (Sps.within_headerReferences _ _ _) start)

theorem local_pictureOfSlice (layer : Nat) (carried : Bool) :
    (pictureOfSlice layer carried).Local := by
  unfold pictureOfSlice
  cases carried with
  | true =>
    exact (local_pictureStructure layer).bind fun picture =>
      (Step.local_update _).bind fun _ => Step.local_pure picture
  | false => exact Step.local_session.bind fun _ => Step.local_of_within within_ofReference

theorem local_sliceContext (header : Nal.Header) (carriesPicture : Bool) :
    (sliceContext header carriesPicture).Local := by
  refine (local_pictureOfSlice header.layer carriesPicture).bind fun picture => ?_
  exact (Step.local_pictureSet picture.start.ppsId).bind fun pps =>
    Step.local_session.bind fun s => Step.local_pure _

theorem local_sliceElements (header : Nal.Header) : (sliceElements header).Local := by
  refine (Step.local_of_within within_flag).bind fun carriesPicture => ?_
  refine (local_sliceContext header carriesPicture).bind_of_keeps
    (F := fun feature => feature ≠ .moreData ∧ feature ≠ .skipData)
    (keeps_sliceContext (P := fun _ => True) ⟨fun _ _ _ => trivial, fun _ _ => trivial⟩
      (fun _ _ _ _ _ => trivial) header carriesPicture) fun c hc => ?_
  refine (Step.local_of_within (SliceHeader.within_read (by decide) hc.2)).bind fun slice => ?_
  exact Step.local_pure _

end Session

/-! ### Whole slice headers -/

namespace SliceHeader

variable (apsOf : ApsKind → Nat → Option Aps)

@[simp] theorem quiet_checkFilters (id : Nat) (needs : AlfFilters → Bool)
    (lacking : Nat → Fault) : (checkFilters apsOf id needs lacking).Quiet := by
  simp [checkFilters]

@[simp] theorem quiet_checkLumaFilters (ids : List Nat) :
    (checkLumaFilters apsOf ids).Quiet := by
  induction ids with
  | nil => simp [checkLumaFilters]
  | cons id rest ih => simp [checkLumaFilters, ih]

@[simp] theorem quiet_checkAlf (alf : AlfChoice) : (checkAlf apsOf alf).Quiet := by
  cases hcb : alf.crossCb <;> cases hcr : alf.crossCr <;> simp [checkAlf, hcb, hcr]

theorem quiet_checkReferences (slice : SliceHeader) : (checkReferences apsOf slice).Quiet := by
  simp [checkReferences]

end SliceHeader

namespace Session

/-- A slice header is its elements and the end of a payload, provided that the sets which
it refers to are there. -/
theorem run_sliceStructure_eq_ok {header : Nal.Header} {reading reading' : Reading}
    {slice : SliceHeader} :
    (sliceStructure header).run reading = (.ok slice, reading') ↔
      ∃ elements s₁ r₁ r₂, (sliceElements header).run reading = (.ok elements, ⟨s₁, r₁⟩) ∧
        finish.run r₁ = (.ok (), r₂) ∧
        (∀ r, (SliceHeader.checkReferences s₁.adaptationSet? elements).run r = (.ok (), r)) ∧
        reading' = ⟨s₁, r₂⟩ ∧
        slice = { elements with bits := r₂.position, escapes := r₂.removed } := by
  constructor
  · intro h
    obtain ⟨elements, ⟨s₁, r₁⟩, helements, h⟩ := Step.run_bind_eq_ok.mp h
    obtain ⟨_, _, hend, h⟩ := Step.run_bind_eq_ok.mp h
    obtain ⟨r₂, hfinish, rfl⟩ := Step.run_ofParse_eq_ok.mp hend
    obtain ⟨_, _, ⟨⟩, h⟩ := Step.run_bind_eq_ok.mp h
    obtain ⟨_, _, hchecked, h⟩ := Step.run_bind_eq_ok.mp h
    obtain ⟨_, hcheck, rfl⟩ := Step.run_ofParse_eq_ok.mp hchecked
    obtain ⟨result, hresult⟩ :=
      (SliceHeader.quiet_checkReferences s₁.adaptationSet? elements).run_eq
    obtain ⟨rfl, rfl⟩ := Prod.mk.inj ((hresult r₂).symm.trans hcheck)
    cases h
    exact ⟨elements, s₁, r₁, r₂, helements, hfinish, hresult, rfl, rfl⟩
  · rintro ⟨elements, s₁, r₁, r₂, helements, hfinish, hcheck, rfl, rfl⟩
    refine Step.run_bind_eq_ok.mpr ⟨elements, _, helements, ?_⟩
    refine Step.run_bind_eq_ok.mpr ⟨(), _, Step.run_ofParse_eq_ok.mpr ⟨r₂, hfinish, rfl⟩, ?_⟩
    refine Step.run_bind_eq_ok.mpr ⟨s₁, _, rfl, ?_⟩
    refine Step.run_bind_eq_ok.mpr
      ⟨(), _, Step.run_ofParse_eq_ok.mpr ⟨r₂, hcheck r₂, rfl⟩, ?_⟩
    rfl

theorem readSlice_eq_ok {s s' : Session} {nal : Nal} {slice : SliceHeader} :
    s.readSlice nal = (.ok slice, s') ↔ nal.header.kind ∈ sliceKinds ∧
      ∃ r', (sliceStructure nal.header).run ⟨s, s.readerFor nal⟩ = (.ok slice, ⟨s', r'⟩) := by
  unfold readSlice runStep checkKind
  by_cases hmem : nal.header.kind ∈ sliceKinds
  · rw [if_pos hmem]
    rcases hrun : (sliceStructure nal.header).run ⟨s, s.readerFor nal⟩ with ⟨result, s₁, r₁⟩
    constructor
    · rintro ⟨⟩
      exact ⟨hmem, r₁, rfl⟩
    · rintro ⟨_, r', ⟨⟩⟩
      rfl
  · rw [if_neg hmem]
    constructor
    · rintro ⟨⟩
    · rintro ⟨hkind, _⟩
      exact absurd hkind hmem

/-- What is known of the reader when a slice header has been accepted. -/
theorem ends_of_run_sliceStructure {header : Nal.Header} {s s' : Session} {r r₂ : BitReader}
    {slice : SliceHeader} (hr : r.Balanced)
    (h : (sliceStructure header).run ⟨s, r⟩ = (.ok slice, ⟨s', r₂⟩)) :
    r₂.Balanced ∧ r₂.left = 0 ∧ slice.bits = r₂.position ∧ slice.escapes = r₂.removed ∧
      ∃ passed, Passes r r₂ passed ∧
        ∀ tail size, r.size + passed.length ≤ size + r.bytes.length →
          (sliceStructure header).run ⟨s, r.graft (passed ++ tail) size⟩ =
            (.ok slice, ⟨s', r₂.graft tail size⟩) := by
  obtain ⟨elements, s₁, r₁, r₂, helements, hfinish, hcheck, ⟨⟩, rfl⟩ :=
    run_sliceStructure_eq_ok.mp h
  obtain ⟨hr₁, front, hfront, hfrontGraft⟩ := local_sliceElements header hr helements
  have hend : finish.Local := Parse.local_of_within (within_finish (by decide) (by decide))
  obtain ⟨hr₂, back, hback, hbackGraft⟩ := hend hr₁ hfinish
  have hleft : r₂.left = 0 := by
    obtain ⟨r', hflag, rfl⟩ := (run_finish_eq_ok hr₁).mp hfinish
    have hr' := (Parse.local_of_within within_flag hr₁ hflag).1
    exact (align_passes hr').2.1
  refine ⟨hr₂, hleft, rfl, rfl, front ++ back, hfront.trans hback, fun tail size hsize => ?_⟩
  have hbytes := congrArg List.length hfront.bytes
  have hsame := hfront.size
  rw [List.length_append] at hbytes hsize
  rw [List.append_assoc]
  exact run_sliceStructure_eq_ok.mpr ⟨elements, _, _, _,
    hfrontGraft (back ++ tail) size (by omega), hbackGraft tail size (by omega), hcheck, rfl, rfl⟩

/-- An accepted slice header is read off the bytes at the start of the payload, whatever
comes behind them. -/
theorem passed_of_readSlice {s s' : Session} {nal : Nal} {slice : SliceHeader}
    (h : s.readSlice nal = (.ok slice, s')) :
    ∃ passed data, nal.payload = passed ++ data ∧
      slice.bits = 8 * (payload s.escaped 0 passed).length ∧
      slice.escapes + (payload s.escaped 0 passed).length = passed.length ∧
      ∀ (nal' : Nal) (data' : List UInt8), nal'.header = nal.header →
        nal'.payload = passed ++ data' → s.readSlice nal' = (.ok slice, s') := by
  obtain ⟨hkind, r₂, hrun⟩ := readSlice_eq_ok.mp h
  obtain ⟨hr₂, hleft, hbits, hescapes, passed, hpassed, hgraft⟩ :=
    ends_of_run_sliceStructure (balanced_ofBytes s.escaped nal.payload) hrun
  have hbytes : nal.payload = passed ++ r₂.bytes := hpassed.bytes
  have hremoved : r₂.removed + (payload s.escaped 0 passed).length = 0 + passed.length :=
    hpassed.removed
  have hsize : r₂.size = nal.payload.length := hpassed.size
  have htotal := hr₂.total
  have hlength := congrArg List.length hbytes
  rw [List.length_append] at hlength
  refine ⟨passed, r₂.bytes, hbytes, by omega, by omega, fun nal' data' hheader hpayload => ?_⟩
  have hroom : nal.payload.length + passed.length ≤ nal'.payload.length + nal.payload.length := by
    rw [hpayload, List.length_append]
    omega
  have hrun' := hgraft data' nal'.payload.length hroom
  rw [← hpayload, ← hheader] at hrun'
  exact readSlice_eq_ok.mpr ⟨hheader ▸ hkind, _, hrun'⟩

theorem escapes_eq_zero {s s' : Session} {nal : Nal} {slice : SliceHeader}
    (hplain : s.escaped = false) (h : s.readSlice nal = (.ok slice, s')) : slice.escapes = 0 := by
  obtain ⟨passed, _, _, _, hescapes, _⟩ := passed_of_readSlice h
  rw [hplain, payload_unescaped] at hescapes
  omega

/-- **A slice header takes a whole number of bytes and depends on no others.** -/
theorem readSlice_local {s s' : Session} {nal : Nal} {slice : SliceHeader}
    (h : s.readSlice nal = (.ok slice, s')) :
    8 ∣ slice.bits ∧
      slice.bits / 8 + slice.escapes ≤ nal.payload.length ∧
      (payload s.escaped 0 (nal.payload.take (slice.bits / 8 + slice.escapes))).length =
        slice.bits / 8 ∧
      (s.escaped = false → slice.escapes = 0) ∧
      ∀ nal' : Nal, nal'.header = nal.header →
        nal'.payload.take (slice.bits / 8 + slice.escapes) =
          nal.payload.take (slice.bits / 8 + slice.escapes) →
        s.readSlice nal' = (.ok slice, s') := by
  obtain ⟨passed, data, hpayload, hbits, hescapes, hsame⟩ := passed_of_readSlice h
  have hcount : slice.bits / 8 + slice.escapes = passed.length := by omega
  rw [hcount, hpayload, List.take_left' rfl, List.length_append]
  refine ⟨⟨_, hbits⟩, by omega, by omega, fun hplain => escapes_eq_zero hplain h, ?_⟩
  intro nal' hheader htake
  refine hsame nal' (nal'.payload.drop passed.length) hheader ?_
  calc nal'.payload = nal'.payload.take passed.length ++ nal'.payload.drop passed.length :=
        (List.take_append_drop _ _).symm
    _ = passed ++ nal'.payload.drop passed.length := by rw [htake]

/-- A session with a picture parameter set for pictures of four subpictures.  The bytes of
its sequence parameter set that vary are the one with the number of low bits of order
counts and the one with the choice of filters. -/
def withSubpictures (escaped : Bool) (counts filters : UInt8) : Session :=
  (start escaped).after (.sequenceSet {
      header := { kind := .sps, temporalIdPlus1 := 1 }
      bytes := [0x00, 0x79, 0x00, 0x09, 0x02, 0x33, 0x00, 0x00, 0x00, 0x40, 0x80, 0x81, 0x48, 0x29,
        0x0a, 0x12, 0x94, 0x23, counts, 0x1e, 0xd8, 0x7c, filters, 0x02, 0x08, 0x00, 0x02] })
    |>.after (.pictureSet {
      header := { kind := .pps, temporalIdPlus1 := 1 }
      bytes := [0x00, 0x81, 0x00, 0x00, 0x20, 0x40, 0x40, 0x80, 0x49, 0x24, 0x91, 0xda, 0xad, 0x4c,
        0x20, 0x04] })

/-- Order counts have sixteen low bits. -/
def longCounts : Session := withSubpictures true 0xf0 0x06

/-- A slice of an IDR picture with order count zero, in front of some data. -/
def sliceBefore (data : List UInt8) : Nal where
  header := { kind := .idrNoLeading, temporalIdPlus1 := 1 }
  bytes := [0x00, 0x41, 0xc4, 0x00, 0x00, 0x03, 0x30] ++ data

theorem readSlice_local_longCounts : ∃ slice s', slice.bits = 32 ∧ slice.escapes = 1 ∧
    ∀ data, longCounts.readSlice (sliceBefore data) = (.ok slice, s') := by
  have hcheck : (match (longCounts.readSlice (sliceBefore [])).1 with
    | .ok slice => slice.bits == 32 && slice.escapes == 1
    | .error _ => false) = true := by
    decide +kernel
  rcases hread : longCounts.readSlice (sliceBefore []) with ⟨e | slice, s'⟩
  · rw [hread] at hcheck
    cases hcheck
  · rw [hread] at hcheck
    obtain ⟨hbits, hescapes⟩ := Bool.and_eq_true_iff.mp hcheck
    rw [beq_iff_eq] at hbits hescapes
    refine ⟨slice, s', hbits, hescapes, fun data => ?_⟩
    refine (readSlice_local hread).2.2.2.2 (sliceBefore data) rfl ?_
    rw [hbits, hescapes]
    rfl

end Session

end CodedVideo
