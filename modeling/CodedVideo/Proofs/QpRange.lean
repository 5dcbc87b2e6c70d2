import CodedVideo.Proofs.RefusedHeaders

/-!
# The QP of a slice

A QP lies between a lower bound that comes of the bit depth and 63 (`Sps.QpInRange`).  The
difference of the QP of a slice to the one that slices start from is coded in the slice
header or, if the picture parameter set says so, in the picture header, and in both cases it
is checked against the picture parameter set.

A picture parameter set may be replaced between the picture header and the slice.  Then the
difference has been checked against the old set and is added to the initial QP of the new
one, and nothing checks the sum.  `Session.Reachable.qpInRange_iff` says that this is the only
way to a QP that is out of range: a slice that carries its picture header or its own
difference has a QP in range, and so has one whose picture header has been read with a set of
the same initial QP and bit depth.
-/

namespace CodedVideo

open Parse

/-! ### Parameter sets -/

/-- The bit depth allows the QP. -/
def Sps.QpInRange (sps : Sps) (qp : Int) : Prop := sps.lowestQp ≤ qp ∧ qp ≤ maxQp

instance (sps : Sps) (qp : Int) : Decidable (sps.QpInRange qp) :=
  inferInstanceAs (Decidable (_ ∧ _))

theorem PictureQp.init_read (qpOffset : Nat) :
    (read qpOffset).Ensures fun qp => -(qpOffset : Int) ≤ qp.init ∧ qp.init ≤ maxQp := by
  have hchroma : ∀ qp, (readChroma qp).Ensures (·.initMinus26 = qp.initMinus26) := by
    simp [readChroma]
  refine .bind (.seBetween fun initMinus26 hlow hhigh => And.intro hlow hhigh) ?_
  rintro initMinus26 ⟨hlow, hhigh⟩
  have hinit : -(qpOffset : Int) ≤ 26 + initMinus26 ∧ 26 + initMinus26 ≤ maxQp := by
    unfold maxQp
    omega
  refine .andThen fun blockDelta => .andThen fun chroma => ?_
  split
  · refine (hchroma _).mono fun qp hqp => ?_
    rwa [init, hqp]
  · exact ensures_pure.mpr hinit

namespace Pps

/-- The QP that slices start from is in range. -/
def StartsInRange (pps : Pps) : Prop := pps.sps.QpInRange pps.qp.init

theorem startsInRange_readSettings (pps : Pps) : (readSettings pps).Ensures StartsInRange := by
  refine .andThen fun _ => .andThen fun _ => (PictureQp.init_read _).bind fun qp hqp => ?_
  exact .andThen fun _ => .andThen fun _ => ensures_pure.mpr hqp

theorem startsInRange_readHeaderExtensions {pps : Pps} (h : pps.StartsInRange) :
    (readHeaderExtensions pps).Ensures StartsInRange := by
  refine (readHeaderExtensions_frame pps).mono fun pps' hpps' => ?_
  rw [hpps']
  exact h

theorem startsInRange_read (spsOf : Nat → Option Sps) : (read spsOf).Ensures StartsInRange := by
  refine .withExtension ?_ fun _ _ h => h
  refine .andThen fun _ => .andThen fun _ => .andThen fun pps => ?_
  exact (startsInRange_readSettings pps).bind fun _ h => startsInRange_readHeaderExtensions h

end Pps

/-! ### Picture and slice headers -/

namespace PictureHeader

variable {pps : Pps}

theorem readQpDelta_ensures (pps : Pps) :
    (readQpDelta pps).Ensures fun delta => pps.sps.QpInRange (pps.qp.init + delta) := by
  refine .seBetween fun delta hlow hhigh => ?_
  unfold Sps.QpInRange
  omega

/-- Without a difference in the picture header, the sum is the initial QP. -/
theorem readFilters_ensures (h : pps.StartsInRange) (picture : PictureHeader) :
    (readFilters pps picture).Ensures fun picture' =>
      pps.sps.QpInRange (pps.qp.init + picture'.qpDelta) := by
  unfold readFilters
  extract_lets sps inHeader
  refine .bind (P := fun delta => pps.sps.QpInRange (pps.qp.init + delta)) ?_ fun delta hdelta => ?_
  · rw [ensures_given]
    refine ⟨fun _ => readQpDelta_ensures pps, fun _ => ?_⟩
    show pps.sps.QpInRange (pps.qp.init + 0)
    rwa [Int.add_zero]
  refine .andThen fun _ => .andThen fun _ => .andThen fun _ => .andThen fun deblockingCoded => ?_
  extract_lets withDeblocking
  have hwithDeblocking : ∀ deblocking, (withDeblocking deblocking).Ensures fun picture' =>
      pps.sps.QpInRange (pps.qp.init + picture'.qpDelta) := fun deblocking =>
    .andThen fun _ => .andThen fun _ => ensures_pure.mpr hdelta
  split
  · exact .andThen hwithDeblocking
  · exact hwithDeblocking _

theorem readRest_ensures (h : pps.StartsInRange) (references : Parse Nat) (start : PictureStart) :
    (readRest pps references start).Ensures fun picture =>
      pps.sps.QpInRange (pps.qp.init + picture.qpDelta) :=
  .andThen fun _ => .andThen fun _ => .andThen fun _ => .andThen fun _ => .andThen fun picture =>
    readFilters_ensures h picture

theorem start_readRest (pps : Pps) (references : Parse Nat) (start : PictureStart) :
    (readRest pps references start).Ensures (·.start = start) := by
  have hcount : ∀ h, (readCount pps.sps h).Ensures (·.start = h.start) := by
    cases hlength : pps.sps.headers.msbCycleLengthMinus1 <;> simp [readCount, hlength]
  have hchoices : ∀ h, (readChoices pps h).Ensures (·.start = h.start) := by simp [readChoices]
  have hscope : ∀ h, (readScope pps references h).Ensures (·.start = h.start) := by
    simp [readScope]
  have hintra : ∀ h, (readIntra pps h).Ensures (·.start = h.start) := by simp [readIntra]
  have hinter : ∀ h, (readInter pps h).Ensures (·.start = h.start) := by simp [readInter]
  have hfilters : ∀ h, (readFilters pps h).Ensures (·.start = h.start) := by simp [readFilters]
  refine (hcount _).bind fun h₁ e₁ => (hchoices h₁).bind fun h₂ e₂ => ?_
  refine (hscope h₂).bind fun h₃ e₃ => (hintra h₃).bind fun h₄ e₄ => ?_
  refine (hinter h₄).bind fun h₅ e₅ => (hfilters h₅).mono fun h₆ e₆ => ?_
  rw [e₆, e₅, e₄, e₃, e₂, e₁]
  rfl

end PictureHeader

/-- The QP has been checked, or it is what comes of the picture header. -/
def SliceQp.From (pps : Pps) (picture : PictureHeader) (qp : SliceQp) : Prop :=
  (pps.inPictureHeader.qp = true → qp.luma = pps.qp.init + picture.qpDelta) ∧
    (pps.inPictureHeader.qp = false → pps.sps.QpInRange qp.luma)

theorem SliceQp.read_ensures (pps : Pps) (picture : PictureHeader) :
    (read pps picture).Ensures (·.From pps picture) := by
  unfold read
  extract_lets inPicture
  refine .bind (P := fun delta => inPicture = false → pps.sps.QpInRange (pps.qp.init + delta)) ?_
    fun delta hdelta => .andThen fun offsets => ?_
  · rw [ensures_given]
    refine ⟨fun _ => (PictureHeader.readQpDelta_ensures pps).mono fun _ hrange _ => hrange, ?_⟩
    intro hpresent hin
    rw [hin] at hpresent
    cases hpresent
  · split
    · exact ensures_invalid
    · refine .andThen fun blockOffsets => ensures_pure.mpr ⟨fun hin => ?_, fun hin => ?_⟩
      · show pps.qp.init + (if pps.inPictureHeader.qp = true then picture.qpDelta else delta) = _
        rw [if_pos hin]
      · show pps.sps.QpInRange
          (pps.qp.init + if pps.inPictureHeader.qp = true then picture.qpDelta else delta)
        rw [if_neg (by rw [hin]; decide)]
        exact hdelta hin

namespace SliceHeader

/-- The slice has been read against these headers. -/
structure ReadAgainst (c : Context) (slice : SliceHeader) : Prop where
  picture : slice.picture = c.picture
  pps : slice.pps = c.pps
  qp : slice.qp.From c.pps c.picture

theorem readRest_against (c : Context) (start : Start) (mapped scaled : Bool) :
    (readRest c start mapped scaled).Ensures (·.ReadAgainst c) := by
  unfold readRest
  extract_lets pps sps inPicture
  refine .andThen fun lists => ?_
  extract_lets appliedLists
  refine .andThen fun active => .andThen fun motion => ?_
  refine (SliceQp.read_ensures pps c.picture).bind fun qp hqp => ?_
  refine .andThen fun saoLuma => .andThen fun saoChroma => .andThen fun deblockingCoded => ?_
  extract_lets withDeblocking
  have hwithDeblocking : ∀ deblocking, (withDeblocking deblocking).Ensures (·.ReadAgainst c) :=
    fun deblocking => .andThen fun residuals => .andThen fun extensionLength => .andThen fun _ =>
      .andThen fun ctbs => .andThen fun streams => ensures_pure.mpr ⟨rfl, rfl, hqp⟩
  split <;> exact .andThen hwithDeblocking

theorem read_against (c : Context) : (read c).Ensures (·.ReadAgainst c) :=
  .andThen fun start => .andThen fun mapped => .andThen fun scaled =>
    readRest_against c start mapped scaled

end SliceHeader

namespace Session

/-! ### Picture headers and the sets that they name -/

variable {s : Session}

/-- The picture header has been read in a session that can be reached, and `pps` was the set
that it named there. -/
def ReadWith (picture : PictureHeader) (pps : Pps) : Prop :=
  ∃ s layer r reading, Reachable s ∧ s.pictureSets.get? picture.start.ppsId = some pps ∧
    (pictureStructure layer).run ⟨s, r⟩ = (.ok picture, reading)

/-- A picture header is read against the set that it names. -/
theorem exists_readRest_of_run {layer : Nat} {r : BitReader} {picture : PictureHeader}
    {reading : Reading} (h : (pictureStructure layer).run ⟨s, r⟩ = (.ok picture, reading)) :
    ∃ pps references, s.pictureSets.get? picture.start.ppsId = some pps ∧
      (PictureHeader.readRest pps references picture.start).Gives (.ok picture) := by
  obtain ⟨start, pps, r₁, r₂, -, hpps, hrest, -⟩ := run_pictureStructure_eq_ok.mp h
  have hgives := gives_run (PictureHeader.readRest pps
    ((s.activate start.ppsId pps).references layer pps) start) r₁
  rw [hrest] at hgives
  have hstart : picture.start = start := PictureHeader.start_readRest pps _ start picture hgives
  rw [hstart]
  exact ⟨pps, _, hpps, hgives⟩

theorem Reachable.exists_readWith (hs : s.Reachable) {layer : Nat} {r : BitReader}
    {picture : PictureHeader} {reading : Reading}
    (h : (pictureStructure layer).run ⟨s, r⟩ = (.ok picture, reading)) :
    ∃ pps, s.pictureSets.get? picture.start.ppsId = some pps ∧ ReadWith picture pps := by
  obtain ⟨pps, _, hpps, -⟩ := exists_readRest_of_run h
  exact ⟨pps, hpps, s, layer, r, reading, hs, hpps, h⟩

/-! ### What a session keeps -/

/-- The sets that are kept start from a QP in range, and the picture header has been read
with one of that kind. -/
structure Ranged (s : Session) : Prop where
  pictureSets : s.pictureSets.All Pps.StartsInRange
  picture : ∀ picture, s.picture = some picture → ∃ pps, ReadWith picture pps

theorem start_ranged (escaped : Bool) : (start escaped).Ranged where
  pictureSets := fun _ _ h => by cases h
  picture := fun _ h => by cases h

/-- The session after a picture header keeps the one that has been read, or the one before. -/
theorem picture_readPictureHeader (s : Session) (nal : Nal) :
    (s.readPictureHeader nal).2.picture = s.picture ∨
      ∃ picture reading, (s.readPictureHeader nal).2.picture = some picture ∧
        (pictureStructure nal.header.layer).run ⟨s, s.readerFor nal⟩ = (.ok picture, reading) := by
  unfold readPictureHeader
  rw [session_runStep]
  by_cases hkind : nal.header.kind ∈ [Nal.Kind.pictureHeader]
  · rw [if_pos hkind]
    rcases session_separatePicture nal.header.layer s (s.readerFor nal) with
      ⟨e, -, hsession⟩ | ⟨picture, reading, hrun, -, hsession⟩
    · rw [hsession]
      exact .inl (s.picture_named _)
    · rw [hsession]
      exact .inr ⟨picture, reading, rfl, hrun⟩
  · rw [if_neg hkind]
    exact .inl rfl

/-- The session after a slice keeps the picture header that the slice carries, or the one
before. -/
theorem picture_readSlice (s : Session) (nal : Nal) :
    (s.readSlice nal).2.picture = s.picture ∨
      ∃ picture r reading, (s.readSlice nal).2.picture = some picture ∧
        (pictureStructure nal.header.layer).run ⟨s, r⟩ = (.ok picture, reading) := by
  unfold readSlice
  rw [session_runStep]
  by_cases hkind : nal.header.kind ∈ sliceKinds
  · rw [if_pos hkind, session_sliceStructure, Step.run_ofParse_bind]
    rcases flag.run (s.readerFor nal) with ⟨e | carriesPicture, r⟩
    · exact .inl rfl
    · cases carriesPicture with
      | false =>
        dsimp only
        rw [still_pictureOfSlice]
        exact .inl rfl
      | true =>
        dsimp only
        rw [session_pictureOfSlice]
        unfold carried
        rcases hrun : (pictureStructure nal.header.layer).run ⟨s, r⟩ with ⟨e | picture, reading⟩
        · exact .inl (s.picture_named r)
        · exact .inr ⟨picture, r, reading, rfl, hrun⟩
  · rw [if_neg hkind]
    exact .inl rfl

theorem Ranged.reset (h : s.Ranged) (keeping : Bool) : (s.reset keeping).Ranged where
  pictureSets := h.pictureSets.reset keeping
  picture := fun _ hpicture => by cases hpicture

/-- A header keeps the sets, and the picture header is one that has been read. -/
theorem Ranged.of_header (h : s.Ranged) (hs : s.Reachable) {s' : Session} (hsets : s.SameSets s')
    (hpicture : s'.picture = s.picture ∨
      ∃ layer r picture reading, s'.picture = some picture ∧
        (pictureStructure layer).run ⟨s, r⟩ = (.ok picture, reading)) : s'.Ranged where
  pictureSets := by
    intro id pps hpps
    rw [hsets.pictureSets] at hpps
    exact h.pictureSets id pps hpps
  picture := by
    intro picture hcurrent
    rcases hpicture with hsame | ⟨layer, r, picture', reading, hread, hrun⟩
    · rw [hsame] at hcurrent
      exact h.picture picture hcurrent
    · rw [hread] at hcurrent
      obtain rfl := Option.some.inj hcurrent
      obtain ⟨pps, -, hpps⟩ := hs.exists_readWith hrun
      exact ⟨pps, hpps⟩

theorem Ranged.after (h : s.Ranged) (hs : s.Reachable) (request : Request) :
    (s.after request).Ranged := by
  cases request with
  | operatingPoint nal =>
    refine register_insert_keeps h (ensures_of_forall fun _ => trivial) (fun _ _ _ _ => ?_) _ nal
    exact { h with }
  | videoSet nal =>
    refine register_insert_keeps h (ensures_of_forall fun _ => trivial) (fun _ _ _ _ => ?_) _ nal
    exact { h with }
  | sequenceSet nal =>
    refine register_insert_keeps h (ensures_of_forall fun _ => trivial) (fun _ _ _ _ => ?_) _ nal
    exact { h with }
  | pictureSet nal =>
    refine register_insert_keeps h (Pps.startsInRange_read _) (fun _ _ hpps hsets => ?_) _ nal
    exact { h with pictureSets := h.pictureSets.insert hpps hsets }
  | adaptationSet nal =>
    refine register_insert_keeps h (ensures_of_forall fun _ => trivial) (fun aps _ _ _ => ?_) _ nal
    cases aps.kind <;> exact { h with }
  | delimiter nal => exact h
  | pictureHeader nal =>
    refine h.of_header hs (s.readPictureHeader_leavesSets nal).1.sameSets ?_
    rcases s.picture_readPictureHeader nal with hsame | ⟨picture, reading, hpicture, hrun⟩
    · exact .inl hsame
    · exact .inr ⟨_, _, picture, reading, hpicture, hrun⟩
  | slice nal =>
    refine h.of_header hs (s.readSlice_leavesSets nal).1.sameSets ?_
    rcases s.picture_readSlice nal with hsame | ⟨picture, r, reading, hpicture, hrun⟩
    · exact .inl hsame
    · exact .inr ⟨_, r, picture, reading, hpicture, hrun⟩
  | reset keeping => exact h.reset keeping

theorem Reachable.ranged (h : s.Reachable) : s.Ranged := by
  induction h with
  | start escaped => exact start_ranged escaped
  | after request hs ih => exact ih.after hs request

/-- The difference in a picture header fits the set that the header has been read with. -/
theorem ReadWith.qpInRange {picture : PictureHeader} {pps : Pps} (h : ReadWith picture pps) :
    pps.sps.QpInRange (pps.qp.init + picture.qpDelta) := by
  obtain ⟨s, layer, r, reading, hs, hpps, hrun⟩ := h
  obtain ⟨pps', references, hpps', hgives⟩ := exists_readRest_of_run hrun
  obtain rfl := Option.some.inj (hpps'.symm.trans hpps)
  have hstarts : pps'.StartsInRange := hs.ranged.pictureSets _ _ hpps
  exact PictureHeader.readRest_ensures hstarts references _ picture hgives

/-! ### Slices -/

/-- The picture header of a slice is the current one, or it has been read with the set that
the slice is read with. -/
theorem exists_of_sliceContext {header : Nal.Header} {carriesPicture : Bool} {r : BitReader}
    {c : SliceHeader.Context} {reading : Reading}
    (h : (sliceContext header carriesPicture).run ⟨s, r⟩ = (.ok c, reading)) :
    c.kind = header.kind ∧ (carriesPicture = false → s.picture = some c.picture) ∧
      (carriesPicture = true → s.pictureSets.get? c.picture.start.ppsId = some c.pps ∧
        ∃ reading', (pictureStructure header.layer).run ⟨s, r⟩ = (.ok c.picture, reading')) := by
  obtain ⟨picture, ⟨s₁, r₁⟩, hpicture, h⟩ := Step.run_bind_eq_ok.mp h
  obtain ⟨pps, _, hrunPps, h⟩ := Step.run_bind_eq_ok.mp h
  obtain ⟨hpps, rfl⟩ := Step.run_pictureSet_eq_ok.mp hrunPps
  obtain ⟨_, _, ⟨⟩, ⟨⟩⟩ := Step.run_bind_eq_ok.mp h
  refine ⟨rfl, fun hcarries => ?_, fun hcarries => ?_⟩
  · subst hcarries
    obtain ⟨_, _, ⟨⟩, hfound⟩ := Step.run_bind_eq_ok.mp hpicture
    obtain ⟨r₂, hfound, -⟩ := Step.run_ofParse_eq_ok.mp hfound
    have hcurrent : (ofReference .pictureHeader 0 s.picture).Ensures (s.picture = some ·) :=
      ensures_ofReference.mpr fun _ hpicture => hpicture
    exact hcurrent.of_run (congrArg Prod.fst hfound)
  · subst hcarries
    obtain ⟨picture', reading', hrun, hset⟩ := Step.run_bind_eq_ok.mp hpicture
    obtain ⟨_, _, ⟨⟩, ⟨⟩⟩ := Step.run_bind_eq_ok.mp hset
    have hsession : reading'.session = s.named r := by
      rw [← session_pictureStructure header.layer, hrun]
    have hpps : reading'.session.pictureSets.get? picture.start.ppsId = some pps := hpps
    rw [hsession, get?_named] at hpps
    exact ⟨hpps, reading', hrun⟩

/-- An accepted slice has been read against some context. -/
theorem exists_read_of_readSlice {nal : Nal} {slice : SliceHeader} {s' : Session}
    (h : s.readSlice nal = (.ok slice, s')) :
    ∃ c r reading read,
      (sliceContext nal.header slice.carriesPicture).run ⟨s, r⟩ = (.ok c, reading) ∧
      (SliceHeader.read c).Gives (.ok read) ∧
      slice = { read with
        carriesPicture := slice.carriesPicture, bits := slice.bits, escapes := slice.escapes } := by
  obtain ⟨-, _, hrun⟩ := readSlice_eq_ok.mp h
  obtain ⟨elements, _, _, _, helements, -, -, -, rfl⟩ := run_sliceStructure_eq_ok.mp hrun
  obtain ⟨carriesPicture, _, hflag, helements⟩ := Step.run_bind_eq_ok.mp helements
  obtain ⟨r₁, -, rfl⟩ := Step.run_ofParse_eq_ok.mp hflag
  obtain ⟨c, ⟨s₂, r₂⟩, hcontext, helements⟩ := Step.run_bind_eq_ok.mp helements
  obtain ⟨read, _, hread, ⟨⟩⟩ := Step.run_bind_eq_ok.mp helements
  obtain ⟨r₃, hread, -⟩ := Step.run_ofParse_eq_ok.mp hread
  have hgives := gives_run (SliceHeader.read c) r₂
  rw [hread] at hgives
  exact ⟨c, r₁, _, read, hcontext, hgives, rfl⟩

theorem against_of_readSlice {nal : Nal} {slice : SliceHeader} {s' : Session}
    (h : s.readSlice nal = (.ok slice, s')) :
    slice.qp.From slice.pps slice.picture ∧
      (slice.carriesPicture = false → s.picture = some slice.picture) ∧
      (slice.carriesPicture = true →
        s.pictureSets.get? slice.picture.start.ppsId = some slice.pps ∧
          ∃ r reading,
            (pictureStructure nal.header.layer).run ⟨s, r⟩ = (.ok slice.picture, reading)) := by
  obtain ⟨c, r, reading, read, hcontext, hread, hslice⟩ := exists_read_of_readSlice h
  obtain ⟨-, hcurrent, hcarried⟩ := exists_of_sliceContext hcontext
  have hagainst : read.ReadAgainst c := SliceHeader.read_against c read hread
  have hpicture : slice.picture = c.picture := by rw [hslice, ← hagainst.picture]
  have hpps : slice.pps = c.pps := by rw [hslice, ← hagainst.pps]
  have hqp : slice.qp = read.qp := by rw [hslice]
  rw [hpicture, hpps, hqp]
  exact ⟨hagainst.qp, hcurrent, fun hcarries => ⟨(hcarried hcarries).1, r, (hcarried hcarries).2⟩⟩

/-- **The QP of a slice is in range unless a set has been replaced.**  A slice that takes the
difference of its QP from a picture header of its own, or has the difference itself, has a QP
in range.  One that takes it from an earlier picture header has a QP in range if and only if
the sum is, and that is so if the set that the picture header has been read with has the same
initial QP and allows no lower QPs. -/
theorem Reachable.qpInRange_iff (hs : s.Reachable) {nal : Nal} {slice : SliceHeader}
    (h : (s.readSlice nal).1 = .ok slice) :
    (slice.pps.sps.QpInRange slice.qp.luma ↔
      (slice.pps.inPictureHeader.qp = true → slice.carriesPicture = false →
        slice.pps.sps.QpInRange (slice.pps.qp.init + slice.picture.qpDelta))) ∧
    ∃ pps, ReadWith slice.picture pps ∧ (slice.carriesPicture = true → pps = slice.pps) ∧
      (pps.qp.init = slice.pps.qp.init → slice.pps.sps.lowestQp ≤ pps.sps.lowestQp →
        slice.pps.sps.QpInRange slice.qp.luma) := by
  obtain ⟨⟨hsum, hchecked⟩, hcurrent, hcarried⟩ := against_of_readSlice (Prod.ext h rfl)
  have hwith : ∃ pps, ReadWith slice.picture pps ∧
      (slice.carriesPicture = true → pps = slice.pps) := by
    cases hcarries : slice.carriesPicture with
    | false =>
      obtain ⟨pps, hpps⟩ := hs.ranged.picture _ (hcurrent hcarries)
      refine ⟨pps, hpps, ?_⟩
      rintro ⟨⟩
    | true =>
      obtain ⟨hfound, r, reading, hrun⟩ := hcarried hcarries
      obtain ⟨pps, hpps, hreadWith⟩ := hs.exists_readWith hrun
      exact ⟨pps, hreadWith, fun _ => Option.some.inj (hpps.symm.trans hfound)⟩
  obtain ⟨pps, hreadWith, hsame⟩ := hwith
  -- The sum is in range for the set that the picture header has been read with.
  have hfits := hreadWith.qpInRange
  cases hin : slice.pps.inPictureHeader.qp with
  | false =>
    have hrange := hchecked hin
    refine ⟨⟨fun _ => ?_, fun _ => hrange⟩, pps, hreadWith, hsame, fun _ _ => hrange⟩
    rintro ⟨⟩
  | true =>
    rw [hsum hin]
    refine ⟨⟨fun hrange _ _ => hrange, fun hrange => ?_⟩, pps, hreadWith, hsame, ?_⟩
    · cases hcarries : slice.carriesPicture with
      | false => exact hrange rfl hcarries
      | true =>
        rw [hsame hcarries] at hfits
        exact hfits
    · intro hinit hlowest
      rw [hinit] at hfits
      exact ⟨hlowest.trans hfits.1, hfits.2⟩

/-- A session with a picture header whose QP difference takes the initial QP of its set, 26,
to the largest one. -/
def announced : Session :=
  (start false).after (.sequenceSet {
      header := { kind := .sps, temporalIdPlus1 := 1 }
      bytes := [0x00, 0x79, 0x00, 0x09, 0x02, 0x33, 0x80, 0x00, 0x00, 0x82, 0x04, 0x11, 0x88, 0x02,
        0xf6, 0xc3, 0xe0, 0x30, 0x10, 0x40, 0x00, 0x10] })
    |>.after (.pictureSet {
      header := { kind := .pps, temporalIdPlus1 := 1 }
      bytes := [0x00, 0x81, 0x00, 0x00, 0x41, 0x02, 0x08, 0x0d, 0x29, 0x84, 0x08, 0x80] })
    |>.after (.pictureHeader {
      header := { kind := .pictureHeader, temporalIdPlus1 := 1 }
      bytes := [0x00, 0x99, 0x88, 0x00, 0x12, 0xa0] })

/-- A slice with neither a picture header nor a QP difference of its own. -/
def sliceOfCurrent : Nal where
  header := { kind := .idrNoLeading, temporalIdPlus1 := 1 }
  bytes := [0x00, 0x41, 0x20]

theorem announced_reachable : announced.Reachable :=
  .after _ (.after _ (.after _ (.start false)))

theorem qpInRange_announced : ∃ slice, (announced.readSlice sliceOfCurrent).1 = .ok slice ∧
    slice.pps.inPictureHeader.qp = true ∧ slice.carriesPicture = false ∧
    slice.pps.sps.QpInRange slice.qp.luma := by
  have hcheck : (match (announced.readSlice sliceOfCurrent).1 with
    | .ok slice => slice.pps.inPictureHeader.qp && !slice.carriesPicture &&
        decide (slice.pps.sps.QpInRange (slice.pps.qp.init + slice.picture.qpDelta))
    | .error _ => false) = true := by
    decide +kernel
  split at hcheck
  · rename_i slice hslice
    simp only [Bool.and_eq_true, Bool.not_eq_true', decide_eq_true_eq] at hcheck
    obtain ⟨⟨hin, hcarries⟩, hsum⟩ := hcheck
    have hiff := (announced_reachable.qpInRange_iff hslice).1
    exact ⟨slice, hslice, hin, hcarries, hiff.mpr fun _ _ => hsum⟩
  · cases hcheck

/-- The session after the set has been replaced by one with the initial QP 63. -/
def replaced : Session :=
  announced.after (.pictureSet {
    header := { kind := .pps, temporalIdPlus1 := 1 }
    bytes := [0x00, 0x81, 0x00, 0x00, 0x41, 0x02, 0x08, 0x0d, 0x29, 0x80, 0x12, 0x80, 0x88] })

/-- The same slice is accepted with the QP 63 + 37. -/
theorem qp_out_of_range_replaced : replaced.Reachable ∧ ∃ slice,
    (replaced.readSlice sliceOfCurrent).1 = .ok slice ∧ slice.qp.luma = 100 ∧
      ¬ slice.pps.sps.QpInRange slice.qp.luma := by
  refine ⟨.after _ announced_reachable, ?_⟩
  have hcheck : (match (replaced.readSlice sliceOfCurrent).1 with
    | .ok slice => slice.qp.luma == 100 && !decide (slice.pps.sps.QpInRange slice.qp.luma)
    | .error _ => false) = true := by
    decide +kernel
  split at hcheck
  · rename_i slice hslice
    simp only [Bool.and_eq_true, beq_iff_eq, Bool.not_eq_true', decide_eq_false_iff_not] at hcheck
    exact ⟨slice, hslice, hcheck.1, hcheck.2⟩
  · cases hcheck

end Session

end CodedVideo
