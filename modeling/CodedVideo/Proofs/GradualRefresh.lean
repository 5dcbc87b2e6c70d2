import CodedVideo.Proofs.CarriedPicture
import CodedVideo.Proofs.QpRange

/-!
# Slices of gradual decoding refreshes

Decoding can start at a picture of a gradual refresh, but unlike an IRAP picture it may
predict from other pictures.  The kinds of NAL units are grouped by their codes, and the one
of gradual refreshes lies in the range of the IRAP kinds.  So its slices are treated as those
of an IRAP picture: they may predict from other layers, and otherwise they have to be intra
slices.

This is the only difference to a trailing slice, apart from the flag that tells whether the
pictures before are dropped without output (`SliceHeader.read_gdr`).
`Session.gradual_refresh_slices` says what comes of inserting this flag into an accepted
trailing slice: the same header in a gradual refresh, or a refusal because of the type.
-/

namespace CodedVideo

open Parse

/-! ### Structures as a monad -/

namespace Parse

variable {α β : Type}

theorem bind_done (p : Parse α) : p.bind done = p := by
  induction p with
  | done value | fail error => rfl
  | bits count next ih | moreData next ih | align next ih | position next ih =>
    simp only [Parse.bind, ih]
  | skipData next ih | checkOverrun next ih => simp only [Parse.bind, ih]

theorem bind_bind {γ : Type} (p : Parse α) (f : α → Parse β) (g : β → Parse γ) :
    (p.bind f).bind g = p.bind fun a => (f a).bind g := by
  induction p with
  | done value | fail error => rfl
  | bits count next ih | moreData next ih | align next ih | position next ih =>
    simp only [Parse.bind, ih]
  | skipData next ih | checkOverrun next ih => simp only [Parse.bind, ih]

instance : LawfulMonad Parse :=
  LawfulMonad.mk' Parse (fun p => bind_done p) (fun _ _ => rfl) fun p f g => bind_bind p f g

theorem Reads.ensures {p : Parse α} {Q : α → Prop} {bits : List Bool} {value : α}
    (h : p.Reads bits value) (hp : p.Ensures Q) : Q value := by
  obtain ⟨r, rest, hr⟩ := BitReader.exists_unread bits
  obtain ⟨_, hrun, -⟩ := h r rest hr
  exact hp.of_run (congrArg Prod.fst hrun)

end Parse

/-! ### The elements after the picture header -/

namespace SliceHeader

variable {c : Context}

/-- The header with another answer to whether pictures before are dropped without output. -/
def withNoOutput (b : Bool) (slice : SliceHeader) : SliceHeader :=
  { slice with noOutputOfPrior := b }

theorem readRest_withNoOutput (c : Context) (start : Start) (mapped scaled b : Bool) :
    readRest c { start with noOutputOfPrior := b } mapped scaled =
      withNoOutput b <$> readRest c start mapped scaled := by
  unfold readRest
  simp only [map_bind]
  refine bind_congr fun lists => bind_congr fun active => bind_congr fun motion => ?_
  refine bind_congr fun qp => bind_congr fun saoLuma => bind_congr fun saoChroma => ?_
  refine bind_congr fun deblockingCoded => ?_
  split <;> simp only [map_bind, map_pure] <;> rfl

/-- Reads where the slice lies and its type. -/
def readPlaceType (c : Context) : Parse (SlicePlace × SliceType) := do
  let place ← SlicePlace.read c.pps
  let type ← readType c
  return (place, type)

/-- Reads what comes behind the flag for pictures before. -/
def readBehindFlag (c : Context) (front : SlicePlace × SliceType) (noOutputOfPrior : Bool) :
    Parse SliceHeader := do
  let alf ← Parse.given (hasAlf c) (AlfChoice.read c.pps.sps.hasChroma c.pps.sps.filters.ccAlf)
  let mapped ← readUse c c.picture.mapping.isSome
  let scaled ← readUse c c.picture.scalingLists.isSome
  readRest c { place := front.1, type := front.2, noOutputOfPrior, alf } mapped scaled

theorem read_eq (c : Context) : read c = (do
    let front ← readPlaceType c
    let noOutputOfPrior ← Parse.flagIf (c.kind.isIdr || c.kind == .cra || c.kind == .gdr)
    readBehindFlag c front noOutputOfPrior) := by
  simp only [read, readStart, readPlaceType, readBehindFlag, bind_assoc, pure_bind]

theorem readBehindFlag_withNoOutput (c : Context) (front : SlicePlace × SliceType) (b : Bool) :
    readBehindFlag c front b = withNoOutput b <$> readBehindFlag c front false := by
  unfold readBehindFlag
  simp only [map_bind]
  refine bind_congr fun alf => bind_congr fun mapped => bind_congr fun scaled => ?_
  exact readRest_withNoOutput c ⟨front.1, front.2, false, alf⟩ mapped scaled b

/-- The context for a NAL unit of another kind. -/
def Context.ofKind (c : Context) (kind : Nal.Kind) : Context := { c with kind }

theorem readPlaceType_gdr (c : Context) : readPlaceType (c.ofKind .gdr) = (do
    let front ← readPlaceType (c.ofKind .trail)
    Parse.refuseIf (!c.pps.sps.references.interLayer && front.2 != .i)
      (.interSliceInIrap front.2)
    return front) := by
  have htype : readType (c.ofKind .gdr) = (do
      let type ← readType (c.ofKind .trail)
      Parse.refuseIf (!c.pps.sps.references.interLayer && type != .i) (.interSliceInIrap type)
      return type) := by
    unfold readType
    by_cases hinter : c.picture.start.interSlices = true <;>
      simp only [Context.ofKind, hinter, if_true, if_false, Bool.false_eq_true, bind_assoc,
        pure_bind] <;> rfl
  simp only [readPlaceType, htype, bind_assoc, pure_bind]
  rfl

theorem read_trail (c : Context) : read (c.ofKind .trail) = (do
    let front ← readPlaceType (c.ofKind .trail)
    readBehindFlag (c.ofKind .trail) front false) :=
  read_eq _

/-- All that makes a difference between the two kinds. -/
theorem read_gdr (c : Context) : read (c.ofKind .gdr) = (do
    let front ← readPlaceType (c.ofKind .trail)
    Parse.refuseIf (!c.pps.sps.references.interLayer && front.2 != .i)
      (.interSliceInIrap front.2)
    let b ← Parse.flag
    withNoOutput b <$> readBehindFlag (c.ofKind .trail) front false) := by
  rw [read_eq, readPlaceType_gdr]
  simp only [bind_assoc, pure_bind]
  refine bind_congr fun front => bind_congr fun _ => bind_congr fun b => ?_
  exact readBehindFlag_withNoOutput (c.ofKind .gdr) front b

theorem type_readBehindFlag (c : Context) (front : SlicePlace × SliceType) (b : Bool) :
    (readBehindFlag c front b).Ensures (·.type = front.2) := by
  have hrest : ∀ start mapped scaled, (readRest c start mapped scaled).Ensures
      (·.type = start.type) := by
    simp [readRest]
  exact .andThen fun _ => .andThen fun _ => .andThen fun _ => hrest _ _ _

theorem within_readBehindFlag (hreferences : c.references.Within (· = .place))
    (front : SlicePlace × SliceType) (b : Bool) :
    (readBehindFlag c front b).Within (· = .place) :=
  Within.bind (by simp) fun _ => (within_readUse c _).bind fun _ => (within_readUse c _).bind
    fun _ => within_readRest hreferences (SlicePlace.within_ctbs (F := (· = .place)) rfl _ _) _ _

theorem within_readPlaceType (c : Context) : (readPlaceType c).Within (· = .place) := by
  simp [readPlaceType]

variable {bits front back : List Bool} {placeType : SlicePlace × SliceType} {slice : SliceHeader}

/-- The bits of a trailing slice come apart where the flag would be. -/
theorem exists_readPlaceType (hreferences : c.references.Within (· = .place))
    (h : (read (c.ofKind .trail)).Reads bits slice) :
    ∃ placeType front back, (readPlaceType (c.ofKind .trail)).Reads front placeType ∧
      bits = front ++ back := by
  rw [read_trail] at h
  obtain ⟨placeType, front, back, hfront, -, hbits⟩ := h.of_bind (within_readPlaceType _)
    fun placeType => within_readBehindFlag (c := c.ofKind .trail) hreferences placeType false
  exact ⟨placeType, front, back, hfront, hbits⟩

theorem reads_readBehindFlag (hreferences : c.references.Within (· = .place))
    (hfront : (readPlaceType (c.ofKind .trail)).Reads front placeType)
    (h : (read (c.ofKind .trail)).Reads (front ++ back) slice) :
    (readBehindFlag (c.ofKind .trail) placeType false).Reads back slice := by
  rw [read_trail] at h
  have hback := h.of_bind_of_reads (within_readPlaceType _)
    (fun placeType => within_readBehindFlag (c := c.ofKind .trail) hreferences placeType false)
    hfront
  exact hback

/-- With the flag inserted, the same is read in a gradual refresh. -/
theorem reads_gdr (hreferences : c.references.Within (· = .place))
    (hfront : (readPlaceType (c.ofKind .trail)).Reads front placeType)
    (h : (read (c.ofKind .trail)).Reads (front ++ back) slice)
    (hallowed : placeType.2 = .i ∨ c.pps.sps.references.interLayer = true) (b : Bool) :
    (read (c.ofKind .gdr)).Reads (front ++ b :: back) (slice.withNoOutput b) := by
  have hback := reads_readBehindFlag hreferences hfront h
  have hrefuse : (!c.pps.sps.references.interLayer && placeType.2 != .i) = false := by
    rcases hallowed with htype | hlayers
    · simp [htype]
    · simp [hlayers]
  rw [read_gdr]
  refine hfront.bind ((reads_refuseIf hrefuse _).bind_left ?_)
  exact (reads_flag b).bind (hback.bind_right (reads_pure _))

/-- A slice that predicts from other pictures is refused as soon as its type is known. -/
theorem run_gdr_of_inter (hfront : (readPlaceType (c.ofKind .trail)).Reads front placeType)
    (htype : placeType.2 ≠ .i) (hlayers : c.pps.sps.references.interLayer = false)
    {r : BitReader} {rest : List Bool} (hr : r.unread = front ++ rest) :
    ∃ r', (read (c.ofKind .gdr)).run r =
      (.error (.invalid (.interSliceInIrap placeType.2)), r') := by
  obtain ⟨r', hrun, -⟩ := hfront r rest hr
  refine ⟨r', ?_⟩
  have hrefuse : (!c.pps.sps.references.interLayer && placeType.2 != .i) = true := by
    simp [hlayers, htype]
  rw [read_gdr, run_bind_of_ok hrun, hrefuse]
  rfl

end SliceHeader

/-! ### NAL units -/

namespace Session

open SliceHeader (readPlaceType)

variable {s s₁ s' : Session} {nal trail gdr : Nal} {content content' : List Bool}
  {slice : SliceHeader}

/-- The bits `content` are those of a slice header, and `content'` has `b` inserted behind the
place and the type of the slice. -/
def InsertsFlag (s : Session) (header : Nal.Header) (b : Bool) (content content' : List Bool) :
    Prop :=
  ∃ carried picture pictureBits s₁ pps placeType front back,
    (pictureOfSlice header.layer carried).Takes s pictureBits picture s₁ ∧
    s₁.pictureSets.get? picture.start.ppsId = some pps ∧
    (readPlaceType (s₁.contextFor header carried picture pps)).Reads front placeType ∧
    content = carried :: pictureBits ++ (front ++ back) ∧
    content' = carried :: pictureBits ++ (front ++ b :: back)

/-- The picture header of a slice takes the bits that it has been read off. -/
theorem exists_takes_pictureOfSlice {layer : Nat} {carried : Bool} {r r' : BitReader}
    {picture : PictureHeader}
    (h : (pictureOfSlice layer carried).run ⟨s, r⟩ = (.ok picture, ⟨s', r'⟩)) :
    ∃ bits, r.unread = bits ++ r'.unread ∧
      (pictureOfSlice layer carried).Takes s bits picture s' := by
  cases carried with
  | true =>
    obtain ⟨_, ⟨s₁, r₁⟩, hstructure, hset⟩ := Step.run_bind_eq_ok.mp h
    obtain ⟨bits, hbits, htakes⟩ := exists_takes_of_run hstructure
    cases hset
    exact ⟨bits, hbits, takes_carried htakes⟩
  | false =>
    obtain ⟨_, _, ⟨⟩, hreference⟩ := Step.run_bind_eq_ok.mp h
    obtain ⟨_, hrun, hreading⟩ := Step.run_ofParse_eq_ok.mp hreference
    cases hpicture : s.picture with
    | none =>
      rw [hpicture] at hrun
      cases hrun
    | some found =>
      rw [hpicture] at hrun
      cases hrun
      cases hreading
      exact ⟨[], rfl, takes_separate layer hpicture⟩

/-- An accepted slice header is a flag, the bits of a picture header if the flag is set, and
what comes behind. -/
theorem AcceptsSlice.exists_takes (hplain : s.escaped = false)
    (h : s.AcceptsSlice nal content slice s') :
    ∃ carried picture pictureBits back,
      (pictureOfSlice nal.header.layer carried).Takes s pictureBits picture s' ∧
      content = carried :: pictureBits ++ back := by
  obtain ⟨rest, hunread⟩ := exists_unread_readerFor hplain h.carries
  obtain ⟨-, r₂, hrun⟩ := readSlice_eq_ok.mp h.accepted
  obtain ⟨elements, _, r₁, _, helements, -, -, ⟨⟩, -⟩ := run_sliceStructure_eq_ok.mp hrun
  obtain ⟨carried, ⟨_, r₀⟩, hcarried, hcontext⟩ := Step.run_bind_eq_ok.mp helements
  obtain ⟨_, hflag, ⟨⟩⟩ := Step.run_ofParse_eq_ok.mp hcarried
  obtain ⟨_, _, hcontext, -⟩ := Step.run_bind_eq_ok.mp hcontext
  obtain ⟨picture, ⟨s₁, r₃⟩, hpicture, -⟩ := Step.run_bind_eq_ok.mp hcontext
  obtain ⟨pictureBits, hpictureBits, htakes⟩ := exists_takes_pictureOfSlice hpicture
  have hfirst : (s.readerFor nal).unread = carried :: pictureBits ++ r₃.unread := by
    obtain ⟨first, more, hmore⟩ : ∃ first more, content ++ true :: rest = first :: more := by
      cases content with
      | nil => exact ⟨_, _, rfl⟩
      | cons first more => exact ⟨first, _, rfl⟩
    rw [hmore] at hunread
    obtain ⟨_, hflag', hunread', -⟩ := reads_flag first _ more hunread
    rw [hflag] at hflag'
    cases hflag'
    rw [hunread, ← hunread', hpictureBits]
    rfl
  obtain ⟨rfl, _, _, consumed, -, -, hconsumed, hposition, -⟩ :=
    exists_reads_of_sliceElements htakes hfirst helements
  refine ⟨carried, picture, pictureBits, consumed, htakes, ?_⟩
  have hends := h.ends
  rw [helements] at hends
  have hlength : content.length = (carried :: pictureBits ++ consumed).length := by
    rw [← hends, hposition]
    exact Nat.zero_add _
  rw [hunread, hconsumed, ← List.append_assoc] at hfirst
  exact (List.append_inj hfirst hlength).1

/-- Slices of a layer are read against the same, but for the kind. -/
theorem contextFor_eq_ofKind {header header' : Nal.Header} {kind : Nal.Kind}
    (hkind : header'.kind = kind) (hlayer : header'.layer = header.layer) (s : Session)
    (carried : Bool) (picture : PictureHeader) (pps : Pps) :
    s.contextFor header' carried picture pps =
      (s.contextFor header carried picture pps).ofKind kind := by
  unfold contextFor
  rw [hkind, hlayer]
  rfl

theorem AcceptsSlice.exists_insertsFlag (hplain : s.escaped = false)
    (htrail : trail.header.kind = .trail) (h : s.AcceptsSlice trail content slice s') (b : Bool) :
    ∃ content', s.InsertsFlag trail.header b content content' := by
  obtain ⟨carried, picture, pictureBits, bits, htakes, rfl⟩ := h.exists_takes hplain
  obtain ⟨-, pps, elements, hbody, -⟩ := h.exists_readsBody hplain htakes
  have hcontext := contextFor_eq_ofKind htrail rfl s' carried picture pps
  have hreads := hbody.reads
  rw [hcontext] at hreads
  obtain ⟨placeType, front, back, hfront, rfl⟩ :=
    SliceHeader.exists_readPlaceType (s'.within_references trail.header.layer pps) hreads
  rw [← hcontext] at hfront
  exact ⟨_, carried, picture, pictureBits, s', pps, placeType, front, back, htakes,
    hbody.pictureSet, hfront, rfl, rfl⟩

variable {carried : Bool} {picture : PictureHeader} {pps : Pps} {elements : SliceHeader}
  {front back : List Bool} {placeType : SlicePlace × SliceType}

/-- What has been read tells the type and the picture parameter set. -/
theorem ReadsBody.against (htrail : trail.header.kind = .trail)
    (h : s.ReadsBody trail.header carried picture pps (front ++ back) elements)
    (hfront : (readPlaceType (s.contextFor trail.header carried picture pps)).Reads front
      placeType) : elements.type = placeType.2 ∧ elements.pps = pps := by
  refine ⟨?_, (h.reads.ensures (SliceHeader.read_against _)).pps⟩
  have hreads := h.reads
  rw [contextFor_eq_ofKind htrail rfl s carried picture pps] at hreads hfront
  have hback := SliceHeader.reads_readBehindFlag (s.within_references trail.header.layer pps)
    hfront hreads
  exact hback.ensures (SliceHeader.type_readBehindFlag _ _ _)

/-- With the flag inserted, the elements are those of a slice of a gradual refresh. -/
theorem ReadsBody.gradual (htrail : trail.header.kind = .trail) (hgdr : gdr.header.kind = .gdr)
    (hlayer : gdr.header.layer = trail.header.layer)
    (h : s.ReadsBody trail.header carried picture pps (front ++ back) elements)
    (hfront : (readPlaceType (s.contextFor trail.header carried picture pps)).Reads front
      placeType)
    (hallowed : placeType.2 = .i ∨ pps.sps.references.interLayer = true) (b : Bool) :
    s.ReadsBody gdr.header carried picture pps (front ++ b :: back) (elements.withNoOutput b) := by
  refine ⟨h.pictureSet, ?_, h.references⟩
  have hreads := h.reads
  rw [contextFor_eq_ofKind htrail rfl s carried picture pps] at hreads hfront
  rw [contextFor_eq_ofKind hgdr hlayer s carried picture pps]
  exact SliceHeader.reads_gdr (s.within_references trail.header.layer pps) hfront hreads hallowed b

/-- In a gradual refresh, a slice that predicts from other pictures of its layer is refused. -/
theorem readSlice_gradual_of_inter (hplain : s.escaped = false)
    (htrail : trail.header.kind = .trail) (hgdr : gdr.header.kind = .gdr)
    (hlayer : gdr.header.layer = trail.header.layer)
    {pictureBits bits : List Bool}
    (htakes : (pictureOfSlice trail.header.layer carried).Takes s pictureBits picture s')
    (hpps : s'.pictureSets.get? picture.start.ppsId = some pps)
    (hfront : (readPlaceType (s'.contextFor trail.header carried picture pps)).Reads front
      placeType)
    (htype : placeType.2 ≠ .i) (hlayers : pps.sps.references.interLayer = false)
    (hcarries : gdr.Carries (carried :: pictureBits ++ (front ++ bits))) :
    s.readSlice gdr = (.error (.invalid (.interSliceInIrap placeType.2)), s') := by
  obtain ⟨rest, hunread⟩ := exists_unread_readerFor hplain hcarries
  have hfirst : (s.readerFor gdr).unread = [carried] ++ (pictureBits ++ (front ++ (bits ++
      true :: rest))) := by
    rw [hunread]
    simp only [List.cons_append, List.nil_append, List.append_assoc]
  rw [contextFor_eq_ofKind htrail rfl s' carried picture pps] at hfront
  rw [← hlayer] at htakes
  have hcontext := takes_sliceContext htakes hpps
  rw [contextFor_eq_ofKind hgdr hlayer s' carried picture pps] at hcontext
  -- The header is read as far as the type of the slice.
  obtain ⟨r₀, hflag, hunread₀, -⟩ := Step.takes_ofParse (reads_flag carried) s hfirst
  obtain ⟨r₁, hcontext, hunread₁, -⟩ := hcontext hunread₀
  obtain ⟨r₂, hread⟩ := SliceHeader.run_gdr_of_inter hfront htype hlayers hunread₁
  have hrun : (sliceStructure gdr.header).run ⟨s, s.readerFor gdr⟩ =
      (.error (.invalid (.interSliceInIrap placeType.2)), ⟨s', r₂⟩) := by
    unfold sliceStructure sliceElements
    rw [Step.run_bind, Step.run_bind, hflag]
    dsimp only
    rw [Step.run_bind, hcontext]
    dsimp only
    rw [Step.run_bind, Step.run_ofParse, hread]
  have hkind : gdr.header.kind ∈ sliceKinds := by
    rw [hgdr]
    decide
  rw [readSlice, runStep, checkKind, if_pos hkind, hrun]

/-- **A slice of a gradual refresh may predict from other layers only.** -/
theorem gradual_refresh_slices (hplain : s.escaped = false) (htrail : trail.header.kind = .trail)
    (haccepts : s.AcceptsSlice trail content slice s') (b : Bool) :
    (∃ content', s.InsertsFlag trail.header b content content') ∧
    ∀ content' gdr, s.InsertsFlag trail.header b content content' → gdr.header.kind = .gdr →
      gdr.header.layer = trail.header.layer → gdr.Carries content' →
        (slice.type = .i ∨ slice.pps.sps.references.interLayer = true →
          ∃ slice', s.AcceptsSlice gdr content' slice' s' ∧
            slice' = { slice with noOutputOfPrior := b, bits := slice'.bits }) ∧
        (slice.type ≠ .i → slice.pps.sps.references.interLayer = false →
          s.readSlice gdr = (.error (.invalid (.interSliceInIrap slice.type)), s')) := by
  refine ⟨haccepts.exists_insertsFlag hplain htrail b, ?_⟩
  rintro content' gdr ⟨carried, picture, pictureBits, s₁, pps, placeType, front, back, htakes,
    hpps, hfront, rfl, rfl⟩ hgdr hlayer hcarries
  obtain ⟨rfl, pps', elements, hbody, hslice⟩ := haccepts.exists_readsBody hplain htakes
  obtain rfl : pps = pps' := Option.some.inj (hpps.symm.trans hbody.pictureSet)
  obtain ⟨htype, hsame⟩ := hbody.against htrail hfront
  have htype : slice.type = placeType.2 := by
    rw [hslice]
    exact htype
  have hsame : slice.pps = pps := by
    rw [hslice]
    exact hsame
  constructor
  · intro hallowed
    rw [htype, hsame] at hallowed
    have hgradual := hbody.gradual htrail hgdr hlayer hfront hallowed b
    rw [← hlayer] at htakes
    have hkind : gdr.header.kind ∈ sliceKinds := by
      rw [hgdr]
      decide
    obtain ⟨slice', haccepts', hslice'⟩ :=
      hgradual.exists_acceptsSlice hplain hkind htakes hcarries
    refine ⟨slice', haccepts', ?_⟩
    rw [hslice', hslice]
    rfl
  · intro hinter hlayers
    rw [htype] at hinter ⊢
    rw [hsame] at hlayers
    exact readSlice_gradual_of_inter hplain htrail hgdr hlayer htakes hpps hfront hinter hlayers
      hcarries

/-- A session with parameter sets that allow gradual refreshes. -/
def refreshing : Session :=
  (start false).after (.sequenceSet {
      header := { kind := .sps, temporalIdPlus1 := 1 }
      bytes := [0x00, 0x79, 0x00, 0x09, 0x02, 0x33, 0x80, 0x00, 0x80, 0x82, 0x04, 0x11, 0x88, 0x02,
        0xf6, 0xc3, 0xe0, 0x30, 0x10, 0x40, 0x00, 0x10] })
    |>.after (.pictureSet {
      header := { kind := .pps, temporalIdPlus1 := 1 }
      bytes := [0x00, 0x81, 0x00, 0x00, 0x41, 0x02, 0x08, 0x98, 0x40, 0x80] })

theorem refreshing_reachable : refreshing.Reachable := .after _ (.after _ (.start false))

theorem refreshing_escaped : refreshing.escaped = false := by
  decide +kernel

/-- A trailing slice that predicts from one picture. -/
def trailingSlice : Nal where
  header := { kind := .trail, temporalIdPlus1 := 1 }
  bytes := [0x00, 0x01, 0xde, 0x0b, 0xa5, 0x70]

/-- The same slice with a flag inserted, in a gradual refresh. -/
def refreshSlice : Nal where
  header := { kind := .gdr, temporalIdPlus1 := 1 }
  bytes := [0x00, 0x51, 0xde, 0x0b, 0xa2, 0xb8]

/-- The bits of the trailing slice: a picture header behind a flag, the type, and the rest. -/
def trailingSliceBits : List Bool :=
  true :: lowBits 16 0xbc17 ++ (lowBits 3 0x2 ++ lowBits 7 0x2b)

/-- The bits of the slice in the gradual refresh. -/
def refreshSliceBits : List Bool :=
  true :: lowBits 16 0xbc17 ++ (lowBits 3 0x2 ++ false :: lowBits 7 0x2b)

/-- Behind the picture header, the type of the slice takes three bits, and seven follow. -/
theorem inserts_refreshing :
    refreshing.InsertsFlag trailingSlice.header false trailingSliceBits refreshSliceBits := by
  have hcheck : (match (pictureStructure 0).run
        ⟨refreshing, .ofBytes false [0xbc, 0x17, 0x80]⟩ with
      | (.ok picture, ⟨s₁, r₁⟩) =>
        r₁.unread == true :: lowBits 7 0 &&
          (s₁.pictureSets.get? picture.start.ppsId).any fun pps =>
            match (readPlaceType ((s₁.setPicture picture).contextFor
              trailingSlice.header true picture pps)).run (.ofBytes false [0x50]) with
            | (.ok _, r₂) => r₂.unread == true :: lowBits 4 0
            | _ => false
      | _ => false) = true := by
    decide +kernel
  split at hcheck
  · rename_i picture s₁ r₁ hrun
    simp only [Bool.and_eq_true, beq_iff_eq] at hcheck
    obtain ⟨hrest, hplaceType⟩ := hcheck
    obtain ⟨bits, hbits, htakes⟩ := exists_takes_of_run hrun
    have hunread : (BitReader.ofBytes false [0xbc, 0x17, 0x80]).unread =
        lowBits 16 0xbc17 ++ true :: lowBits 7 0 := by
      decide
    rw [hunread, hrest] at hbits
    obtain rfl := List.append_cancel_right hbits
    cases hpps : s₁.pictureSets.get? picture.start.ppsId with
    | none =>
      rw [hpps] at hplaceType
      cases hplaceType
    | some pps =>
      rw [hpps, Option.any_some] at hplaceType
      split at hplaceType
      · rename_i placeType r₂ hrun₂
        obtain ⟨front, hfront, hreads⟩ :=
          exists_reads_of_run (SliceHeader.within_readPlaceType _) hrun₂
        have hunread₂ : (BitReader.ofBytes false [0x50]).unread =
            lowBits 3 0x2 ++ true :: lowBits 4 0 := by
          decide
        rw [beq_iff_eq.mp hplaceType, hunread₂] at hfront
        obtain rfl := List.append_cancel_right hfront
        exact ⟨true, picture, _, _, pps, placeType, _, _, takes_carried htakes, hpps, hreads, rfl,
          rfl⟩
      · cases hplaceType
  · cases hcheck

theorem exists_acceptsSlice_refreshing : ∃ slice s',
    refreshing.AcceptsSlice trailingSlice trailingSliceBits slice s' ∧
    slice.type = .p ∧ slice.pps.sps.references.interLayer = false := by
  have hcheck : (match refreshing.readSlice trailingSlice with
      | (.ok slice, _) => slice.type == .p && !slice.pps.sps.references.interLayer
      | _ => false) = true := by
    decide +kernel
  split at hcheck
  · rename_i slice s' hread
    simp only [Bool.and_eq_true, beq_iff_eq, Bool.not_eq_true'] at hcheck
    exact ⟨slice, s', ⟨⟨lowBits 4 0, by decide⟩, hread, by decide +kernel⟩, hcheck⟩
  · cases hcheck

theorem carries_refreshSlice : refreshSlice.Carries refreshSliceBits :=
  ⟨lowBits 3 0, by decide⟩

theorem gradual_refresh_slices_refreshing : ∃ slice s',
    refreshing.AcceptsSlice trailingSlice trailingSliceBits slice s' ∧
    refreshing.readSlice refreshSlice = (.error (.invalid (.interSliceInIrap slice.type)), s') := by
  obtain ⟨slice, s', haccepts, htype, hlayers⟩ := exists_acceptsSlice_refreshing
  refine ⟨slice, s', haccepts, ?_⟩
  exact ((gradual_refresh_slices refreshing_escaped rfl haccepts false).2 _ refreshSlice
    inserts_refreshing rfl rfl carries_refreshSlice).2 (by rw [htype]; decide) hlayers

/-- A slice that predicts from a picture is accepted as a trailing one and refused in a gradual
refresh. -/
theorem inter_refresh_refused : refreshing.Reachable ∧ refreshing.escaped = false ∧
    refreshing.InsertsFlag trailingSlice.header false trailingSliceBits refreshSliceBits ∧
    (∃ slice s', refreshing.AcceptsSlice trailingSlice trailingSliceBits slice s' ∧
      slice.type = .p ∧ slice.pps.sps.references.interLayer = false) ∧
    refreshSlice.Carries refreshSliceBits ∧
    (refreshing.readSlice refreshSlice).1 = .error (.invalid (.interSliceInIrap .p)) :=
  ⟨refreshing_reachable, refreshing_escaped, inserts_refreshing, exists_acceptsSlice_refreshing,
    carries_refreshSlice, by decide +kernel⟩

end Session

end CodedVideo
