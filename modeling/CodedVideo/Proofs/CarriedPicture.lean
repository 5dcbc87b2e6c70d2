import CodedVideo.Proofs.Consumed

/-!
# Picture headers that slices carry

A picture header comes in a NAL unit of its own, or the only slice of the picture carries
it.  Both ways it is read by the same structure, and leaves the session the same.  A slice
that carries it uses all that it turns on, while any other slice says by a bit for the
mapping of luma values, and one for scaling matrices, whether it uses them.

So a slice header that carries the picture header may be split in two, with these bits
inserted and set, and put together again (`Session.carried_iff_separate`).
-/

namespace CodedVideo

open Parse

/-- The payload starts with `content` and a stop bit. -/
def Nal.Carries (nal : Nal) (content : List Bool) : Prop :=
  ∃ rest, nal.payload.flatMap byteBits = content ++ true :: rest

/-! ### The elements after the picture header -/

namespace SliceHeader

/-- The bit of a slice that uses what its picture uses. -/
def useBit (inPicture : Bool) : List Bool := if inPicture then [true] else []

/-- The bits of a slice that uses all that its picture uses. -/
def useBits (picture : PictureHeader) : List Bool :=
  useBit picture.mapping.isSome ++ useBit picture.scalingLists.isSome

variable {c : Context} {front back : List Bool} {start : Start} {slice : SliceHeader}

theorem reads_readUse_of_carries (h : c.carriesPicture = true) (inPicture : Bool) :
    (readUse c inPicture).Reads [] inPicture := by
  unfold readUse
  rw [h]
  cases inPicture
  · exact reads_pure false
  · exact reads_pure true

theorem reads_readUse_of_separate (h : c.carriesPicture = false) (inPicture : Bool) :
    (readUse c inPicture).Reads (useBit inPicture) inPicture := by
  unfold readUse
  rw [h]
  cases inPicture
  · exact reads_pure false
  · exact reads_flag true

theorem within_afterMapped (hreferences : c.references.Within (· = .place)) (start : Start)
    (mapped : Bool) : (readUse c c.picture.scalingLists.isSome >>= fun scaled =>
      readRest c start mapped scaled).Within (· = .place) :=
  (within_readUse c _).bind fun scaled =>
    within_readRest hreferences (SlicePlace.within_ctbs (F := (· = .place)) rfl _ _) mapped scaled

theorem within_afterStart (hreferences : c.references.Within (· = .place)) (start : Start) :
    (readUse c c.picture.mapping.isSome >>= fun mapped =>
      readUse c c.picture.scalingLists.isSome >>= fun scaled =>
        readRest c start mapped scaled).Within (· = .place) :=
  (within_readUse c _).bind fun mapped => within_afterMapped hreferences start mapped

/-- What comes after the bits for what is used is the remainder of the header. -/
theorem reads_read_iff (hreferences : c.references.Within (· = .place))
    (hstart : (readStart c).Reads front start) {bits₁ bits₂ : List Bool}
    (hmapped : (readUse c c.picture.mapping.isSome).Reads bits₁ c.picture.mapping.isSome)
    (hscaled : (readUse c c.picture.scalingLists.isSome).Reads bits₂
      c.picture.scalingLists.isSome) :
    (read c).Reads (front ++ (bits₁ ++ (bits₂ ++ back))) slice ↔
      (readRest c start c.picture.mapping.isSome c.picture.scalingLists.isSome).Reads back
        slice := by
  constructor
  · intro h
    have hafterStart :=
      h.of_bind_of_reads (within_readStart c) (within_afterStart hreferences) hstart
    have hafterMapped := hafterStart.of_bind_of_reads (within_readUse c _)
      (within_afterMapped hreferences start) hmapped
    exact hafterMapped.of_bind_of_reads (within_readUse c _)
      (within_readRest hreferences (SlicePlace.within_ctbs (F := (· = .place)) rfl _ _) _) hscaled
  · intro h
    exact hstart.bind (hmapped.bind (hscaled.bind h))

theorem reads_read_iff_of_carries (h : c.carriesPicture = true)
    (hreferences : c.references.Within (· = .place)) (hstart : (readStart c).Reads front start) :
    (read c).Reads (front ++ back) slice ↔
      (readRest c start c.picture.mapping.isSome c.picture.scalingLists.isSome).Reads back slice :=
  reads_read_iff hreferences hstart (reads_readUse_of_carries h _) (reads_readUse_of_carries h _)

theorem reads_read_iff_of_separate (h : c.carriesPicture = false)
    (hreferences : c.references.Within (· = .place)) (hstart : (readStart c).Reads front start) :
    (read c).Reads (front ++ useBits c.picture ++ back) slice ↔
      (readRest c start c.picture.mapping.isSome c.picture.scalingLists.isSome).Reads back
        slice := by
  rw [useBits, List.append_assoc, List.append_assoc]
  exact reads_read_iff hreferences hstart (reads_readUse_of_separate h _)
    (reads_readUse_of_separate h _)

theorem exists_readStart (hreferences : c.references.Within (· = .place)) {content : List Bool}
    (h : (read c).Reads content slice) :
    ∃ start front back, (readStart c).Reads front start ∧ content = front ++ back := by
  obtain ⟨start, front, back, hstart, -, hsame⟩ :=
    h.of_bind (within_readStart c) (within_afterStart hreferences)
  exact ⟨start, front, back, hstart, hsame⟩

end SliceHeader

namespace Session

/-- What a slice header is read against once its picture header is there. -/
def contextFor (s : Session) (header : Nal.Header) (carriesPicture : Bool)
    (picture : PictureHeader) (pps : Pps) : SliceHeader.Context where
  kind := header.kind
  carriesPicture := carriesPicture
  picture := picture
  pps := pps
  references := s.references header.layer pps

/-- The bits of a slice header after the picture header are `content`. -/
structure ReadsBody (s : Session) (header : Nal.Header) (carriesPicture : Bool)
    (picture : PictureHeader) (pps : Pps) (content : List Bool) (elements : SliceHeader) :
    Prop where
  pictureSet : s.pictureSets.get? picture.start.ppsId = some pps
  reads : (SliceHeader.read (s.contextFor header carriesPicture picture pps)).Reads content elements
  references : ∀ r, (SliceHeader.checkReferences s.adaptationSet? elements).run r = (.ok (), r)

/-- The strings `content` and `content'` are the bits of two slice headers after the
picture header, the first of which belongs to a slice that carries it.  The second has
bits set for what the picture uses. -/
def Inserts (s : Session) (header : Nal.Header) (picture : PictureHeader)
    (content content' : List Bool) : Prop :=
  ∃ pps start front back, s.pictureSets.get? picture.start.ppsId = some pps ∧
    (SliceHeader.readStart (s.contextFor header true picture pps)).Reads front start ∧
    content = front ++ back ∧ content' = front ++ SliceHeader.useBits picture ++ back

variable {s s₁ s₂ s' : Session} {header : Nal.Header} {picture : PictureHeader} {pps : Pps}
  {content content' : List Bool} {elements slice : SliceHeader}

theorem within_references (s : Session) (layer : Nat) (pps : Pps) :
    (s.references layer pps).Within (· = .place) :=
  Sps.within_headerReferences _ _ _

theorem ReadsBody.exists_inserts (h : s.ReadsBody header true picture pps content elements) :
    ∃ content', s.Inserts header picture content content' := by
  obtain ⟨start, front, back, hstart, hsame⟩ :=
    SliceHeader.exists_readStart (s.within_references header.layer pps) h.reads
  exact ⟨_, pps, start, front, back, h.pictureSet, hstart, hsame, rfl⟩

/-- **The same elements are read with the bits inserted as without them.** -/
theorem Inserts.readsBody_iff (h : s.Inserts header picture content content') :
    s.ReadsBody header true picture pps content elements ↔
      s.ReadsBody header false picture pps content' elements := by
  obtain ⟨pps', start, front, back, hpps, hstart, rfl, rfl⟩ := h
  -- Nothing before or behind the inserted bits tells the two contexts apart.
  have hiff (hsame : pps' = pps) :
      (SliceHeader.read (s.contextFor header true picture pps)).Reads (front ++ back) elements ↔
        (SliceHeader.read (s.contextFor header false picture pps)).Reads
          (front ++ SliceHeader.useBits picture ++ back) elements := by
    subst hsame
    have hreferences := s.within_references header.layer pps'
    refine (SliceHeader.reads_read_iff_of_carries rfl hreferences hstart).trans ?_
    exact (SliceHeader.reads_read_iff_of_separate
      (c := s.contextFor header false picture pps') rfl hreferences hstart).symm
  constructor
  · intro hbody
    have hsame : pps' = pps := Option.some.inj (hpps.symm.trans hbody.pictureSet)
    exact ⟨hbody.pictureSet, (hiff hsame).mp hbody.reads, hbody.references⟩
  · intro hbody
    have hsame : pps' = pps := Option.some.inj (hpps.symm.trans hbody.pictureSet)
    exact ⟨hbody.pictureSet, (hiff hsame).mpr hbody.reads, hbody.references⟩

/-! ### NAL units -/

/-- The slice header is accepted and ends at the end of `content`. -/
structure AcceptsSlice (s : Session) (nal : Nal) (content : List Bool) (slice : SliceHeader)
    (s' : Session) : Prop where
  carries : nal.Carries content
  accepted : s.readSlice nal = (.ok slice, s')
  ends : ((sliceElements nal.header).run ⟨s, s.readerFor nal⟩).2.reader.position = content.length

variable {nal : Nal} {carried : Bool} {front back : List Bool}

theorem exists_unread_readerFor (hplain : s.escaped = false) (h : nal.Carries content) :
    ∃ rest, (s.readerFor nal).unread = content ++ true :: rest := by
  obtain ⟨rest, hrest⟩ := h
  refine ⟨rest, ?_⟩
  rw [readerFor, BitReader.unread_ofBytes, hplain, payload_unescaped, hrest]

/-- A stop bit is the end of a payload. -/
theorem exists_run_finish {r : BitReader} {rest : List Bool} (hr : r.Balanced)
    (hunread : r.unread = true :: rest) : ∃ r', finish.run r = (.ok (), r') := by
  obtain ⟨r₁, hflag, -⟩ := reads_flag true r rest hunread
  exact ⟨r₁.align.2, (run_finish_eq_ok hr).mpr ⟨r₁, hflag, rfl⟩⟩

theorem takes_sliceContext
    (hpicture : (pictureOfSlice header.layer carried).Takes s front picture s₁)
    (hpps : s₁.pictureSets.get? picture.start.ppsId = some pps) :
    (sliceContext header carried).Takes s front (s₁.contextFor header carried picture pps) s₁ := by
  refine hpicture.bind_right ?_
  refine (Step.takes_pictureSet hpps).bind_left ?_
  exact (Step.takes_session s₁).bind_left (Step.takes_pure _ s₁)

theorem exists_pictureSet_of_run
    (hpicture : (pictureOfSlice header.layer carried).Takes s front picture s₁) {r : BitReader}
    {rest : List Bool} (hr : r.unread = front ++ rest) {c : SliceHeader.Context}
    {reading' : Reading} (h : (sliceContext header carried).run ⟨s, r⟩ = (.ok c, reading')) :
    ∃ pps, s₁.pictureSets.get? picture.start.ppsId = some pps := by
  obtain ⟨_, _, hrun, h⟩ := Step.run_bind_eq_ok.mp h
  obtain ⟨rfl, rfl, -⟩ := hpicture.of_run hr hrun
  obtain ⟨pps, _, hpps, -⟩ := Step.run_bind_eq_ok.mp h
  exact ⟨pps, (Step.run_pictureSet_eq_ok.mp hpps).1⟩

/-- The elements of a slice header are the flag that it starts with, those of the picture
header if there is one, and those after it. -/
theorem exists_reads_of_sliceElements
    (hpicture : (pictureOfSlice header.layer carried).Takes s front picture s₁)
    {r r' : BitReader} {rest : List Bool} (hr : r.unread = carried :: front ++ rest)
    (h : (sliceElements header).run ⟨s, r⟩ = (.ok elements, ⟨s', r'⟩)) :
    s' = s₁ ∧ ∃ pps read consumed, s₁.pictureSets.get? picture.start.ppsId = some pps ∧
      (SliceHeader.read (s₁.contextFor header carried picture pps)).Reads consumed read ∧
      rest = consumed ++ r'.unread ∧
      r'.position = r.position + (carried :: front ++ consumed).length ∧
      elements = { read with carriesPicture := carried } := by
  have hr : r.unread = [carried] ++ (front ++ rest) := hr
  obtain ⟨carried', ⟨s₀, r₀⟩, hflag, hcontextRead⟩ := Step.run_bind_eq_ok.mp h
  obtain ⟨hcarried, hs₀, hunread, hposition⟩ :=
    (Step.takes_ofParse (reads_flag carried) s).of_run hr hflag
  subst carried' s₀
  obtain ⟨c, ⟨s₀, r₁⟩, hcontext, hreadPure⟩ := Step.run_bind_eq_ok.mp hcontextRead
  obtain ⟨pps, hpps⟩ := exists_pictureSet_of_run hpicture hunread hcontext
  obtain ⟨hc, hs₀, hunread', hposition'⟩ :=
    (takes_sliceContext hpicture hpps).of_run hunread hcontext
  subst c s₀
  obtain ⟨read, _, hread, hpure⟩ := Step.run_bind_eq_ok.mp hreadPure
  obtain ⟨_, hrun, rfl⟩ := Step.run_ofParse_eq_ok.mp hread
  cases hpure
  obtain ⟨consumed, hconsumed, hreads⟩ := exists_reads_of_run
    (SliceHeader.within_read rfl (s₁.within_references header.layer pps)) hrun
  obtain ⟨-, -, -, hposition''⟩ := (Step.takes_ofParse hreads s₁).of_run hconsumed hread
  refine ⟨rfl, pps, read, consumed, hpps, hreads, hunread'.symm.trans hconsumed, ?_, rfl⟩
  rw [hposition'', hposition', hposition]
  simp only [List.length_append, List.length_cons, List.length_nil]
  omega

theorem takes_sliceElements
    (hpicture : (pictureOfSlice header.layer carried).Takes s front picture s₁)
    (hbody : s₁.ReadsBody header carried picture pps back elements) :
    (sliceElements header).Takes s (carried :: front ++ back)
      { elements with carriesPicture := carried } s₁ := by
  have hcontext := takes_sliceContext hpicture hbody.pictureSet
  have hread := Step.takes_ofParse hbody.reads s₁
  exact (Step.takes_ofParse (reads_flag carried) s).bind
    (hcontext.bind (hread.bind_right (Step.takes_pure _ s₁)))

/-- Of an accepted slice the bits after the picture header are those of its elements. -/
theorem AcceptsSlice.exists_readsBody (hplain : s.escaped = false)
    (hpicture : (pictureOfSlice nal.header.layer carried).Takes s front picture s₁)
    (h : s.AcceptsSlice nal (carried :: front ++ back) slice s') :
    s' = s₁ ∧ ∃ pps elements, s₁.ReadsBody nal.header carried picture pps back elements ∧
      slice = { elements with carriesPicture := carried, bits := slice.bits, escapes := 0 } := by
  obtain ⟨rest, hunread⟩ := exists_unread_readerFor hplain h.carries
  obtain ⟨-, r₂, hrun⟩ := readSlice_eq_ok.mp h.accepted
  obtain ⟨all, _, r₁, _, helements, -, hreferences, ⟨⟩, hslice⟩ := run_sliceStructure_eq_ok.mp hrun
  rw [List.append_assoc] at hunread
  obtain ⟨hsame, pps, elements, consumed, hpps, hreads, hrest, hposition, rfl⟩ :=
    exists_reads_of_sliceElements hpicture hunread helements
  -- The elements end with `back`, so what has been read of the rest is `back` and no more.
  have hends := h.ends
  rw [helements] at hends
  have hlength : back.length = consumed.length := by
    have hcount := hends.symm.trans hposition
    simp only [List.length_append, List.length_cons, BitReader.ofBytes, readerFor] at hcount
    omega
  obtain ⟨rfl, -⟩ := List.append_inj hrest hlength
  subst hsame
  refine ⟨rfl, pps, elements, ⟨hpps, hreads, hreferences⟩, ?_⟩
  have hescapes := escapes_eq_zero hplain h.accepted
  rw [hslice] at hescapes ⊢
  rw [← hescapes]

theorem ReadsBody.exists_acceptsSlice (hplain : s.escaped = false)
    (hkind : nal.header.kind ∈ sliceKinds)
    (hpicture : (pictureOfSlice nal.header.layer carried).Takes s front picture s₁)
    (hbody : s₁.ReadsBody nal.header carried picture pps back elements)
    (hcarries : nal.Carries (carried :: front ++ back)) :
    ∃ slice, s.AcceptsSlice nal (carried :: front ++ back) slice s₁ ∧
      slice = { elements with carriesPicture := carried, bits := slice.bits, escapes := 0 } := by
  obtain ⟨rest, hunread⟩ := exists_unread_readerFor hplain hcarries
  obtain ⟨r₁, helements, hrest, hposition⟩ := takes_sliceElements hpicture hbody hunread
  have hbalanced := (local_sliceElements nal.header
    (BitReader.balanced_ofBytes s.escaped nal.payload) helements).1
  obtain ⟨r₂, hfinish⟩ := exists_run_finish hbalanced hrest
  have hrun := run_sliceStructure_eq_ok.mpr
    ⟨_, s₁, r₁, r₂, helements, hfinish, hbody.references, rfl, rfl⟩
  have haccepted := readSlice_eq_ok.mpr ⟨hkind, r₂, hrun⟩
  refine ⟨_, ⟨hcarries, haccepted, ?_⟩, ?_⟩
  · rw [helements]
    exact hposition.trans (Nat.zero_add _)
  · have hescapes := escapes_eq_zero hplain haccepted
    rw [← hescapes]

theorem AcceptsSlice.kind_mem (h : s.AcceptsSlice nal content slice s') :
    nal.header.kind ∈ sliceKinds :=
  (readSlice_eq_ok.mp h.accepted).1

/-- A picture header of its own is accepted if it ends with a stop bit. -/
theorem readPictureHeader_of_takes (hplain : s.escaped = false)
    (hpicture : (pictureStructure nal.header.layer).Takes s content picture s₁)
    (hkind : nal.header.kind = .pictureHeader) (hcarries : nal.Carries content) :
    s.readPictureHeader nal = (.ok picture, s₁.setPicture picture) := by
  obtain ⟨rest, hunread⟩ := exists_unread_readerFor hplain hcarries
  obtain ⟨r₁, hrun, hrest, -⟩ := hpicture hunread
  have hbalanced := (local_pictureStructure nal.header.layer
    (BitReader.balanced_ofBytes s.escaped nal.payload) hrun).1
  obtain ⟨r₂, hfinish⟩ := exists_run_finish hbalanced hrest
  have hseparate : (separatePicture nal.header.layer).run ⟨s, s.readerFor nal⟩ =
      (.ok picture, ⟨s₁.setPicture picture, r₂⟩) := by
    refine Step.run_bind_eq_ok.mpr ⟨picture, _, hrun, ?_⟩
    exact Step.run_bind_eq_ok.mpr ⟨(), _, Step.run_ofParse_eq_ok.mpr ⟨r₂, hfinish, rfl⟩, rfl⟩
  rw [readPictureHeader, runStep, checkKind, hkind, if_pos (List.mem_singleton_self _), hseparate]

/-- Escaping is not changed by a picture header. -/
theorem escaped_of_takes {layer : Nat}
    (hpicture : (pictureStructure layer).Takes s content picture s₁) (hplain : s.escaped = false) :
    (s₁.setPicture picture).escaped = false := by
  show s₁.escaped = false
  -- What holds after some run holds of the session that every run comes to.
  obtain ⟨r, rest, hr⟩ := BitReader.exists_unread content
  obtain ⟨r', hrun, -⟩ := hpicture hr
  have hstable : Stable fun s : Session => s.escaped = false :=
    ⟨fun h _ _ => h, fun h _ => h⟩
  have hkeeps := (keeps_pictureStructure (F := fun _ => True) hstable layer ⟨s, r⟩ hplain).1
  rwa [hrun] at hkeeps

theorem takes_carried {layer : Nat}
    (hpicture : (pictureStructure layer).Takes s content picture s₁) :
    (pictureOfSlice layer true).Takes s content picture (s₁.setPicture picture) :=
  hpicture.bind_right ((Step.takes_update _ s₁).bind_left (Step.takes_pure picture _))

theorem takes_separate (layer : Nat) (h : s.picture = some picture) :
    (pictureOfSlice layer false).Takes s [] picture s :=
  (Step.takes_session s).bind_left (Step.takes_ofReference h s)

/-- A slice that carries the picture header `bits`, and this picture header and the slice
without it. -/
structure Splits (s : Session) (picture : PictureHeader) (bits content content' : List Bool)
    (combined ph separate : Nal) : Prop where
  kind : ph.header.kind = .pictureHeader
  layer : ph.header.layer = combined.header.layer
  header : separate.header = combined.header
  combined_carries : combined.Carries (true :: bits ++ content)
  ph_carries : ph.Carries bits
  separate_carries : separate.Carries (false :: content')
  inserts : s.Inserts combined.header picture content content'

theorem Splits.exists_separate {combined ph separate : Nal} {bits : List Bool}
    (hplain : s.escaped = false)
    (hpicture : (pictureStructure combined.header.layer).Takes s bits picture s₁)
    (h : (s₁.setPicture picture).Splits picture bits content content' combined ph separate)
    (haccepts : s.AcceptsSlice combined (true :: bits ++ content) slice s') :
    ∃ slice', (s₁.setPicture picture).AcceptsSlice separate (false :: content') slice' s' ∧
      slice' = { slice with carriesPicture := false, bits := slice'.bits } := by
  obtain ⟨rfl, pps, elements, hbody, hslice⟩ :=
    haccepts.exists_readsBody hplain (takes_carried hpicture)
  have hseparate := takes_separate separate.header.layer (s := s₁.setPicture picture) rfl
  have hbody' := h.inserts.readsBody_iff.mp hbody
  have hkind := haccepts.kind_mem
  rw [← h.header] at hbody' hkind
  obtain ⟨slice', haccepts', hslice'⟩ :=
    hbody'.exists_acceptsSlice (escaped_of_takes hpicture hplain) hkind hseparate h.separate_carries
  refine ⟨slice', haccepts', ?_⟩
  rw [hslice', hslice]

theorem Splits.exists_combined {combined ph separate : Nal} {bits : List Bool}
    {slice' : SliceHeader} (hplain : s.escaped = false)
    (hpicture : (pictureStructure combined.header.layer).Takes s bits picture s₁)
    (h : (s₁.setPicture picture).Splits picture bits content content' combined ph separate)
    (haccepts : (s₁.setPicture picture).AcceptsSlice separate (false :: content') slice' s') :
    ∃ slice, s.AcceptsSlice combined (true :: bits ++ content) slice s' ∧
      slice' = { slice with carriesPicture := false, bits := slice'.bits } := by
  have hseparate := takes_separate separate.header.layer (s := s₁.setPicture picture) rfl
  obtain ⟨rfl, pps, elements, hbody, hslice'⟩ :=
    AcceptsSlice.exists_readsBody (escaped_of_takes hpicture hplain) hseparate haccepts
  have hkind := haccepts.kind_mem
  rw [h.header] at hbody hkind
  have hbody' := h.inserts.readsBody_iff.mpr hbody
  obtain ⟨slice, haccepts', hslice⟩ :=
    hbody'.exists_acceptsSlice hplain hkind (takes_carried hpicture) h.combined_carries
  refine ⟨slice, haccepts', ?_⟩
  rw [hslice', hslice]

/-- **It makes no difference whether a slice carries the picture header.** -/
theorem carried_iff_separate {layer : Nat} {bits : List Bool} (hplain : s.escaped = false)
    (hpicture : (pictureStructure layer).Takes s bits picture s₁) :
    (∀ combined content slice s', combined.header.layer = layer →
      s.AcceptsSlice combined (true :: bits ++ content) slice s' →
      ∃ content', (s₁.setPicture picture).Inserts combined.header picture content content') ∧
    ∀ combined ph separate content content', combined.header.layer = layer →
      (s₁.setPicture picture).Splits picture bits content content' combined ph separate →
      (∀ slice s', s.AcceptsSlice combined (true :: bits ++ content) slice s' →
        s.readPictureHeader ph = (.ok picture, s₁.setPicture picture) ∧
        ∃ slice', (s₁.setPicture picture).AcceptsSlice separate (false :: content') slice' s' ∧
          slice' = { slice with carriesPicture := false, bits := slice'.bits }) ∧
      ∀ picture' s₂ slice' s', s.readPictureHeader ph = (.ok picture', s₂) →
        s₂.AcceptsSlice separate (false :: content') slice' s' →
        ∃ slice, s.AcceptsSlice combined (true :: bits ++ content) slice s' ∧
          slice' = { slice with carriesPicture := false, bits := slice'.bits } := by
  refine ⟨?_, ?_⟩
  · rintro combined content slice s' rfl haccepts
    obtain ⟨rfl, pps, elements, hbody, -⟩ :=
      haccepts.exists_readsBody hplain (takes_carried hpicture)
    exact hbody.exists_inserts
  · rintro combined ph separate content content' rfl h
    have hph : s.readPictureHeader ph = (.ok picture, s₁.setPicture picture) :=
      readPictureHeader_of_takes hplain (h.layer ▸ hpicture) h.kind h.ph_carries
    refine ⟨?_, ?_⟩
    · intro slice s' haccepts
      exact ⟨hph, h.exists_separate hplain hpicture haccepts⟩
    · intro picture' s₂ slice' s' hread haccepts
      rw [hph] at hread
      cases hread
      exact h.exists_combined hplain hpicture haccepts

/-- A session with parameter sets for pictures that map luma values. -/
def mappedLuma : Session :=
  (withSubpictures false 0xd0 0x86).after (.adaptationSet {
    header := { kind := .prefixAps, temporalIdPlus1 := 1 }
    bytes := [0x00, 0x89, 0x20, 0x42, 0x12] })

theorem mappedLuma_escaped : mappedLuma.escaped = false := by
  decide +kernel

/-- A slice of an IDR picture. -/
def idrSlice (payload : List UInt8) : Nal where
  header := { kind := .idrNoLeading, temporalIdPlus1 := 1 }
  bytes := [0x00, 0x41] ++ payload

def idrPicture : Nal where
  header := { kind := .pictureHeader, temporalIdPlus1 := 1 }
  bytes := [0x00, 0x99, 0x88, 0x04, 0x40]

theorem inserts_mappedLuma : ∃ picture s₁,
    (pictureStructure 0).Takes mappedLuma (lowBits 17 0x11008) picture s₁ ∧
      (s₁.setPicture picture).Inserts (idrSlice []).header picture (lowBits 5 0x01)
        (lowBits 6 0x03) := by
  have hcheck : (match (pictureStructure 0).run
        ⟨mappedLuma, mappedLuma.readerFor idrPicture⟩ with
      | (.ok picture, ⟨s₁, r₁⟩) =>
        r₁.unread == true :: lowBits 6 0 && SliceHeader.useBits picture == [true] &&
          (s₁.pictureSets.get? picture.start.ppsId).any fun pps =>
            match (SliceHeader.readStart ((s₁.setPicture picture).contextFor
              (idrSlice []).header true picture pps)).run (.ofBytes false [0x08]) with
            | (.ok _, r₂) => r₂.unread == true :: lowBits 3 0
            | _ => false
      | _ => false) = true := by
    decide +kernel
  split at hcheck
  · rename_i picture s₁ r₁ hrun
    simp only [Bool.and_eq_true, beq_iff_eq] at hcheck
    obtain ⟨⟨hrest, huses⟩, hstart⟩ := hcheck
    obtain ⟨bits, hbits, htakes⟩ := exists_takes_of_run hrun
    have hunread : (mappedLuma.readerFor idrPicture).unread =
        lowBits 17 0x11008 ++ true :: lowBits 6 0 := by
      rw [readerFor, BitReader.unread_ofBytes, mappedLuma_escaped, payload_unescaped]
      decide
    rw [hunread, hrest] at hbits
    obtain rfl := List.append_cancel_right hbits
    refine ⟨picture, s₁, htakes, ?_⟩
    cases hpps : s₁.pictureSets.get? picture.start.ppsId with
    | none =>
      rw [hpps] at hstart
      cases hstart
    | some pps =>
      rw [hpps, Option.any_some] at hstart
      split at hstart
      · rename_i start r₂ hrun₂
        obtain ⟨front, hfront, hreads⟩ := exists_reads_of_run (SliceHeader.within_readStart _) hrun₂
        rw [beq_iff_eq.mp hstart] at hfront
        have hunread₂ : (BitReader.ofBytes false [0x08]).unread =
            lowBits 4 0 ++ true :: lowBits 3 0 := by
          decide
        rw [hunread₂] at hfront
        obtain rfl := List.append_cancel_right hfront
        refine ⟨pps, start, _, [true], hpps, hreads, rfl, ?_⟩
        rw [huses]
        rfl
      · cases hstart
  · cases hcheck

/-- The fifth of the six bits of the slice alone is the one inserted. -/
theorem carried_iff_separate_mappedLuma : ∃ picture s₂ slice slice' s',
    mappedLuma.AcceptsSlice (idrSlice [0xc4, 0x02, 0x03])
      (true :: lowBits 17 0x11008 ++ lowBits 5 0x01) slice s' ∧
    mappedLuma.readPictureHeader idrPicture = (.ok picture, s₂) ∧
    s₂.AcceptsSlice (idrSlice [0x07]) (false :: lowBits 6 0x03) slice' s' ∧
    slice' = { slice with carriesPicture := false, bits := slice'.bits } := by
  obtain ⟨picture, s₁, htakes, hinserts⟩ := inserts_mappedLuma
  have hslice : (mappedLuma.readSlice (idrSlice [0xc4, 0x02, 0x03])).1.isOk = true := by
    decide +kernel
  rcases hread : mappedLuma.readSlice (idrSlice [0xc4, 0x02, 0x03]) with ⟨e | slice, s'⟩
  · rw [hread] at hslice
    cases hslice
  · have haccepts : mappedLuma.AcceptsSlice (idrSlice [0xc4, 0x02, 0x03])
        (true :: lowBits 17 0x11008 ++ lowBits 5 0x01) slice s' :=
      ⟨⟨[], by decide⟩, hread, by decide +kernel⟩
    have hsplits : (s₁.setPicture picture).Splits picture (lowBits 17 0x11008) (lowBits 5 0x01)
        (lowBits 6 0x03) (idrSlice [0xc4, 0x02, 0x03]) idrPicture (idrSlice [0x07]) :=
      ⟨rfl, rfl, rfl, ⟨[], by decide⟩, ⟨lowBits 6 0, by decide⟩, ⟨[], by decide⟩, hinserts⟩
    obtain ⟨hph, slice', haccepts', hslice'⟩ :=
      ((carried_iff_separate mappedLuma_escaped htakes).2 _ _ _ _ _ rfl hsplits).1 slice s' haccepts
    exact ⟨picture, _, slice, slice', s', haccepts, hph, haccepts', hslice'⟩

end Session

end CodedVideo
