import CodedVideo.Proofs.EmulationPrevention
import CodedVideo.Proofs.SliceBoundary

/-!
# Headers do not depend on escaping

A header is read off the bits of its payload, whether emulation prevention bytes, that is,
the bytes `03` behind two zero bytes (`payload_concat`), had to be dropped to get at these
bits or not.  So a picture or slice header comes to the same in an escaped payload as in the
payload that is left when those bytes are taken out, down to the error that refuses it, and
it leaves the same session behind (`Session.unescaped_headers`).  Only the number of bytes
dropped tells the two slice headers apart.

Two readers with the same bits in front of them answer every request alike as long as they
succeed (`BitReader.Agrees`); looking ahead for more data is the exception, which no header
makes use of.  `Step.Agree` says of two parts of headers that they come to related values
and leave the same session, and its rules lead from the requests to whole headers.
-/

namespace CodedVideo

open Parse

/-! ### Bytes that are dropped -/

/-- A dropped byte ends a run of zeros like any other byte but zero, so the zeros that are
counted are those at the end of all bytes, dropped ones included. -/
theorem payload_append (done front back : List UInt8) :
    payload true (zerosAtEnd done) (front ++ back) =
      payload true (zerosAtEnd done) front ++ payload true (zerosAtEnd (done ++ front)) back := by
  induction front generalizing done with
  | nil => rw [List.append_nil, payload_nil, List.nil_append, List.nil_append]
  | cons b front ih =>
    have hnext := ih (done ++ [b])
    rw [zerosAtEnd_concat, List.append_assoc, List.singleton_append] at hnext
    -- A dropped `03` counts as the byte behind which the zeros end.
    by_cases hdrop : true = true ∧ 2 ≤ zerosAtEnd done ∧ b = 3
    · rw [List.cons_append, payload_cons_dropped hdrop, payload_cons_dropped hdrop]
      rwa [hdrop.2.2, nextZeros_of_ne (by decide), ← hdrop.2.2] at hnext
    · rw [List.cons_append, payload_cons_kept hdrop, payload_cons_kept hdrop, List.cons_append]
      exact congrArg (b :: ·) hnext

/-- The bytes that are dropped are those bytes `03` that directly follow two zero bytes. -/
theorem payload_concat (front : List UInt8) (b : UInt8) :
    payload true 0 (front ++ [b]) =
      payload true 0 front ++ if b = 3 ∧ [0, 0] <:+ front then [] else [b] := by
  have hzeros : 2 ≤ zerosAtEnd front ↔ [0, 0] <:+ front := le_zerosAtEnd_iff
  have happend := payload_append [] front [b]
  rw [zerosAtEnd_nil, List.nil_append] at happend
  rw [happend]
  by_cases hdrop : b = 3 ∧ [0, 0] <:+ front
  · rw [if_pos hdrop, payload_cons_dropped ⟨rfl, hzeros.mpr hdrop.2, hdrop.1⟩, payload_nil]
  · rw [if_neg hdrop, payload_cons_kept fun h => hdrop ⟨h.2.2, hzeros.mp h.2.1⟩, payload_nil]

/-! ### Readers -/

namespace BitReader

theorem Balanced.left_eq {r : BitReader} (h : r.Balanced) : r.left = r.unread.length % 8 := by
  have hleft := h.left
  rw [length_unread]
  omega

/-- The readers have the same bits in front of them and have read as many. -/
structure Agrees (r r' : BitReader) : Prop where
  balanced : r.Balanced
  balanced' : r'.Balanced
  unread : r'.unread = r.unread
  position : r'.position = r.position

variable {r r' : BitReader}

theorem Agrees.left (h : r.Agrees r') : r'.left = r.left := by
  rw [h.balanced.left_eq, h.balanced'.left_eq, h.unread]

/-- A read takes the same off both readers, or fails for both. -/
theorem Agrees.readBits (h : r.Agrees r') (n : Nat) :
    (∃ value r₁ r₁', r.readBits n = (.ok value, r₁) ∧ r'.readBits n = (.ok value, r₁') ∧
      r₁.Agrees r₁') ∨
    ∃ e, (r.readBits n).1 = .error e ∧ (r'.readBits n).1 = .error e := by
  by_cases h32 : n ≤ 32
  · by_cases hlength : n ≤ r.unread.length
    · obtain ⟨r₁, hread, hunread, hposition⟩ := r.readBits_of_le h32 hlength
      obtain ⟨r₁', hread', hunread', hposition'⟩ := r'.readBits_of_le h32 (h.unread ▸ hlength)
      rw [h.unread] at hread' hunread'
      refine .inl ⟨_, r₁, r₁', hread, hread', ?_, ?_, ?_, ?_⟩
      · exact (readBits_passes h.balanced hread).1
      · exact (readBits_passes h.balanced' hread').1
      · rw [hunread', hunread]
      · rw [hposition', hposition, h.position]
    · have hshort : r.unread.length < n := Nat.lt_of_not_le hlength
      exact .inr ⟨_, readBits_of_lt h32 hshort, readBits_of_lt h32 (h.unread ▸ hshort)⟩
  · refine .inr ⟨.tooManyBits n, ?_, ?_⟩ <;>
      rw [BitReader.readBits, if_pos (Nat.lt_of_not_le h32)]

/-- The bits of the current byte are the first of the unread ones. -/
theorem take_unread (r : BitReader) : r.unread.take r.left = lowBits r.left r.current.toNat :=
  List.take_left' (length_lowBits r.left _)

theorem Balanced.unread_align (h : r.Balanced) : r.align.2.unread = r.unread.drop r.left := by
  have haligned : r.align.2.left = 0 := (align_passes h).2.1
  have hdrop : r.unread.drop r.left = r.ahead.flatMap byteBits :=
    List.drop_left' (length_lowBits r.left _)
  rw [unread, haligned, lowBits_zero, hdrop]
  rfl

theorem Balanced.align_fst (h : r.Balanced) :
    r.align.1 = (ofBits (r.unread.take r.left) == 0) := by
  have hleft : r.left % 8 = r.left := Nat.mod_eq_of_lt h.left
  rw [take_unread, ofBits_lowBits, BitReader.align, hleft]
  rfl

theorem Agrees.align (h : r.Agrees r') :
    r'.align.1 = r.align.1 ∧ r.align.2.Agrees r'.align.2 := by
  constructor
  · rw [h.balanced.align_fst, h.balanced'.align_fst, h.unread, h.left]
  · refine ⟨(align_passes h.balanced).1, (align_passes h.balanced').1, ?_, ?_⟩
    · rw [h.balanced.unread_align, h.balanced'.unread_align, h.unread, h.left]
    · show r'.position + r'.left % 8 = r.position + r.left % 8
      rw [h.position, h.left]

theorem Balanced.checkOverrun_self (h : r.Balanced) : r.checkOverrun = .ok () :=
  h.checkOverrun r.bytes (Nat.le_add_right _ _)

/-- Readers of a payload agree, whether it is unescaped before it is read or while it is. -/
theorem agrees_ofBytes (bytes : List UInt8) :
    (ofBytes true bytes).Agrees (ofBytes false (payload true 0 bytes)) where
  balanced := balanced_ofBytes true bytes
  balanced' := balanced_ofBytes false _
  unread := by rw [unread_ofBytes, unread_ofBytes, payload_unescaped]
  position := rfl

end BitReader

/-! ### Structures -/

/-- Both runs are accepted with the same value and leave readers that agree, or both are
refused for the same reason. -/
def Parse.SameOutcome {α : Type} :
    Except ParseError α × BitReader → Except ParseError α × BitReader → Prop
  | (.ok value, r), (.ok value', r') => value' = value ∧ r.Agrees r'
  | (.error e, _), (.error e', _) => e' = e
  | (.ok _, _), (.error _, _) => False
  | (.error _, _), (.ok _, _) => False

/-- A structure that does not look ahead comes to the same with readers that agree. -/
theorem Parse.sameOutcome_run {α : Type} {p : Parse α}
    (h : p.Within fun feature => feature ≠ .moreData ∧ feature ≠ .skipData) {r r' : BitReader}
    (hr : r.Agrees r') : SameOutcome (p.run r) (p.run r') := by
  induction p generalizing r r' with
  | done value => exact ⟨rfl, hr⟩
  | fail error => rfl
  | bits count next ih =>
    rw [run, run]
    rcases hr.readBits count with ⟨value, r₁, r₁', hread, hread', hr₁⟩ | ⟨e, hread, hread'⟩
    · rw [hread, hread']
      exact ih value (h value (readBits_lt hread)) hr₁
    · rcases hfst : r.readBits count with ⟨_, r₁⟩
      rcases hfst' : r'.readBits count with ⟨_, r₁'⟩
      rw [hfst] at hread
      rw [hfst'] at hread'
      cases hread
      cases hread'
      rfl
  | moreData next ih => exact absurd rfl h.1.1
  | align next ih =>
    obtain ⟨hzero, hr₁⟩ := hr.align
    show SameOutcome ((next r.align.1).run r.align.2) ((next r'.align.1).run r'.align.2)
    rw [hzero]
    exact ih r.align.1 (h.2 _) hr₁
  | skipData next ih => exact absurd rfl h.1.2
  | position next ih =>
    have hnext := ih r.position (h.2 _) hr
    rw [run, run, hr.position]
    exact hnext
  | checkOverrun next ih =>
    rw [run, run, hr.balanced.checkOverrun_self, hr.balanced'.checkOverrun_self]
    exact ih h.2 hr

/-! ### Parts of headers -/

namespace Session

/-- The session for payloads of the other kind. -/
def withEscaping (s : Session) (escaped : Bool) : Session := { s with escaped }

namespace Step

variable {α β γ δ : Type} {escaped : Bool}

/-- Both parts are accepted with related values and leave readers that agree, or both are
refused for the same reason.  The sessions that they leave differ in nothing but escaping. -/
def Related (escaped : Bool) (R : α → β → Prop) :
    Except ParseError α × Reading → Except ParseError β × Reading → Prop
  | (.ok a, g), (.ok b, g') =>
    R a b ∧ g'.session = g.session.withEscaping escaped ∧ g.reader.Agrees g'.reader
  | (.error e, g), (.error e', g') => e' = e ∧ g'.session = g.session.withEscaping escaped
  | (.ok _, _), (.error _, _) => False
  | (.error _, _), (.ok _, _) => False

/-- The parts come to the same, up to `R`, with readers that agree. -/
def Agree (escaped : Bool) (R : α → β → Prop) (p : Step α) (q : Step β) : Prop :=
  ∀ ⦃s : Session⦄ ⦃r r' : BitReader⦄, r.Agrees r' →
    Related escaped R (p.run ⟨s, r⟩) (q.run ⟨s.withEscaping escaped, r'⟩)

theorem Agree.bind {R : α → β → Prop} {Q : γ → δ → Prop} {p : Step α} {q : Step β}
    {f : α → Step γ} {g : β → Step δ} (h : Agree escaped R p q)
    (hnext : ∀ a b, R a b → Agree escaped Q (f a) (g b)) :
    Agree escaped Q (p >>= f) (q >>= g) := by
  intro s r r' hr
  have hfirst := h (s := s) hr
  rw [run_bind, run_bind]
  revert hfirst
  rcases p.run ⟨s, r⟩ with ⟨e | a, s₁, r₁⟩ <;>
    rcases q.run ⟨s.withEscaping escaped, r'⟩ with ⟨e' | b, s₁', r₁'⟩
  · exact fun hfirst => hfirst
  · exact fun hfirst => hfirst.elim
  · exact fun hfirst => hfirst.elim
  · rintro ⟨hab, hs, hr₁⟩
    dsimp only at hs
    subst hs
    exact hnext a b hab hr₁

theorem agree_pure {R : α → β → Prop} {a : α} {b : β} (h : R a b) :
    Agree escaped R (pure a) (pure b) :=
  fun _ _ _ hr => ⟨h, rfl, hr⟩

theorem agree_ofParse {content : Parse α}
    (h : content.Within fun feature => feature ≠ .moreData ∧ feature ≠ .skipData) :
    Agree escaped Eq (ofParse content) (ofParse content) := by
  intro s r r' hr
  have hsame := sameOutcome_run h hr
  rw [run_ofParse, run_ofParse]
  revert hsame
  rcases content.run r with ⟨e | a, r₁⟩ <;> rcases content.run r' with ⟨e' | b, r₁'⟩
  · exact fun hsame => ⟨hsame, rfl⟩
  · exact fun hsame => hsame.elim
  · exact fun hsame => hsame.elim
  · exact fun hsame => ⟨hsame.1.symm, rfl, hsame.2⟩

theorem agree_update {f : Session → Session}
    (h : ∀ s, f (s.withEscaping escaped) = (f s).withEscaping escaped) :
    Agree escaped Eq (update f) (update f) :=
  fun s _ _ hr => ⟨rfl, h s, hr⟩

theorem agree_session :
    Agree escaped (fun s s' => s' = s.withEscaping escaped) session session :=
  fun _ _ _ hr => ⟨rfl, rfl, hr⟩

theorem agree_extent :
    Agree escaped (fun (n n' : Nat × Nat) => n'.1 = n.1) extent extent :=
  fun _ _ _ hr => ⟨hr.position, rfl, hr⟩

theorem agree_pictureSet (id : Nat) : Agree escaped Eq (pictureSet id) (pictureSet id) := by
  refine agree_session.bind ?_
  rintro s _ rfl
  exact agree_ofParse within_ofReference

end Step

open Step (Agree)

variable {escaped : Bool}

theorem agree_pictureStructure (layer : Nat) :
    Agree escaped Eq (pictureStructure layer) (pictureStructure layer) := by
  refine (Step.agree_ofParse PictureHeader.within_readStart).bind ?_
  rintro start _ rfl
  refine (Step.agree_pictureSet start.ppsId).bind ?_
  rintro pps _ rfl
  refine (Step.agree_update fun _ => rfl).bind ?_
  rintro _ _ rfl
  refine Step.agree_session.bind ?_
  rintro s _ rfl
  exact Step.agree_ofParse
    (PictureHeader.within_readRest pps (Sps.within_headerReferences _ _ _) start)

theorem agree_setPicture (picture : PictureHeader) :
    Agree escaped Eq (do Step.update (setPicture picture); return picture)
      (do Step.update (setPicture picture); return picture) := by
  refine (Step.agree_update fun _ => rfl).bind ?_
  rintro _ _ rfl
  exact Step.agree_pure rfl

theorem agree_separatePicture (layer : Nat) :
    Agree escaped Eq (separatePicture layer) (separatePicture layer) := by
  refine (agree_pictureStructure layer).bind ?_
  rintro picture _ rfl
  refine (Step.agree_ofParse (within_finish (by decide) (by decide))).bind ?_
  rintro _ _ rfl
  exact agree_setPicture picture

theorem agree_pictureOfSlice (layer : Nat) (carried : Bool) :
    Agree escaped Eq (pictureOfSlice layer carried) (pictureOfSlice layer carried) := by
  unfold pictureOfSlice
  cases carried with
  | true =>
    refine (agree_pictureStructure layer).bind ?_
    rintro picture _ rfl
    exact agree_setPicture picture
  | false =>
    refine Step.agree_session.bind ?_
    rintro s _ rfl
    exact Step.agree_ofParse within_ofReference

theorem agree_sliceElements (header : Nal.Header) :
    Agree escaped Eq (sliceElements header) (sliceElements header) := by
  refine (Step.agree_ofParse within_flag).bind ?_
  rintro carriesPicture _ rfl
  have hcontext : Agree escaped
      (fun c c' => c = c' ∧
        c.references.Within fun feature => feature ≠ .moreData ∧ feature ≠ .skipData)
      (sliceContext header carriesPicture) (sliceContext header carriesPicture) := by
    refine (agree_pictureOfSlice header.layer carriesPicture).bind ?_
    rintro picture _ rfl
    refine (Step.agree_pictureSet picture.start.ppsId).bind ?_
    rintro pps _ rfl
    refine Step.agree_session.bind ?_
    rintro s _ rfl
    exact Step.agree_pure ⟨rfl, Sps.within_headerReferences _ _ _⟩
  refine hcontext.bind ?_
  rintro c _ ⟨rfl, hreferences⟩
  refine (Step.agree_ofParse (SliceHeader.within_read (by decide) hreferences)).bind ?_
  rintro slice _ rfl
  exact Step.agree_pure rfl

/-- Slice headers agree but for the number of bytes dropped. -/
theorem agree_sliceStructure (header : Nal.Header) :
    Agree escaped (fun slice slice' => slice' = { slice with escapes := slice'.escapes })
      (sliceStructure header) (sliceStructure header) := by
  refine (agree_sliceElements header).bind ?_
  rintro slice _ rfl
  refine (Step.agree_ofParse (within_finish (by decide) (by decide))).bind ?_
  rintro _ _ rfl
  refine Step.agree_session.bind ?_
  rintro s _ rfl
  refine (Step.agree_ofParse (SliceHeader.within_checkReferences _ _)).bind ?_
  rintro _ _ rfl
  refine Step.agree_extent.bind ?_
  rintro ⟨bits, escapes⟩ ⟨_, escapes'⟩ rfl
  exact Step.agree_pure rfl

/-! ### NAL units -/

variable {α β : Type}

/-- Both calls accept their unit with related values, or both refuse it for the same
reason.  The second one leaves the session of the first for payloads without escapes. -/
def Unescaped (R : α → β → Prop) :
    Except ParseError α × Session → Except ParseError β × Session → Prop
  | (.ok a, s), (.ok b, s') => R a b ∧ s' = s.withEscaping false
  | (.error e, s), (.error e', s') => e' = e ∧ s' = s.withEscaping false
  | (.ok _, _), (.error _, _) => False
  | (.error _, _), (.ok _, _) => False

theorem Unescaped.eq_map {R : α → β → Prop} {f : α → β} {x : Except ParseError α × Session}
    {y : Except ParseError β × Session} (h : Unescaped R x y)
    (hf : ∀ a b, R a b → y.1 = .ok b → b = f a) :
    y = (x.1.map f, x.2.withEscaping false) := by
  rcases x with ⟨e | a, s⟩ <;> rcases y with ⟨e' | b, s'⟩
  · obtain ⟨rfl, rfl⟩ := h
    rfl
  · exact h.elim
  · exact h.elim
  · obtain ⟨hab, rfl⟩ := h
    rw [hf a b hab rfl]
    rfl

theorem Step.Related.unescaped {R : α → β → Prop} {x : Except ParseError α × Reading}
    {y : Except ParseError β × Reading} (h : Step.Related false R x y) :
    Unescaped R (x.1, x.2.session) (y.1, y.2.session) := by
  rcases x with ⟨e | a, s, r⟩ <;> rcases y with ⟨e' | b, s', r'⟩
  · exact h
  · exact h.elim
  · exact h.elim
  · exact ⟨h.1, h.2.1⟩

variable (s : Session) {nal nal' : Nal}

theorem runStep_unescaped {R : α → β → Prop} {p : Step α} {q : Step β} (h : Agree false R p q)
    (expected : List Nal.Kind) (hheader : nal'.header = nal.header)
    (hpayload : nal'.payload = payload true 0 nal.payload) :
    Unescaped R ((s.withEscaping true).runStep expected p nal)
      ((s.withEscaping false).runStep expected q nal') := by
  unfold runStep checkKind
  rw [hheader]
  by_cases hkind : nal.header.kind ∈ expected
  · rw [if_pos hkind]
    have hreaders := BitReader.agrees_ofBytes nal.payload
    rw [← hpayload] at hreaders
    exact (h (s := s.withEscaping true) hreaders).unescaped
  · rw [if_neg hkind]
    exact ⟨rfl, rfl⟩

theorem readPictureHeader_unescaped (hheader : nal'.header = nal.header)
    (hpayload : nal'.payload = payload true 0 nal.payload) :
    Unescaped Eq ((s.withEscaping true).readPictureHeader nal)
      ((s.withEscaping false).readPictureHeader nal') := by
  unfold readPictureHeader
  rw [hheader]
  exact s.runStep_unescaped (agree_separatePicture nal.header.layer) _ hheader hpayload

theorem readSlice_unescaped (hheader : nal'.header = nal.header)
    (hpayload : nal'.payload = payload true 0 nal.payload) :
    Unescaped (fun slice slice' => slice' = { slice with escapes := slice'.escapes })
      ((s.withEscaping true).readSlice nal) ((s.withEscaping false).readSlice nal') := by
  unfold readSlice
  rw [hheader]
  exact s.runStep_unescaped (agree_sliceStructure nal.header) _ hheader hpayload

/-- **Headers do not depend on escaping.**  Whatever the session keeps, a header in an
escaped payload is read as it is in the payload without its emulation prevention bytes:
it is refused for the same reason or accepted with the same elements, and the session
after it is the same. -/
theorem unescaped_headers (hheader : nal'.header = nal.header)
    (hpayload : nal'.payload = payload true 0 nal.payload) :
    (s.withEscaping false).readPictureHeader nal' =
        (((s.withEscaping true).readPictureHeader nal).1,
          ((s.withEscaping true).readPictureHeader nal).2.withEscaping false) ∧
      (s.withEscaping false).readSlice nal' =
        (((s.withEscaping true).readSlice nal).1.map fun slice => { slice with escapes := 0 },
          ((s.withEscaping true).readSlice nal).2.withEscaping false) := by
  constructor
  · have heq := (s.readPictureHeader_unescaped hheader hpayload).eq_map (f := id)
      fun _ _ hab _ => hab.symm
    rwa [Except.map_id] at heq
  · refine (s.readSlice_unescaped hheader hpayload).eq_map fun slice slice' hsame hread => ?_
    have hescapes : slice'.escapes = 0 := escapes_eq_zero rfl (Prod.ext hread rfl)
    rw [hsame, hescapes]

/-- The slice of `sliceBefore` with nothing dropped and nothing to drop. -/
def plainSlice : Nal where
  header := { kind := .idrNoLeading, temporalIdPlus1 := 1 }
  bytes := [0x00, 0x41, 0xc4, 0x00, 0x00, 0x30]

theorem unescaped_headers_longCounts : ∃ slice s', slice.escapes = 1 ∧
    (longCounts.withEscaping true).readSlice (sliceBefore []) = (.ok slice, s') ∧
    (longCounts.withEscaping false).readSlice plainSlice =
      (.ok { slice with escapes := 0 }, s'.withEscaping false) := by
  have hcheck : (match ((longCounts.withEscaping true).readSlice (sliceBefore [])).1 with
    | .ok slice => slice.escapes == 1
    | .error _ => false) = true := by
    decide +kernel
  have hpayload : plainSlice.payload = payload true 0 (sliceBefore []).payload := by decide
  have hplain := (@unescaped_headers longCounts (sliceBefore []) plainSlice rfl hpayload).2
  rcases hread : (longCounts.withEscaping true).readSlice (sliceBefore []) with ⟨e | slice, s'⟩
  · rw [hread] at hcheck
    cases hcheck
  · rw [hread] at hcheck hplain
    exact ⟨slice, s', beq_iff_eq.mp hcheck, rfl, hplain⟩

end Session

end CodedVideo
