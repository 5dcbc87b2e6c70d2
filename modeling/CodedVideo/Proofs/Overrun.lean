import CodedVideo.Proofs.PayloadCursor
import CodedVideo.Proofs.SetFeatures
import CodedVideo.Proofs.SliceBoundary

/-!
# The check against the size of a payload

At the end of a payload the bits that have been read are checked against its size, dropped bytes
taken out.  The check cannot fail, whatever a reader has been through.

A byte of the payload is still to come, has been dropped or has been fetched, and bits that have
been read or are left are those of bytes that have been fetched.  A reader that runs out of bits
halfway forgets what it has fetched but for the last byte, and a dropped byte is counted also
where no byte follows it.  So there may be fewer bits to account for than the payload has, but
there are never more (`BitReader.Accounted`).

Nothing else complains of bits that are not there: every structure is within the features but
`Feature.overrun`.  So no NAL unit is refused for that (`BitReader.never_overruns`).
-/

namespace CodedVideo

open Parse

/-- Something is refused because more bits have been read than there are. -/
def Overran {α : Type} (result : Except ParseError α) : Prop :=
  ∃ decoded available, result = .error (.read (.overrun decoded available))

namespace BitReader

/-- The bits that have been read or are left, and the bytes that are to come or have been dropped,
are no more than the payload has. -/
structure Accounted (whole : Nat) (r : BitReader) : Prop where
  size : r.size = whole
  total : r.position + r.left + 8 * (r.bytes.length + r.removed) ≤ 8 * whole

variable {whole : Nat} {r : BitReader}

theorem accounted_ofBytes (escaped : Bool) (bytes : List UInt8) :
    (ofBytes escaped bytes).Accounted bytes.length where
  size := rfl
  total := by simp [ofBytes]

/-- The check holds of a reader whose bits are accounted for. -/
theorem Accounted.checkOverrun (h : r.Accounted whole) :
    r.removed ≤ whole ∧ r.position ≤ 8 * (whole - r.removed) ∧ r.checkOverrun = .ok () := by
  have htotal := h.total
  have hsize := h.size
  refine ⟨by omega, by omega, if_neg ?_⟩
  rw [hsize]
  omega

/-! ### Operations -/

/-- A fetch takes more out of the bytes to come than it leaves to be read. -/
theorem Accounted.fetch (h : r.Accounted whole) : r.fetch.2.Accounted whole := by
  have htotal := h.total
  unfold BitReader.fetch
  split
  · exact h
  · rename_i byte rest hbytes
    rw [hbytes, List.length_cons] at htotal
    split
    · cases rest with
      | nil => exact ⟨h.size, by rw [List.length_nil] at htotal ⊢; dsimp only; omega⟩
      | cons next rest =>
        rw [List.length_cons] at htotal
        exact ⟨h.size, by dsimp only [load]; omega⟩
    · exact ⟨h.size, by dsimp only [load]; omega⟩

theorem Accounted.gather (h : r.Accounted whole) (count acc : Nat) :
    (gather count acc r).2.Accounted whole := by
  induction count generalizing acc r with
  | zero => exact h
  | succ count ih =>
    have hfetch := h.fetch
    unfold BitReader.gather
    split
    · rename_i hrun
      rwa [hrun] at hfetch
    · rename_i hrun
      rw [hrun] at hfetch
      exact ih hfetch _

/-- The bits that are read come out of those that were left and of whole bytes. -/
theorem Accounted.readBits (h : r.Accounted whole) (n : Nat) :
    (r.readBits n).2.Accounted whole := by
  have hgather := h.gather (r.bytesFor n) (r.current.toNat % pow2 r.left)
  unfold BitReader.readBits
  split
  · exact h
  dsimp only
  split
  · rename_i hrun
    rwa [hrun] at hgather
  · rename_i all r₁ hrun
    obtain ⟨passed, hpassed, -⟩ := gather_passes hrun
    have htotal := h.total
    have hbytes := congrArg List.length hpassed.bytes
    have hremoved := hpassed.removed
    have hfetched := hpassed.fetched
    have hposition := hpassed.position
    have hcount : n ≤ r.left + 8 * r.bytesFor n := by
      unfold bytesFor
      omega
    rw [List.length_append] at hbytes
    exact ⟨hpassed.size.trans h.size, by dsimp only; omega⟩

theorem Accounted.moreData (h : r.Accounted whole) : r.moreData.2.Accounted whole := by
  rw [moreData_snd]
  split
  · exact h.fetch
  · exact h

theorem Accounted.align (h : r.Accounted whole) : r.align.2.Accounted whole := by
  have htotal := h.total
  have hskipped := Nat.mod_le r.left 8
  exact ⟨h.size, by dsimp only [BitReader.align]; omega⟩

theorem Accounted.skipDataUpTo (h : r.Accounted whole) (limit : Nat) :
    (skipDataUpTo limit r).2.Accounted whole := by
  induction limit generalizing r with
  | zero => exact h
  | succ limit ih =>
    have hmore := h.moreData
    unfold BitReader.skipDataUpTo
    split
    · rename_i hrun
      rwa [hrun] at hmore
    · rename_i r₁ hrun
      rw [hrun] at hmore
      have hread := hmore.readBits 1
      split
      · rename_i hrun
        rwa [hrun] at hread
      · rename_i hrun
        rw [hrun] at hread
        exact ih hread

/-! ### Structures -/

/-- **Whatever is asked of a reader leaves its bits accounted for**, also if it fails. -/
theorem Accounted.run {α : Type} (h : r.Accounted whole) (p : Parse α) :
    (p.run r).2.Accounted whole := by
  induction p generalizing r with
  | done value | fail error => exact h
  | bits count next ih =>
    have hread := h.readBits count
    unfold Parse.run
    split
    · rename_i hrun
      rw [hrun] at hread
      exact ih _ hread
    · rename_i hrun
      rwa [hrun] at hread
  | moreData next ih => exact ih _ h.moreData
  | align next ih => exact ih _ h.align
  | skipData next ih =>
    have hskip := h.skipDataUpTo r.bitsLeft
    unfold Parse.run
    split
    · rename_i hrun
      rw [show r.skipDataUpTo _ = _ from hrun] at hskip
      exact ih hskip
    · rename_i hrun
      rwa [show r.skipDataUpTo _ = _ from hrun] at hskip
  | position next ih => exact ih _ h
  | checkOverrun next ih =>
    unfold Parse.run
    split
    · exact ih h
    · exact h

/-! ### Reasons for a refusal -/

variable {r' : BitReader} {e : ReadError}

theorem gather_eq_error {count acc : Nat} (h : BitReader.gather count acc r = (.error e, r')) :
    e = .outOfBits := by
  induction count generalizing acc r with
  | zero => cases h
  | succ count ih =>
    unfold BitReader.gather at h
    split at h
    · rename_i hrun
      cases h
      exact (fetch_eq_error hrun).1
    · exact ih h

theorem readBits_eq_error {n : Nat} (h : r.readBits n = (.error e, r')) :
    e = .tooManyBits n ∨ e = .outOfBits := by
  unfold BitReader.readBits at h
  split at h
  · cases h
    exact .inl rfl
  · dsimp only at h
    split at h
    · rename_i hrun
      cases h
      exact .inr (gather_eq_error hrun)
    · cases h

theorem skipDataUpTo_eq_error {limit : Nat} (h : r.skipDataUpTo limit = (.error e, r')) :
    e = .tooManyBits 1 ∨ e = .outOfBits := by
  induction limit generalizing r with
  | zero => cases h
  | succ limit ih =>
    unfold BitReader.skipDataUpTo at h
    split at h
    · cases h
    · split at h
      · rename_i hrun
        cases h
        exact readBits_eq_error hrun
      · exact ih h

/-- **No structure overruns** a reader whose bits are accounted for, unless it says so itself. -/
theorem Accounted.not_overran {α : Type} {p : Parse α} (h : r.Accounted whole)
    (hp : p.Within (· ≠ .overrun)) : ¬ Overran (p.run r).1 := by
  induction p generalizing r with
  | done value =>
    rintro ⟨_, _, ⟨⟩⟩
  | fail error =>
    rintro ⟨_, _, ⟨⟩⟩
    exact hp .overrun rfl rfl
  | bits count next ih =>
    have hread := h.readBits count
    unfold Parse.run
    split
    · rename_i value r₁ hrun
      rw [hrun] at hread
      exact ih value hread (hp value (readBits_lt hrun))
    · rename_i hrun
      rintro ⟨_, _, herror⟩
      rcases readBits_eq_error hrun with rfl | rfl <;> cases herror
  | moreData next ih => exact ih _ h.moreData (hp.2 _)
  | align next ih => exact ih _ h.align (hp.2 _)
  | skipData next ih =>
    have hskip := h.skipDataUpTo r.bitsLeft
    unfold Parse.run
    split
    · rename_i hrun
      rw [show r.skipDataUpTo _ = _ from hrun] at hskip
      exact ih hskip hp.2
    · rename_i hrun
      rintro ⟨_, _, herror⟩
      rcases skipDataUpTo_eq_error hrun with rfl | rfl <;> cases herror
  | position next ih => exact ih _ h (hp.2 _)
  | checkOverrun next ih =>
    unfold Parse.run
    rw [h.checkOverrun.2.2]
    exact ih h hp.2

end BitReader

/-! ### Headers -/

namespace Session

variable {α β : Type}

namespace Step

/-- The bits of the reader stay accounted for, whether the step is refused or not, and it is not
refused because there were too many. -/
def Accounts (step : Step α) : Prop :=
  ∀ (reading : Reading) {whole : Nat}, reading.reader.Accounted whole →
    (step.run reading).2.reader.Accounted whole ∧ ¬ Overran (step.run reading).1

theorem accounts_pure (a : α) : (pure a : Step α).Accounts := fun _ _ h => ⟨h, nofun⟩

theorem accounts_update (f : Session → Session) : (update f).Accounts := fun _ _ h => ⟨h, nofun⟩

theorem accounts_session : session.Accounts := fun _ _ h => ⟨h, nofun⟩

theorem accounts_extent : extent.Accounts := fun _ _ h => ⟨h, nofun⟩

theorem accounts_ofParse {content : Parse α} (hcontent : content.Within (· ≠ .overrun)) :
    (ofParse content).Accounts :=
  fun _ _ h => ⟨h.run content, h.not_overran hcontent⟩

theorem Accounts.bind_of_keeps {F : Feature → Prop} {Q : α → Prop} {p : Step α} {f : α → Step β}
    (hp : p.Accounts) (hQ : p.Keeps (fun _ => True) F Q) (hf : ∀ a, Q a → (f a).Accounts) :
    (p >>= f).Accounts := by
  intro reading whole h
  have hfront := hp reading h
  have hyields := (hQ reading trivial).2
  rw [run_bind]
  revert hfront hyields
  rcases p.run reading with ⟨e | a, reading₁⟩
  · rintro ⟨hreader, herror⟩ -
    refine ⟨hreader, ?_⟩
    rintro ⟨decoded, available, ⟨⟩⟩
    exact herror ⟨decoded, available, rfl⟩
  · exact fun hfront hyields => hf a hyields reading₁ hfront.1

theorem Accounts.bind {p : Step α} {f : α → Step β} (hp : p.Accounts)
    (hf : ∀ a, (f a).Accounts) : (p >>= f).Accounts :=
  hp.bind_of_keeps (keeps_true p) fun a _ => hf a

theorem accounts_pictureSet (id : Nat) : (pictureSet id).Accounts :=
  accounts_session.bind fun _ => accounts_ofParse within_ofReference

end Step

theorem accounts_pictureStructure (layer : Nat) : (pictureStructure layer).Accounts := by
  refine (Step.accounts_ofParse PictureHeader.within_readStart).bind fun start => ?_
  refine (Step.accounts_pictureSet start.ppsId).bind fun pps => ?_
  refine (Step.accounts_update _).bind fun _ => Step.accounts_session.bind fun s => ?_
  exact Step.accounts_ofParse
    (PictureHeader.within_readRest pps (Sps.within_headerReferences _ _ _) start)

theorem accounts_pictureOfSlice (layer : Nat) (carried : Bool) :
    (pictureOfSlice layer carried).Accounts := by
  unfold pictureOfSlice
  split
  · exact (accounts_pictureStructure layer).bind fun picture =>
      (Step.accounts_update _).bind fun _ => Step.accounts_pure picture
  · exact Step.accounts_session.bind fun _ => Step.accounts_ofParse within_ofReference

theorem accounts_sliceContext (header : Nal.Header) (carriesPicture : Bool) :
    (sliceContext header carriesPicture).Accounts := by
  refine (accounts_pictureOfSlice header.layer carriesPicture).bind fun picture => ?_
  exact (Step.accounts_pictureSet picture.start.ppsId).bind fun pps =>
    Step.accounts_session.bind fun s => Step.accounts_pure _

theorem accounts_finish : (Step.ofParse finish).Accounts :=
  Step.accounts_ofParse (within_finish (by decide) (by decide))

theorem accounts_separatePicture (layer : Nat) : (separatePicture layer).Accounts := by
  refine (accounts_pictureStructure layer).bind fun picture => accounts_finish.bind fun _ => ?_
  exact (Step.accounts_update _).bind fun _ => Step.accounts_pure picture

theorem accounts_sliceElements (header : Nal.Header) : (sliceElements header).Accounts := by
  refine (Step.accounts_ofParse within_flag).bind fun carriesPicture => ?_
  refine (accounts_sliceContext header carriesPicture).bind_of_keeps (F := (· ≠ .overrun))
    (keeps_sliceContext (P := fun _ => True) ⟨fun _ _ _ => trivial, fun _ _ => trivial⟩
      (fun _ _ _ _ _ => trivial) header carriesPicture) fun c hc => ?_
  refine (Step.accounts_ofParse (SliceHeader.within_read (by decide) hc.2)).bind fun slice => ?_
  exact Step.accounts_pure _

theorem accounts_sliceStructure (header : Nal.Header) : (sliceStructure header).Accounts := by
  refine (accounts_sliceElements header).bind fun slice => accounts_finish.bind fun _ => ?_
  refine Step.accounts_session.bind fun s => ?_
  refine (Step.accounts_ofParse (SliceHeader.within_checkReferences _ _)).bind fun _ => ?_
  exact Step.accounts_extent.bind fun extent => Step.accounts_pure _

/-! ### NAL units -/

variable {s : Session} {nal : Nal}

theorem not_overran_checkKind (expected : List Nal.Kind) : ¬ Overran (checkKind expected nal) := by
  unfold checkKind
  split
  · rintro ⟨_, _, ⟨⟩⟩
  · rintro ⟨_, _, ⟨⟩⟩

theorem not_overran_readPayload {content : Parse α} (hcontent : content.Within Feature.OfSet)
    (expected : List Nal.Kind) : ¬ Overran (s.readPayload expected content nal) := by
  rintro ⟨decoded, available, h⟩
  rcases except_bind_eq_error.mp h with h | ⟨_, _, h⟩
  · exact not_overran_checkKind expected ⟨decoded, available, h⟩
  · refine (BitReader.accounted_ofBytes s.escaped nal.payload).not_overran ?_ ⟨_, _, h⟩
    exact hcontent.mono fun _ => And.right

theorem not_overran_register {content : Parse α} (hcontent : content.Within Feature.OfSet)
    (expected : List Nal.Kind) (insert : α → Except StoreError Session) :
    ¬ Overran (s.register expected content insert nal).1 := by
  have hread : ¬ Overran (s.readPayload expected content nal) :=
    not_overran_readPayload hcontent expected
  unfold register
  split
  · rename_i e he
    rw [he] at hread
    rintro ⟨decoded, available, ⟨⟩⟩
    exact hread ⟨decoded, available, rfl⟩
  · split
    · rintro ⟨_, _, ⟨⟩⟩
    · rintro ⟨_, _, ⟨⟩⟩

theorem not_overran_runStep {step : Step α} (hstep : step.Accounts) (expected : List Nal.Kind) :
    ¬ Overran (s.runStep expected step nal).1 := by
  have hkind : ¬ Overran (checkKind expected nal) := not_overran_checkKind expected
  unfold runStep
  split
  · rename_i e he
    rw [he] at hkind
    rintro ⟨decoded, available, ⟨⟩⟩
    exact hkind ⟨decoded, available, rfl⟩
  · exact (hstep _ (BitReader.accounted_ofBytes s.escaped nal.payload)).2

/-- However a NAL unit is read, it is not refused because more bits have been read than there
are. -/
structure NeverOverruns (s : Session) (nal : Nal) : Prop where
  operatingPoint : ¬ Overran (s.readOperatingPoint nal).1
  vps : ¬ Overran (s.readVps nal).1
  sps : ¬ Overran (s.readSps nal).1
  pps : ¬ Overran (s.readPps nal).1
  aps : ¬ Overran (s.readAps nal).1
  delimiter : ¬ Overran (s.readDelimiter nal)
  pictureHeader : ¬ Overran (s.readPictureHeader nal).1
  slice : ¬ Overran (s.readSlice nal).1

theorem neverOverruns (s : Session) (nal : Nal) : s.NeverOverruns nal where
  operatingPoint := not_overran_register OperatingPoint.within_read _ _
  vps := not_overran_register Vps.within_read _ _
  sps := not_overran_register (Sps.within_read _ _) _ _
  pps := not_overran_register (Pps.within_read _) _ _
  aps := not_overran_register (Aps.within_read _) _ _
  delimiter := not_overran_readPayload AccessUnitDelimiter.within_read _
  pictureHeader := not_overran_runStep (accounts_separatePicture _) _
  slice := not_overran_runStep (accounts_sliceStructure _) _

end Session

namespace BitReader

/-- The reader after operations, whether they have failed or not.  An operation is a structure
that asks for it and goes on with nothing. -/
def afterAll (operations : List (Parse Unit)) (r : BitReader) : BitReader :=
  operations.foldl (fun r operation => (operation.run r).2) r

theorem Accounted.afterAll {whole : Nat} {r : BitReader} (h : r.Accounted whole)
    (operations : List (Parse Unit)) : (afterAll operations r).Accounted whole := by
  induction operations generalizing r with
  | nil => exact h
  | cons operation rest ih => exact ih (h.run operation)

/-- **The check against the size of a payload never fails.**  After any operations, failed ones
included, no more bits have been read than the payload has without the dropped bytes.  And no NAL
unit is refused for having been overrun. -/
theorem never_overruns (escaped : Bool) (bytes : List UInt8) (operations : List (Parse Unit)) :
    let r := afterAll operations (ofBytes escaped bytes)
    (r.removed ≤ bytes.length ∧ r.position ≤ 8 * (bytes.length - r.removed) ∧
      r.checkOverrun = .ok ()) ∧
    ∀ (s : Session) (nal : Nal), s.NeverOverruns nal :=
  ⟨((accounted_ofBytes escaped bytes).afterAll operations).checkOverrun,
    Session.neverOverruns⟩

/-- A byte is dropped at the end of the data while a read fails, which comes after one that has
not and before another look ahead. -/
example : afterAll [flag >>= fun _ => pure (), skip 24, Parse.moreData fun _ => pure ()]
      (ofBytes true [0x80, 0, 0, 3]) =
    { bytes := [], current := 0, left := 8, zeroRun := 2, removed := 1, escaped := true
      position := 1, size := 4 } := by
  decide +kernel

end BitReader

end CodedVideo
