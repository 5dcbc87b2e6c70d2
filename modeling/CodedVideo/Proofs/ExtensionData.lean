import CodedVideo.Proofs.EscapeTransparency
import CodedVideo.Proofs.SetFeatures
import CodedVideo.Proofs.StopBit

/-!
# Extension data

Behind its elements a parameter set may announce extension data.  They are skipped, and the stop
bit comes behind them.  The announcement is a flag that comes next, but in a sequence parameter
set it is one of the elements, which end with the range extension.

The elements are read off the bits that they take alone, and nothing that they ask for depends on
what comes later (`BitReader.Shares.run`).  What comes later is skipped whatever it is
(`Parse.Skips`).  So for payloads without emulation prevention bytes it does not matter what the
extension data are, or how many of them there are (`Session.extension_ignored`).
-/

namespace CodedVideo

open Parse BitReader

/-! ### Readers with the same bits in front -/

namespace BitReader

/-- The readers have read as many bits and have `front` in front of them.  Behind that they
need not have the same. -/
structure Shares (front tail tail' : List Bool) (r r' : BitReader) : Prop where
  balanced : r.Balanced
  balanced' : r'.Balanced
  escaped' : r'.escaped = false
  position : r'.position = r.position
  unread : r.unread = front ++ tail
  unread' : r'.unread = front ++ tail'

namespace Shares

variable {front tail tail' : List Bool} {r r' : BitReader}

/-- Both readers are as far from the next byte. -/
theorem left (h : Shares front tail tail' r r') : r'.left = r.left := by
  have hleft := h.balanced.left
  have htotal := h.balanced.total
  have hleft' := h.balanced'.left
  have htotal' := h.balanced'.total
  have hposition := h.position
  omega

/-- A read that stays within the bits in front takes the same off both readers. -/
theorem readBits {n value : Nat} {r₁ : BitReader} (h : Shares front tail tail' r r')
    (hread : r.readBits n = (.ok value, r₁)) (hn : n ≤ front.length) :
    ∃ r₁', r'.readBits n = (.ok value, r₁') ∧ Shares (front.drop n) tail tail' r₁ r₁' := by
  obtain ⟨h32, hlength, rfl, hunread, hposition⟩ := readBits_eq_ok hread
  have hlength' : n ≤ r'.unread.length := by
    rw [h.unread', List.length_append]
    omega
  obtain ⟨r₁', hread', hunread', hposition'⟩ := r'.readBits_of_le h32 hlength'
  obtain ⟨hbalanced', _, hpassed', -⟩ := readBits_passes h.balanced' hread'
  have hsame : r'.unread.take n = r.unread.take n := by
    rw [h.unread, h.unread', List.take_append_of_le_length hn, List.take_append_of_le_length hn]
  rw [hsame] at hread'
  refine ⟨r₁', hread', (readBits_passes h.balanced hread).1, hbalanced', ?_, ?_, ?_, ?_⟩
  · rw [hpassed'.escaped, h.escaped']
  · rw [hposition', hposition, h.position]
  · rw [hunread, h.unread, List.drop_append_of_le_length hn]
  · rw [hunread', h.unread', List.drop_append_of_le_length hn]

/-- The next byte begins within the bits in front, and the bits up to it are the same. -/
theorem align (h : Shares front tail tail' r r') (hn : r.left ≤ front.length) :
    r'.align.1 = r.align.1 ∧
      Shares (front.drop r.left) tail tail' r.align.2 r'.align.2 := by
  obtain ⟨hbalanced, -, -⟩ := align_passes h.balanced
  obtain ⟨hbalanced', -, hpassed'⟩ := align_passes h.balanced'
  have hn' : r'.left ≤ front.length := h.left ▸ hn
  refine ⟨?_, hbalanced, hbalanced', ?_, ?_, ?_, ?_⟩
  · rw [h.balanced.align_fst, h.balanced'.align_fst, h.unread, h.unread',
      List.take_append_of_le_length hn, List.take_append_of_le_length hn', h.left]
  · rw [hpassed'.escaped, h.escaped']
  · show r'.position + r'.left % 8 = r.position + r.left % 8
    rw [h.position, h.left]
  · rw [h.balanced.unread_align, h.unread, List.drop_append_of_le_length hn]
  · rw [h.balanced'.unread_align, h.unread', List.drop_append_of_le_length hn', h.left]

end Shares

end BitReader

/-! ### Elements -/

namespace Parse

variable {α β : Type}

/-- No bit that has been read is given back. -/
theorem position_le_of_run {p : Parse α}
    (hp : p.Within fun feature => feature ≠ .moreData ∧ feature ≠ .skipData) {r r₁ : BitReader}
    {value : α} (hrun : p.run r = (.ok value, r₁)) : r.position ≤ r₁.position := by
  induction p generalizing r with
  | done a =>
    cases hrun
    exact le_rfl
  | fail e => cases hrun
  | bits count next ih =>
    rw [run] at hrun
    split at hrun
    · rename_i n r' hread
      obtain ⟨-, -, -, -, hposition⟩ := readBits_eq_ok hread
      have hnext := ih n (hp n (readBits_lt hread)) hrun
      omega
    · cases hrun
  | moreData next ih => exact absurd rfl hp.1.1
  | align next ih => exact (Nat.le_add_right _ _).trans (ih _ (hp.2 _) hrun)
  | skipData next ih => exact absurd rfl hp.1.2
  | position next ih => exact ih _ (hp.2 _) hrun
  | checkOverrun next ih =>
    rw [run] at hrun
    split at hrun
    · exact ih hp.2 hrun
    · cases hrun

/-- The structure takes just the bits `front`, and what it yields announces extension data. -/
def Fills (p : Parse α) (r : BitReader) (front : List Bool) (announces : α → Prop) : Prop :=
  match p.run r with
  | (.ok a, r₁) => r₁.position = r.position + front.length ∧ announces a
  | (.error _, _) => False

theorem fills_iff {p : Parse α} {r : BitReader} {front : List Bool} {announces : α → Prop} :
    p.Fills r front announces ↔ ∃ a r₁, p.run r = (.ok a, r₁) ∧
      r₁.position = r.position + front.length ∧ announces a := by
  unfold Fills
  rcases p.run r with ⟨e | a, r₁⟩
  · simp
  · simp

instance {p : Parse α} {r : BitReader} {front : List Bool} {announces : α → Prop}
    [DecidablePred announces] : Decidable (p.Fills r front announces) :=
  match h : p.run r with
  | (.ok a, r₁) => decidable_of_iff (r₁.position = r.position + front.length ∧ announces a)
      (by rw [Fills, h])
  | (.error _, _) => .isFalse (by rw [Fills, h]; exact id)

end Parse

/-- **Elements are read off the bits that they take.**  If these are the same, another reader
yields the same and is left as far on. -/
theorem BitReader.Shares.run {α : Type} {p : Parse α}
    (hp : p.Within fun feature => feature ≠ .moreData ∧ feature ≠ .skipData)
    {front tail tail' : List Bool} {r r' r₁ : BitReader} (h : Shares front tail tail' r r')
    {value : α} (hrun : p.run r = (.ok value, r₁))
    (hend : r₁.position = r.position + front.length) :
    ∃ r₁', p.run r' = (.ok value, r₁') ∧ Shares [] tail tail' r₁ r₁' := by
  induction p generalizing r r' front with
  | done a =>
    cases hrun
    obtain rfl : front = [] := List.eq_nil_of_length_eq_zero (by omega)
    exact ⟨r', rfl, h⟩
  | fail e => cases hrun
  | bits count next ih =>
    rw [Parse.run] at hrun ⊢
    split at hrun
    · rename_i n r₂ hread
      have hnext := hp n (readBits_lt hread)
      -- A read beyond the bits in front would have left them behind at the end.
      have hle := position_le_of_run hnext hrun
      obtain ⟨-, -, -, -, hposition⟩ := readBits_eq_ok hread
      have hcount : count ≤ front.length := by omega
      obtain ⟨r₂', hread', hshares⟩ := h.readBits hread hcount
      rw [hread']
      refine ih n hnext hshares hrun ?_
      rw [List.length_drop]
      omega
    · cases hrun
  | moreData next ih => exact absurd rfl hp.1.1
  | align next ih =>
    have hle := position_le_of_run (hp.2 _) hrun
    have hposition : r.align.2.position = r.position + r.left := by
      show r.position + r.left % 8 = r.position + r.left
      rw [Nat.mod_eq_of_lt h.balanced.left]
    have hcount : r.left ≤ front.length := by
      change r.align.2.position ≤ _ at hle
      omega
    obtain ⟨hzero, hshares⟩ := h.align hcount
    rw [Parse.run] at hrun ⊢
    dsimp only at hrun ⊢
    rw [hzero]
    refine ih _ (hp.2 _) hshares hrun ?_
    rw [List.length_drop]
    omega
  | skipData next ih => exact absurd rfl hp.1.2
  | position next ih =>
    rw [Parse.run] at hrun ⊢
    rw [h.position]
    exact ih _ (hp.2 _) h hrun hend
  | checkOverrun next ih =>
    rw [Parse.run, h.balanced.checkOverrun_self] at hrun
    rw [Parse.run, h.balanced'.checkOverrun_self]
    exact ih hp.2 h hrun hend

/-! ### What comes behind the elements -/

namespace Parse

variable {α β : Type}

/-- With a stop bit behind them any data can be skipped, and the payload ends there. -/
theorem run_skipData_of_unread {r : BitReader} (hr : r.Balanced) (hplain : r.escaped = false)
    {data : List Bool} {k : Nat} (hunread : r.unread = data ++ true :: List.replicate k false) :
    ∃ r₁, (skipData finish).run r = (.ok (), r₁) := by
  obtain ⟨r₁, hskip, hr₁, hleft, hrest⟩ := (hr.plain hplain).exists_skipData hunread
  rw [run, hskip]
  exact hr₁.exists_finish hleft hrest

/-- If the elements announce extension data, what is read of the set is told by the elements,
whatever data come behind these and the flags, and the set notes that there are some. -/
def Skips (content : Parse α) (elements : Parse β) (announces : β → Prop) (flags : List Bool)
    (notes : α → Prop) : Prop :=
  ∀ b, announces b → ∃ set, notes set ∧ ∀ ⦃r r₁ : BitReader⦄ ⦃data : List Bool⦄ ⦃k : Nat⦄,
    elements.run r = (.ok b, r₁) → r₁.Balanced → r₁.escaped = false →
    r₁.unread = flags ++ (data ++ true :: List.replicate k false) → (content.run r).1 = .ok set

/-- Behind a flag that is set the data are skipped. -/
theorem run_extension_bind {f : Bool → Parse α} {r r₁ : BitReader}
    (hflag : flag.run r = (.ok true, r₁)) :
    (extension >>= f).run r = (skipData (f true)).run r₁ := by
  have hskip : extension.run r = (skipData (done true)).run r₁ := by
    rw [extension, run_bind_of_ok hflag]
    rfl
  rw [run_bind, hskip, run, run]
  rcases r₁.skipData with ⟨_ | _, _⟩ <;> rfl

/-- Behind the elements a flag announces the data. -/
theorem skips_withExtension (elements : Parse α) {note : α → Bool → α} {notes : α → Prop}
    (hnotes : ∀ a, notes (note a true)) :
    (withExtension elements note).Skips elements (fun _ => True) [true] notes := by
  intro a _
  refine ⟨note a true, hnotes a, fun r r₁ data k hrun hr₁ hplain hunread => ?_⟩
  obtain ⟨r₂, hflag, hrest, -⟩ := reads_flag true r₁ _ hunread
  obtain ⟨hr₂, _, hpassed, -⟩ := local_of_within within_flag hr₁ hflag
  obtain ⟨r₃, hend⟩ := run_skipData_of_unread hr₂ (hpassed.escaped.trans hplain) hrest
  rw [withExtension, run_bind_of_ok hrun, run_extension_bind hflag]
  show ((skipData finish >>= fun _ => pure (note a true)).run r₂).1 = _
  rw [run_bind_of_ok hend]
  rfl

end Parse

open Parse

/-- In a sequence parameter set the elements themselves announce the data. -/
theorem Sps.skips_read (vpsOf : Nat → Option Vps) (layer : Nat) :
    (read vpsOf layer).Skips (readElements vpsOf layer) (·.otherExtensions ≠ 0) []
      (·.otherExtensions ≠ 0) := by
  intro sps hother
  refine ⟨sps, hother, fun r r₁ data k hrun hr₁ hplain hunread => ?_⟩
  obtain ⟨r₂, hend⟩ := run_skipData_of_unread hr₁ hplain hunread
  have hskip : readEnd sps = skipData finish := by
    rw [readEnd, if_pos (bne_iff_ne.mpr hother)]
    rfl
  rw [read, run_bind_of_ok hrun, hskip, run_bind_of_ok hend]
  rfl

/-! ### Payloads with other extension data -/

/-- The payload is `front`, then `data`, and at its end a stop bit and zeros. -/
def Nal.Extended (nal : Nal) (front data : List Bool) : Prop :=
  ∃ k, nal.payload.flatMap byteBits = front ++ data ++ true :: List.replicate k false

namespace Session

variable {α β : Type} {s : Session} {nal nal' : Nal} {front data data' : List Bool}

/-- Whatever extension data a set is accepted with, it is accepted with any other as well: the
set and the session come out the same.  The payloads have the elements in front, which announce
the data themselves or with the flags behind them, and the set notes that. -/
def IgnoresExtension (s : Session) (elements : Nal.Header → Parse β) (announces : β → Prop)
    (flags : List Bool) (notes : α → Prop) (read : Nal → Except ParseError α × Session) : Prop :=
  ∀ ⦃nal nal' : Nal⦄ ⦃front data data' : List Bool⦄, nal'.header = nal.header →
    nal.Extended (front ++ flags) data → nal'.Extended (front ++ flags) data' →
    (elements nal.header).Fills (s.readerFor nal) front announces →
    ∀ ⦃set s'⦄, read nal = (.ok set, s') → notes set ∧ read nal' = (.ok set, s')

/-- The payloads have the same bits in front of the extension data. -/
theorem shares_readerFor (hplain : s.escaped = false) {flags : List Bool} {k k' : Nat}
    (hnal : nal.payload.flatMap byteBits =
      front ++ flags ++ data ++ true :: List.replicate k false)
    (hnal' : nal'.payload.flatMap byteBits =
      front ++ flags ++ data' ++ true :: List.replicate k' false) :
    Shares front (flags ++ (data ++ true :: List.replicate k false))
      (flags ++ (data' ++ true :: List.replicate k' false)) (s.readerFor nal)
      (s.readerFor nal') := by
  refine ⟨balanced_ofBytes _ _, balanced_ofBytes _ _, hplain, rfl, ?_, ?_⟩
  · rw [readerFor, unread_ofBytes, hplain, payload_unescaped, hnal]
    simp only [List.append_assoc]
  · rw [readerFor, unread_ofBytes, hplain, payload_unescaped, hnal']
    simp only [List.append_assoc]

/-- The same is read of both payloads. -/
theorem exists_run_of_fills (hplain : s.escaped = false) {content : Parse α} {elements : Parse β}
    {announces : β → Prop} {flags : List Bool} {notes : α → Prop}
    (hskips : content.Skips elements announces flags notes)
    (hwithin : elements.Within fun feature => feature ≠ .moreData ∧ feature ≠ .skipData)
    (hnal : nal.Extended (front ++ flags) data) (hnal' : nal'.Extended (front ++ flags) data')
    (hfills : elements.Fills (s.readerFor nal) front announces) :
    ∃ set, notes set ∧ (content.run (s.readerFor nal)).1 = .ok set ∧
      (content.run (s.readerFor nal')).1 = .ok set := by
  obtain ⟨k, hnal⟩ := hnal
  obtain ⟨k', hnal'⟩ := hnal'
  obtain ⟨b, r₁, hrun, hend, hb⟩ := fills_iff.mp hfills
  obtain ⟨r₁', hrun', hshares⟩ := (shares_readerFor hplain hnal hnal').run hwithin hrun hend
  obtain ⟨set, hnotes, hset⟩ := hskips b hb
  have hplain₁ : r₁.escaped = false := by
    obtain ⟨-, _, hpassed, -⟩ := local_of_within hwithin (balanced_ofBytes _ _) hrun
    exact hpassed.escaped.trans hplain
  exact ⟨set, hnotes, hset hrun hshares.balanced hplain₁ hshares.unread,
    hset hrun' hshares.balanced' hshares.escaped' hshares.unread'⟩

/-- A set is registered the same from payloads of which the same is read. -/
theorem register_congr {expected : List Nal.Kind} {content : Parse α}
    {insert : α → Except StoreError Session} (hheader : nal'.header = nal.header)
    (h : (content.run (s.readerFor nal')).1 = (content.run (s.readerFor nal)).1) :
    s.register expected content insert nal' = s.register expected content insert nal := by
  have hread : s.readPayload expected content nal' = s.readPayload expected content nal := by
    rw [readPayload, readPayload, h, checkKind, checkKind, hheader]
  rw [register, register, hread]

theorem ignoresExtension_register (hplain : s.escaped = false) {content : Nal.Header → Parse α}
    {elements : Nal.Header → Parse β} {announces : β → Prop} {flags : List Bool} {notes : α → Prop}
    (hskips : ∀ header, (content header).Skips (elements header) announces flags notes)
    (hwithin : ∀ header, (elements header).Within fun feature =>
      feature ≠ .moreData ∧ feature ≠ .skipData)
    (expected : List Nal.Kind) (insert : α → Except StoreError Session) :
    s.IgnoresExtension elements announces flags notes fun nal =>
      s.register expected (content nal.header) insert nal := by
  intro nal nal' front data data' hheader hnal hnal' hfills set s' hread
  obtain ⟨value, hnotes, hvalue, hvalue'⟩ :=
    exists_run_of_fills hplain (hskips nal.header) (hwithin nal.header) hnal hnal' hfills
  have hset : ((content nal.header).run (s.readerFor nal)).1 = .ok set :=
    run_of_register (congrArg Prod.fst hread)
  obtain rfl : value = set := Except.ok.inj (hvalue.symm.trans hset)
  refine ⟨hnotes, ?_⟩
  dsimp only at hread ⊢
  rw [hheader, register_congr hheader (hvalue'.trans hvalue.symm)]
  exact hread

/-- **What comes behind an extension flag does not matter** for payloads without emulation
prevention bytes.  In a sequence parameter set it is not a flag but the number of the other
extensions, and the range extension comes in between. -/
theorem extension_ignored (s : Session) (hplain : s.escaped = false) :
    s.IgnoresExtension (fun _ => OperatingPoint.readElements) (fun _ => True) [true]
        (fun _ => True) s.readOperatingPoint ∧
      s.IgnoresExtension (fun _ => Vps.readElements) (fun _ => True) [true] (·.extension)
        s.readVps ∧
      s.IgnoresExtension (fun header => Sps.readElements s.videoSets.get? header.layer)
        (·.otherExtensions ≠ 0) [] (·.otherExtensions ≠ 0) s.readSps ∧
      s.IgnoresExtension (fun _ => Pps.readElements s.sequenceSets.get?) (fun _ => True) [true]
        (·.extension) s.readPps ∧
      s.IgnoresExtension (fun header => Aps.readElements header.layer) (fun _ => True) [true]
        (·.extension) s.readAps := by
  refine ⟨?_, ?_, ?_, ?_, ?_⟩
  · exact ignoresExtension_register hplain (fun _ => skips_withExtension _ fun _ => trivial)
      (fun _ => OperatingPoint.within_readElements) _ _
  · exact ignoresExtension_register hplain (fun _ => skips_withExtension _ fun _ => rfl)
      (fun _ => Vps.within_readElements (by decide)) _ _
  · exact ignoresExtension_register hplain (fun _ => Sps.skips_read _ _)
      (fun _ => Sps.within_readElements (by decide) (by decide) (by decide) _ _) _ _
  · exact ignoresExtension_register hplain (fun _ => skips_withExtension _ fun _ => rfl)
      (fun _ => Pps.within_readElements (by decide) _) _ _
  · exact ignoresExtension_register hplain (fun _ => skips_withExtension _ fun _ => rfl)
      (fun _ => Aps.within_readElements _) _ _

/-- Both payloads are accepted, and the set and the session come out the same. -/
def AcceptsAlike (notes : α → Prop) (read : Nal → Except ParseError α × Session)
    (nal nal' : Nal) : Prop :=
  ∃ set s', notes set ∧ read nal = (.ok set, s') ∧ read nal' = (.ok set, s')

theorem IgnoresExtension.acceptsAlike {elements : Nal.Header → Parse β} {announces : β → Prop}
    {flags : List Bool} {notes : α → Prop} {read : Nal → Except ParseError α × Session}
    (h : s.IgnoresExtension elements announces flags notes read) (front data data' : List Bool)
    (hheader : nal'.header = nal.header)
    (hnal : nal.Extended (front ++ flags) data) (hnal' : nal'.Extended (front ++ flags) data')
    (hfills : (elements nal.header).Fills (s.readerFor nal) front announces)
    (haccepted : (read nal).1.isOk = true) : AcceptsAlike notes read nal nal' := by
  rcases hread : read nal with ⟨e | set, s'⟩
  · rw [hread] at haccepted
    cases haccepted
  · obtain ⟨hnotes, hread'⟩ := h hheader hnal hnal' hfills hread
    exact ⟨set, s', hnotes, hread, hread'⟩

/-- A unit with a payload behind the two bytes of its header. -/
def unitOf (kind : Nal.Kind) (payload : List UInt8) : Nal where
  header := { kind, temporalIdPlus1 := 1 }
  bytes := 0x00 :: UInt8.ofNat (8 * kind.code + 1) :: payload

/-- Operating point information up to its extension flag. -/
def pointElements : List Bool := ([0xc8, 0x80].flatMap byteBits).take 10

/-- A video parameter set of one layer up to its extension flag. -/
def videoElements : List Bool := [0x10, 0x00, 0x00, 0x02, 0x33, 0x1f, 0x00].flatMap byteBits

/-- A sequence parameter set that announces other extensions, up to its range extension. -/
def sequenceElements : List Bool :=
  ([0x00, 0x09, 0x02, 0x33, 0x80, 0x00, 0x00, 0x82, 0x04, 0x11, 0x88, 0x02, 0xf6, 0xc3, 0xe0,
    0x30, 0x10, 0x40, 0x00, 0x34, 0x30].flatMap byteBits).take 167

/-- A picture parameter set up to its extension flag. -/
def pictureElements : List Bool :=
  ([0x00, 0x00, 0x41, 0x02, 0x08, 0x98, 0x40].flatMap byteBits).take 55

/-- An adaptation parameter set for luma up to its extension flag. -/
def lumaElements : List Bool := ([0x20, 0x42, 0x10].flatMap byteBits).take 21

/-- A session with the sequence parameter set. -/
def announcing : Session :=
  (start false).after (.sequenceSet (unitOf .sps
    [0x00, 0x09, 0x02, 0x33, 0x80, 0x00, 0x00, 0x82, 0x04, 0x11, 0x88, 0x02, 0xf6, 0xc3, 0xe0,
      0x30, 0x10, 0x40, 0x00, 0x34, 0x31]))

theorem announcing_escaped : announcing.escaped = false := by
  decide +kernel

/-- Each of the sets without extension data, and with some.  Those of the video, the sequence
and the picture parameter set end with zeros. -/
theorem extension_ignored_announcing :
    AcceptsAlike (fun _ => True) announcing.readOperatingPoint
        (unitOf .opi [0xc8, 0xb0]) (unitOf .opi [0xc8, 0xad, 0x80]) ∧
      AcceptsAlike (·.extension) announcing.readVps
        (unitOf .vps [0x10, 0x00, 0x00, 0x02, 0x33, 0x1f, 0x00, 0xc0])
        (unitOf .vps [0x10, 0x00, 0x00, 0x02, 0x33, 0x1f, 0x00, 0x80, 0x00, 0x40]) ∧
      AcceptsAlike (·.otherExtensions ≠ 0) announcing.readSps
        (unitOf .sps [0x00, 0x09, 0x02, 0x33, 0x80, 0x00, 0x00, 0x82, 0x04, 0x11, 0x88, 0x02, 0xf6,
          0xc3, 0xe0, 0x30, 0x10, 0x40, 0x00, 0x34, 0x31])
        (unitOf .sps [0x00, 0x09, 0x02, 0x33, 0x80, 0x00, 0x00, 0x82, 0x04, 0x11, 0x88, 0x02, 0xf6,
          0xc3, 0xe0, 0x30, 0x10, 0x40, 0x00, 0x34, 0x31, 0xc0, 0x01, 0x60, 0x00, 0x08]) ∧
      AcceptsAlike (·.extension) announcing.readPps
        (unitOf .pps [0x00, 0x00, 0x41, 0x02, 0x08, 0x98, 0x41, 0x80])
        (unitOf .pps [0x00, 0x00, 0x41, 0x02, 0x08, 0x98, 0x41, 0xe0, 0x00, 0x80]) ∧
      AcceptsAlike (·.extension) announcing.readAps
        (unitOf .prefixAps [0x20, 0x42, 0x16]) (unitOf .prefixAps [0x20, 0x42, 0x15, 0xb0]) := by
  obtain ⟨hpoint, hvideo, hsequence, hpicture, hadaptation⟩ :=
    extension_ignored announcing announcing_escaped
  refine ⟨?_, ?_, ?_, ?_, ?_⟩
  · exact hpoint.acceptsAlike pointElements [] [false, true, true, false, true] rfl
      ⟨4, by decide +kernel⟩ ⟨7, by decide +kernel⟩ (by decide +kernel) (by decide +kernel)
  · exact hvideo.acceptsAlike videoElements [] (List.replicate 16 false) rfl
      ⟨6, by decide +kernel⟩ ⟨6, by decide +kernel⟩ (by decide +kernel) (by decide +kernel)
  · exact hsequence.acceptsAlike sequenceElements []
      ([true, true, true] ++ List.replicate 13 false ++ [true, false, true, true] ++
        List.replicate 17 false) rfl
      ⟨0, by decide +kernel⟩ ⟨3, by decide +kernel⟩ (by decide +kernel) (by decide +kernel)
  · exact hpicture.acceptsAlike pictureElements []
      ([true, true, true] ++ List.replicate 13 false) rfl
      ⟨7, by decide +kernel⟩ ⟨7, by decide +kernel⟩ (by decide +kernel) (by decide +kernel)
  · exact hadaptation.acceptsAlike lumaElements [] [false, true, true, false, true] rfl
      ⟨1, by decide +kernel⟩ ⟨4, by decide +kernel⟩ (by decide +kernel) (by decide +kernel)

end Session

end CodedVideo
