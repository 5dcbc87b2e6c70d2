import CodedVideo.Proofs.PayloadCursor

/-!
# Looking ahead past emulation prevention bytes

There is data before the stop bit as long as a one comes behind the next bit of the payload
(`DataAhead`).  A reader that looks for it goes through the bytes as they come, emulation
prevention bytes included, and none of these is zero.  So it sees all data, and it also sees
data where nothing but zeros is left of the payload and an emulation prevention byte is still
to be dropped; what it sees is exactly that (`BitReader.Reached.moreData_iff`).

To look ahead a reader may have to fetch a byte, and that byte stays fetched.  It does not show
(`BitReader.Peeked`): where the next read needs a byte it finds it there, and a request for no
bits at all leaves it alone.
-/

namespace CodedVideo

open Parse

/-! ### Dropped bytes -/

/-- The number of emulation prevention bytes. -/
def escapeCount (escaped : Bool) (bytes : List UInt8) : Nat :=
  bytes.length - (payload escaped 0 bytes).length

theorem length_payload_le (escaped : Bool) (zeros : Nat) (bytes : List UInt8) :
    (payload escaped zeros bytes).length ≤ bytes.length := by
  induction bytes generalizing zeros with
  | nil => exact le_rfl
  | cons b bytes ih =>
    by_cases hdrop : escaped ∧ 2 ≤ zeros ∧ b = 3
    · rw [payload_cons_dropped hdrop]
      exact (ih 0).trans (Nat.le_succ _)
    · rw [payload_cons_kept hdrop]
      exact Nat.succ_le_succ (ih _)

/-- A byte other than zero is kept, or it is dropped. -/
theorem any_bytes_iff (escaped : Bool) (zeros : Nat) (bytes : List UInt8) :
    bytes.any (· != 0) ↔ (payload escaped zeros bytes).any (· != 0) ∨
      (payload escaped zeros bytes).length < bytes.length := by
  induction bytes generalizing zeros with
  | nil => simp
  | cons b bytes ih =>
    by_cases hdrop : escaped ∧ 2 ≤ zeros ∧ b = 3
    · rw [payload_cons_dropped hdrop, hdrop.2.2]
      exact ⟨fun _ => .inr (Nat.lt_succ_of_le (length_payload_le escaped 0 bytes)), fun _ => rfl⟩
    · rw [payload_cons_kept hdrop, List.any_cons, List.any_cons, Bool.or_eq_true, Bool.or_eq_true,
        List.length_cons, List.length_cons, Nat.add_lt_add_iff_right, or_assoc]
      exact or_congr_right (ih _)

/-- A one comes behind the next bit of the payload. -/
def DataAhead (escaped : Bool) (bytes : List UInt8) (position : Nat) : Prop :=
  ∃ i, position < i ∧ (payloadBits escaped bytes)[i]? = some true

namespace BitReader

variable {escaped : Bool} {bytes : List UInt8} {r r₁ : BitReader}

/-! ### What is seen ahead -/

theorem Cursor.dataAhead_iff (h : Cursor escaped bytes r) :
    DataAhead escaped bytes r.position ↔ (r.unread.drop 1).any id := by
  rw [h.unread, List.drop_drop, List.any_eq_true]
  constructor
  · rintro ⟨i, hi, hone⟩
    obtain ⟨k, rfl⟩ := Nat.exists_eq_add_of_le (Nat.succ_le_of_lt hi)
    refine ⟨true, List.mem_of_getElem? (i := k) ?_, rfl⟩
    rw [List.getElem?_drop]
    exact hone
  · rintro ⟨b, hb, rfl : b = true⟩
    obtain ⟨k, hk⟩ := List.mem_iff_getElem?.mp hb
    rw [List.getElem?_drop] at hk
    exact ⟨_, by omega, hk⟩

/-- Bytes are still to be dropped exactly if not all have been. -/
theorem Cursor.ahead_lt_iff (h : Cursor escaped bytes r) :
    r.ahead.length < r.bytes.length ↔ r.removed < escapeCount escaped bytes := by
  have hkept := h.left_add
  have htotal := h.total
  unfold escapeCount
  omega

/-- Behind the current byte a reader sees the bytes that are to be dropped like any others. -/
theorem Cursor.oneAhead_iff (h : Cursor escaped bytes r) (hleft : 1 ≤ r.left) :
    r.oneAhead ↔ DataAhead escaped bytes r.position ∨ r.removed < escapeCount escaped bytes := by
  have hdrop : r.unread.drop 1 =
      lowBits (r.left - 1) r.current.toNat ++ r.ahead.flatMap byteBits := by
    rw [BitReader.unread, List.drop_append_of_le_length (by rwa [length_lowBits]), drop_lowBits]
  rw [h.dataAhead_iff, ← h.ahead_lt_iff, hdrop, List.any_append, any_flatMap_byteBits, any_id_eq,
    ofBits_lowBits, oneAhead, Bool.or_eq_true, Bool.or_eq_true, or_assoc]
  exact or_congr_right (any_bytes_iff r.escaped r.zeroRun r.bytes)

theorem Reached.moreData_fst (h : Reached escaped bytes r) :
    r.moreData.1 ↔ DataAhead escaped bytes r.position ∨
      r.moreData.2.removed < escapeCount escaped bytes := by
  have hcursor := h.cursor
  have hlater := hcursor.moreData
  by_cases hleft : r.left = 0
  · rcases hfetch : r.fetch with ⟨e | _, r₁⟩
    · obtain ⟨-, hbytes, -, hahead⟩ := fetch_eq_error hfetch
      have hmore : r.moreData = (false, r₁) := by rw [BitReader.moreData, if_pos hleft, hfetch]
      have hunread : r.unread = [] := by rw [unread, hahead, hleft]; rfl
      rw [hmore] at hlater ⊢
      rw [hcursor.dataAhead_iff, ← hlater.ahead_lt_iff, hunread, hbytes]
      simp
    · obtain ⟨passed, hpassed, -⟩ := fetch_passes hfetch
      have hmore : r.moreData = (r₁.oneAhead, r₁) := by rw [BitReader.moreData, if_pos hleft, hfetch]
      rw [hmore] at hlater ⊢
      rw [← hpassed.position]
      exact hlater.oneAhead_iff (hpassed.left ▸ Nat.succ_pos 7)
  · have hmore : r.moreData = (r.oneAhead, r) := if_neg hleft
    rw [hmore]
    exact hcursor.oneAhead_iff (Nat.one_le_iff_ne_zero.mpr hleft)

/-! ### What follows -/

/-- The reader may have fetched the next byte before it is asked for its bits. -/
inductive Peeked (r : BitReader) : BitReader → Prop where
  | same : Peeked r r
  | fetched (hleft : r.left = 0) : Peeked r r.fetch.2

theorem peeked_moreData (r : BitReader) : Peeked r r.moreData.2 := by
  rw [moreData_snd]
  split
  · rename_i hleft
    exact .fetched hleft
  · exact .same

theorem Peeked.position (h : Peeked r r₁) : r₁.position = r.position := by
  cases h with
  | same => rfl
  | fetched hleft => exact (fetch_total hleft).1

theorem readBits_of_gt {n : Nat} (h : 32 < n) : r.readBits n = (.error (.tooManyBits n), r) :=
  if_pos h

theorem readBits_zero (r : BitReader) : r.readBits 0 = (.ok 0, r) := by
  have hcount : r.bytesFor 0 = 0 := by
    unfold bytesFor
    omega
  have hvalue : r.current.toNat % pow2 r.left / pow2 r.left = 0 :=
    Nat.div_eq_of_lt (Nat.mod_lt _ (Nat.two_pow_pos r.left))
  rw [readBits, if_neg (by decide), hcount]
  exact congrArg (fun value => (Except.ok value, r)) hvalue

theorem align_of_left_mod (hleft : r.left % 8 = 0) : r.align = (true, r) := by
  rw [align, hleft, pow2_eq, pow_zero, Nat.mod_one]
  rfl

/-- Bits are read alike if the byte that they begin with has been fetched before. -/
theorem readBits_fetch {n : Nat} (hleft : r.left = 0) (hn : 0 < n) (h32 : n ≤ 32) :
    r.fetch.2.readBits n = r.readBits n := by
  obtain ⟨count, hcount⟩ : ∃ count, r.bytesFor n = count + 1 := ⟨(n - 1) / 8, by
    unfold bytesFor
    omega⟩
  rw [readBits, readBits, if_neg (Nat.not_lt_of_le h32), if_neg (Nat.not_lt_of_le h32)]
  dsimp only
  rw [hcount, gather]
  rcases hfetch : r.fetch with ⟨e | _, r₁⟩
  · -- There is still nothing to be had.
    obtain ⟨rfl, hbytes, hsame, -⟩ := fetch_eq_error hfetch
    have hcount₁ : r₁.bytesFor n = count + 1 := by rw [bytesFor, hsame]; exact hcount
    have hfetch₁ : r₁.fetch = (.error .outOfBits, r₁) := by rw [fetch, hbytes]
    dsimp only
    rw [hcount₁, gather, hfetch₁]
  · obtain ⟨passed, hpassed, -⟩ := fetch_passes hfetch
    have hleft₁ : r₁.left = 8 := hpassed.left
    have hcount₁ : r₁.bytesFor n = count := by
      unfold bytesFor at hcount ⊢
      omega
    have hcurrent : r₁.current.toNat % pow2 8 = r.current.toNat % pow2 0 * 256 + r₁.current.toNat := by
      rw [pow2_eq, pow2_eq, pow_zero, Nat.mod_one, Nat.zero_mul, Nat.zero_add,
        Nat.mod_eq_of_lt r₁.current.toNat_lt]
    have hspare : 8 + 8 * count - n = 0 + 8 * (count + 1) - n := by omega
    dsimp only
    rw [hcount₁, hleft₁, hleft, hcurrent, hspare]

/-- A byte that has been fetched before does not show. -/
theorem Peeked.run {α : Type} {p : Parse α} (hp : p.Within (· = .align)) (h : Peeked r r₁) :
    (p.run r₁).1 = (p.run r).1 ∧ Peeked (p.run r).2 (p.run r₁).2 := by
  induction p generalizing r r₁ with
  | done value | fail error => exact ⟨rfl, h⟩
  | bits count next ih =>
    cases h with
    | same => exact ⟨rfl, .same⟩
    | fetched hleft =>
      rw [Parse.run, Parse.run]
      rcases Nat.eq_zero_or_pos count with rfl | hcount
      · rw [readBits_zero, readBits_zero]
        exact ih 0 (hp 0 (by decide)) (.fetched hleft)
      · by_cases h32 : count ≤ 32
        · rw [readBits_fetch hleft hcount h32]
          exact ⟨rfl, .same⟩
        · rw [readBits_of_gt (Nat.lt_of_not_le h32), readBits_of_gt (Nat.lt_of_not_le h32)]
          exact ⟨rfl, .fetched hleft⟩
  | align next ih =>
    cases h with
    | same => exact ⟨rfl, .same⟩
    | fetched hleft =>
      have htotal := (fetch_total hleft).2.2
      rw [Parse.run, Parse.run, align_of_left_mod (r := r) (by omega),
        align_of_left_mod (r := r.fetch.2) (by omega)]
      exact ih true (hp.2 true) (.fetched hleft)
  | moreData next ih | position next ih | skipData next ih | checkOverrun next ih => cases hp.1

theorem Request.within_parse (request : Request) : request.parse.Within (· = .align) := by
  cases request <;> simp [parse]

/-- What comes of requests that are put one after another, refused ones included, and where each
of them leaves the reader. -/
def answers : List Request → BitReader → List (Except ParseError Answer × Nat)
  | [], _ => []
  | request :: rest, r =>
    let (answer, r) := request.parse.run r
    (answer, r.position) :: answers rest r

theorem Peeked.answers (h : Peeked r r₁) (requests : List Request) :
    answers requests r₁ = answers requests r := by
  induction requests generalizing r r₁ with
  | nil => rfl
  | cons request rest ih =>
    obtain ⟨hanswer, hlater⟩ := h.run request.within_parse
    rw [BitReader.answers, BitReader.answers]
    exact congrArg₂ List.cons (Prod.ext hanswer hlater.position) (ih hlater)

/-- **Looking ahead sees the data and the bytes that are to be dropped**: a reader sees data
exactly if a one comes behind the next bit of the payload or an emulation prevention byte has
not been dropped yet.  Whichever it is, looking ahead changes neither the position nor what comes
of any requests after it. -/
theorem Reached.moreData_iff (h : Reached escaped bytes r) :
    (r.moreData.1 ↔ DataAhead escaped bytes r.position ∨
      r.moreData.2.removed < escapeCount escaped bytes) ∧
    r.moreData.2.position = r.position ∧
    ∀ requests, answers requests r.moreData.2 = answers requests r :=
  ⟨h.moreData_fst, (peeked_moreData r).position, (peeked_moreData r).answers⟩

/-- Behind the stop bit in the first byte there are only zeros and an emulation prevention byte,
which is seen. -/
theorem Reached.moreData_iff_trailingEscape : ∃ r : BitReader, Reached true [0xC0, 0, 0, 3] r ∧
    r.position = 1 ∧ r.moreData.1 ∧ ¬ DataAhead true [0xC0, 0, 0, 3] r.position ∧
    (r.moreData.1 ↔ DataAhead true [0xC0, 0, 0, 3] r.position ∨
      r.moreData.2.removed < escapeCount true [0xC0, 0, 0, 3]) ∧
    r.moreData.2.position = r.position ∧
    ∀ requests, answers requests r.moreData.2 = answers requests r := by
  have hfield : Reached true [0xC0, 0, 0, 3] _ :=
    .read .start (show (Request.field 1).parse.run _ = (.ok (.number 1), _) from rfl)
  refine ⟨_, hfield, rfl, rfl, ?_, hfield.moreData_iff⟩
  rw [hfield.cursor.dataAhead_iff]
  decide

/-- So a reader may see data where the payload has none. -/
theorem moreData_sees_escape : ¬ ∀ (escaped : Bool) (bytes : List UInt8) (r : BitReader),
    Reached escaped bytes r →
      (r.moreData.1 ↔ DataAhead escaped bytes r.position) ∧
      r.moreData.2.position = r.position ∧
      ∀ requests, answers requests r.moreData.2 = answers requests r := by
  intro h
  have hahead := (h true [0x80, 0, 0, 3] _ .start).1.mp rfl
  have hone := (cursor_ofBytes true [0x80, 0, 0, 3]).dataAhead_iff.mp hahead
  exact absurd hone (by decide)

end BitReader

end CodedVideo
