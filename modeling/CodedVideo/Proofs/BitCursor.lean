import CodedVideo.Bits.Reader
import CodedVideo.Proofs.BitString

/-!
# A reader as a cursor over bits

A `BitReader` holds half-read bytes and bytes to come, some of which it will drop.  All
that matters to a read is the string of bits it has in front of it, `BitReader.unread`:
the low bits of the current byte, then those of the bytes to come without the emulation
prevention bytes (`payload`).

`readBits_of_le` says that a read takes its bits off that string and denotes their
number, and `readBits_of_lt` that it fails only if the string is too short.
-/

namespace CodedVideo

/-- The bytes that are left of `bytes` when emulation prevention bytes are dropped, if
`escaped`, and `zeros` zero bytes came before. -/
def payload (escaped : Bool) : (zeros : Nat) → (bytes : List UInt8) → List UInt8
  | _, [] => []
  | zeros, b :: rest =>
    if escaped ∧ 2 ≤ zeros ∧ b = 3 then payload escaped 0 rest
    else b :: payload escaped (if b = 0 then zeros + 1 else 0) rest

@[simp] theorem payload_nil (escaped : Bool) (zeros : Nat) : payload escaped zeros [] = [] := rfl

theorem payload_cons_dropped {escaped : Bool} {zeros : Nat} {b : UInt8}
    (h : escaped ∧ 2 ≤ zeros ∧ b = 3) (rest : List UInt8) :
    payload escaped zeros (b :: rest) = payload escaped 0 rest :=
  if_pos h

theorem payload_cons_kept {escaped : Bool} {zeros : Nat} {b : UInt8}
    (h : ¬ (escaped ∧ 2 ≤ zeros ∧ b = 3)) (rest : List UInt8) :
    payload escaped zeros (b :: rest) =
      b :: payload escaped (if b = 0 then zeros + 1 else 0) rest :=
  if_neg h

theorem payload_unescaped (zeros : Nat) (bytes : List UInt8) :
    payload false zeros bytes = bytes := by
  induction bytes generalizing zeros with
  | nil => rfl
  | cons byte rest ih => rw [payload_cons_kept (by simp), ih]

namespace BitReader

/-- The bytes to come that will not be dropped. -/
def ahead (r : BitReader) : List UInt8 := payload r.escaped r.zeroRun r.bytes

/-- The bits that have not been read, dropped bytes left out. -/
def unread (r : BitReader) : List Bool :=
  lowBits r.left r.current.toNat ++ r.ahead.flatMap byteBits

@[simp] theorem unread_ofBytes (escaped : Bool) (bytes : List UInt8) :
    (ofBytes escaped bytes).unread = (payload escaped 0 bytes).flatMap byteBits := rfl

/-- Any bits may be in front of a reader. -/
theorem exists_unread (bits : List Bool) :
    ∃ (r : BitReader) (rest : List Bool), r.unread = bits ++ rest := by
  have hlength : (bits ++ List.replicate (7 * bits.length) false).length = 8 * bits.length := by
    rw [List.length_append, List.length_replicate]
    omega
  obtain ⟨bytes, hbytes⟩ := exists_flatMap_byteBits hlength
  exact ⟨ofBytes false bytes, _, by rw [unread_ofBytes, payload_unescaped, hbytes]⟩

theorem length_unread (r : BitReader) : r.unread.length = r.left + 8 * r.ahead.length := by
  rw [unread, List.length_append, length_lowBits, length_flatMap_byteBits]

/-! ### Fetching bytes -/

/-- A byte has been fetched and is unread. -/
structure Fetched (r r' : BitReader) (byte : UInt8) (rest : List UInt8) : Prop where
  ahead : r'.ahead = rest
  current : r'.current = byte
  left : r'.left = 8
  position : r'.position = r.position

/-- **A fetch takes the next byte that is not dropped.** -/
theorem fetch_of_ahead_cons {r : BitReader} {byte : UInt8} {rest : List UInt8}
    (h : r.ahead = byte :: rest) : ∃ r', r.fetch = (.ok (), r') ∧ Fetched r r' byte rest := by
  unfold ahead at h
  unfold fetch
  cases hbytes : r.bytes with
  | nil => rw [hbytes] at h; cases h
  | cons b more =>
    rw [hbytes] at h
    by_cases hdrop : r.escaped ∧ 2 ≤ r.zeroRun ∧ b = 3
    · rw [payload_cons_dropped hdrop] at h
      simp only [if_pos hdrop]
      cases more with
      | nil => cases h
      | cons next more =>
        rw [payload_cons_kept (by omega)] at h
        obtain ⟨rfl, rfl⟩ := List.cons.inj h
        exact ⟨_, rfl, ⟨rfl, rfl, rfl, rfl⟩⟩
    · rw [payload_cons_kept hdrop] at h
      simp only [if_neg hdrop]
      obtain ⟨rfl, rfl⟩ := List.cons.inj h
      exact ⟨_, rfl, ⟨rfl, rfl, rfl, rfl⟩⟩

theorem fetch_of_ahead_nil {r : BitReader} (h : r.ahead = []) :
    r.fetch.1 = .error .outOfBits := by
  unfold ahead at h
  unfold fetch
  cases hbytes : r.bytes with
  | nil => rfl
  | cons b more =>
    rw [hbytes] at h
    by_cases hdrop : r.escaped ∧ 2 ≤ r.zeroRun ∧ b = 3
    · rw [payload_cons_dropped hdrop] at h
      simp only [if_pos hdrop]
      cases more with
      | nil => rfl
      | cons next more => rw [payload_cons_kept (by omega)] at h; cases h
    · rw [payload_cons_kept hdrop] at h
      cases h

/-- Bytes have been fetched, and the last of them is unread. -/
structure Gathered (r r' : BitReader) (bytes rest : List UInt8) : Prop where
  ahead : r'.ahead = rest
  current : r'.current = bytes.getLastD r.current
  left : r'.left = if bytes = [] then r.left else 8
  position : r'.position = r.position

/-- Bytes are gathered in order, behind what has been read already. -/
theorem gather_of_ahead {bytes rest : List UInt8} {r : BitReader} (acc : Nat)
    (h : r.ahead = bytes ++ rest) :
    ∃ r', gather bytes.length acc r =
        (.ok (acc * 2 ^ (8 * bytes.length) + ofBits (bytes.flatMap byteBits)), r') ∧
      Gathered r r' bytes rest := by
  induction bytes generalizing acc r with
  | nil =>
    refine ⟨r, ?_, h, rfl, rfl, rfl⟩
    simp [gather]
  | cons b bytes ih =>
    obtain ⟨r₁, hfetch, h₁⟩ := fetch_of_ahead_cons h
    obtain ⟨r₂, hgather, h₂⟩ := ih (acc * 256 + r₁.current.toNat) h₁.ahead
    refine ⟨r₂, ?_, h₂.ahead, ?_, ?_, h₂.position.trans h₁.position⟩
    · rw [List.length_cons, gather, hfetch]
      simp only
      have hvalue : (acc * 256 + b.toNat) * 2 ^ (8 * bytes.length) +
          ofBits (bytes.flatMap byteBits) =
          acc * 2 ^ (8 * (bytes.length + 1)) + ofBits ((b :: bytes).flatMap byteBits) := by
        rw [List.flatMap_cons, ofBits_append, ofBits_byteBits, length_flatMap_byteBits, mul_add,
          pow_add]
        ring
      rw [hgather, h₁.current, hvalue]
    · rw [h₂.current, h₁.current, List.getLastD_cons]
    · rw [h₂.left, h₁.left, ite_self, if_neg (List.cons_ne_nil b bytes)]

theorem gather_of_short {count : Nat} {r : BitReader} (acc : Nat) (h : r.ahead.length < count) :
    (gather count acc r).1 = .error .outOfBits := by
  induction count generalizing acc r with
  | zero => omega
  | succ count ih =>
    unfold gather
    cases hahead : r.ahead with
    | nil =>
      have hfetch := fetch_of_ahead_nil hahead
      split <;> rename_i heq <;> rw [heq] at hfetch
      · exact congrArg Except.error (Except.error.inj hfetch)
      · cases hfetch
    | cons b rest =>
      obtain ⟨r₁, hfetch, h₁⟩ := fetch_of_ahead_cons hahead
      rw [hfetch]
      refine ih _ ?_
      rw [h₁.ahead]
      rw [hahead, List.length_cons] at h
      omega

/-! ### Reading bits -/

/-- What remains of the last byte gathered is what remains of all bits seen. -/
theorem Gathered.lowBits_current {r r' : BitReader} {bytes rest : List UInt8}
    (h : Gathered r r' bytes rest) {n : Nat}
    (hn : n ≤ r.left + 8 * bytes.length) (hlast : bytes ≠ [] → r.left + 8 * bytes.length < n + 8) :
    lowBits (r.left + 8 * bytes.length - n) r'.current.toNat =
      (lowBits r.left r.current.toNat ++ bytes.flatMap byteBits).drop n := by
  rcases List.eq_nil_or_concat bytes with rfl | ⟨front, last, rfl⟩
  · rw [h.current, List.flatMap_nil, List.append_nil, drop_lowBits]
    rfl
  · have hlast := hlast (by simp)
    rw [List.length_concat] at hlast hn
    rw [h.current, List.concat_eq_append, List.getLastD_concat, List.flatMap_append,
      List.flatMap_singleton, ← List.append_assoc, List.length_append, List.length_singleton,
      List.drop_append, List.drop_eq_nil_of_le, List.nil_append, byteBits, drop_lowBits]
    · congr 1
      simp
      omega
    · simp
      omega

/-- **A read takes its bits off the string in front and denotes their number.** -/
theorem readBits_of_le {r : BitReader} {n : Nat} (h32 : n ≤ 32) (h : n ≤ r.unread.length) :
    ∃ r', r.readBits n = (.ok (ofBits (r.unread.take n)), r') ∧ r'.unread = r.unread.drop n ∧
      r'.position = r.position + n := by
  have hlen := length_unread r
  have hcount : r.bytesFor n = (n - r.left + 7) / 8 := rfl
  obtain ⟨bytes, rest, hsplit, hbytes⟩ :
      ∃ bytes rest, r.ahead = bytes ++ rest ∧ bytes.length = r.bytesFor n :=
    ⟨_, _, (List.take_append_drop (r.bytesFor n) r.ahead).symm,
      List.length_take_of_le (by omega)⟩
  obtain ⟨r', hgather, hr'⟩ := gather_of_ahead (r.current.toNat % pow2 r.left) hsplit
  have hrest := hr'.lowBits_current (n := n) (by omega) (fun hne => by
    have := List.length_pos_iff.mpr hne
    omega)
  -- The bits of the bytes touched, of which the read takes the first `n`.
  generalize hseen : lowBits r.left r.current.toNat ++ bytes.flatMap byteBits = seen at hrest
  have hseenlen : seen.length = r.left + 8 * bytes.length := by
    rw [← hseen, List.length_append, length_lowBits, length_flatMap_byteBits]
  have hunread : r.unread = seen ++ rest.flatMap byteBits := by
    rw [unread, hsplit, List.flatMap_append, ← List.append_assoc, hseen]
  have hn : n ≤ seen.length := by omega
  have hvalue : (r.current.toNat % pow2 r.left * 2 ^ (8 * bytes.length) +
      ofBits (bytes.flatMap byteBits)) / pow2 (seen.length - n) = ofBits (seen.take n) := by
    rw [pow2_eq, pow2_eq, ← ofBits_lowBits, ← length_flatMap_byteBits, ← ofBits_append, hseen,
      ← List.length_drop, ← ofBits_append_div (seen.take n) (seen.drop n), List.take_append_drop]
  rw [hseenlen] at hvalue
  unfold readBits
  rw [if_neg (by omega), ← hbytes]
  simp only
  rw [hgather]
  simp only
  refine ⟨_, by rw [hvalue, hunread, List.take_append_of_le_length hn], ?_, ?_⟩
  · rw [hunread, List.drop_append_of_le_length hn, ← hrest, ← hr'.ahead]
    rfl
  · simp only
    rw [hr'.position]

/-- **A read fails if there are fewer bits in front.** -/
theorem readBits_of_lt {r : BitReader} {n : Nat} (h32 : n ≤ 32) (h : r.unread.length < n) :
    (r.readBits n).1 = .error .outOfBits := by
  have hlen := length_unread r
  have hshort : r.ahead.length < r.bytesFor n := by
    unfold bytesFor
    omega
  have hgather := gather_of_short (r.current.toNat % pow2 r.left) hshort
  unfold readBits
  rw [if_neg (by omega)]
  simp only
  split <;> rename_i heq <;> rw [heq] at hgather
  · exact hgather
  · cases hgather

/-- What a read that does not fail has taken off the string in front. -/
theorem readBits_eq_ok {r r' : BitReader} {n value : Nat} (h : r.readBits n = (.ok value, r')) :
    n ≤ 32 ∧ n ≤ r.unread.length ∧ value = ofBits (r.unread.take n) ∧
      r'.unread = r.unread.drop n ∧ r'.position = r.position + n := by
  by_cases h32 : n ≤ 32
  · by_cases hlength : n ≤ r.unread.length
    · obtain ⟨r₁, hread, hunread, hposition⟩ := r.readBits_of_le h32 hlength
      obtain ⟨hvalue, rfl⟩ := Prod.mk.inj (h.symm.trans hread)
      exact ⟨h32, hlength, Except.ok.inj hvalue, hunread, hposition⟩
    · have hshort := r.readBits_of_lt h32 (Nat.lt_of_not_le hlength)
      rw [h] at hshort
      cases hshort
  · rw [readBits, if_pos (Nat.lt_of_not_le h32)] at h
    cases h

end BitReader

end CodedVideo
