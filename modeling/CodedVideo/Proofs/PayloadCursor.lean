import CodedVideo.Proofs.StopBit

/-!
# A reader as a cursor over a payload

A `BitReader.Request` is what a reader can be asked for.  `Request.decode` says what comes of it
in terms of the bits of the payload and a place among them alone: which answer there is and how
many bits it takes, or why there is none.

A reader of a payload is always at the place that its position names (`BitReader.Cursor`), however
it has got there (`Cursor.of_run`).  So what it does is what `Request.decode` says, for emulation
prevention bytes anywhere and for requests that begin and end anywhere within bytes
(`BitReader.Reached.isCursor`).
-/

namespace CodedVideo

open Parse

/-- The bits of a payload, emulation prevention bytes left out. -/
def payloadBits (escaped : Bool) (bytes : List UInt8) : List Bool :=
  (payload escaped 0 bytes).flatMap byteBits

/-! ### Codewords among bits -/

/-- The number of zeros that come first. -/
def zerosAhead (bits : List Bool) : Nat := (bits.takeWhile (!·)).length

/-- The number whose Exp-Golomb codeword comes first, and the length of that. -/
def codeword (bits : List Bool) : Except ReadError (Nat × Nat) :=
  let zeros := zerosAhead bits
  let value := 2 ^ zeros - 1 + ofBits ((bits.drop (zeros + 1)).take zeros)
  if 32 < zeros then .error .expGolombOverflow
  else if bits.length < 2 * zeros + 1 then .error .outOfBits
  else if value < 2 ^ 32 then .ok (value, 2 * zeros + 1)
  else .error .expGolombOverflow

/-- The number of zeros that come first is the one behind which there is a one or nothing. -/
theorem zerosAhead_spec (bits : List Bool) :
    bits = List.replicate (zerosAhead bits) false ∨
      ∃ rest, bits = List.replicate (zerosAhead bits) false ++ true :: rest := by
  induction bits with
  | nil => exact .inl rfl
  | cons b bits ih =>
    cases b with
    | true => exact .inr ⟨bits, rfl⟩
    | false =>
      have hcount : zerosAhead (false :: bits) = zerosAhead bits + 1 := rfl
      rw [hcount, List.replicate_succ]
      rcases ih with h | ⟨rest, h⟩
      · exact .inl (congrArg _ h)
      · exact .inr ⟨rest, congrArg _ h⟩

/-! ### What structures yield -/

namespace Parse

variable {α β : Type} {p : Parse α} {f : α → Parse β} {r : BitReader}

/-- The structure yields the value and takes as many bits, or is refused for the error. -/
def Yields (p : Parse α) (r : BitReader) : Except ReadError (α × Nat) → Prop
  | .ok (value, length) => ∃ r', p.run r = (.ok value, r') ∧ r'.unread = r.unread.drop length ∧
      r'.position = r.position + length
  | .error e => (p.run r).1 = .error (.read e)

theorem yields_pure (value : α) (r : BitReader) : (pure value : Parse α).Yields r (.ok (value, 0)) :=
  ⟨r, rfl, rfl, rfl⟩

theorem Reads.yields {bits rest : List Bool} {value : α} (h : p.Reads bits value)
    (hr : r.unread = bits ++ rest) : p.Yields r (.ok (value, bits.length)) := by
  obtain ⟨r', hrun, hrest, hposition⟩ := h r rest hr
  exact ⟨r', hrun, by rw [hrest, hr, List.drop_left' rfl], hposition⟩

/-- What comes second is read off the bits behind what comes first. -/
theorem yields_bind_of_run {value : α} {length : Nat} {r₁ : BitReader}
    {result : Except ReadError (β × Nat)} (hrun : p.run r = (.ok value, r₁))
    (hunread : r₁.unread = r.unread.drop length) (hposition : r₁.position = r.position + length)
    (hf : (f value).Yields r₁ result) :
    (p >>= f).Yields r (result.map fun (value', length') => (value', length + length')) := by
  rcases result with e | ⟨value', length'⟩
  · show ((p >>= f).run r).1 = _
    rw [run_bind_of_ok hrun]
    exact hf
  · obtain ⟨r₂, hrun', hunread', hposition'⟩ := hf
    refine ⟨r₂, (run_bind_of_ok hrun).trans hrun', ?_, ?_⟩
    · rw [hunread', hunread, List.drop_drop]
    · rw [hposition', hposition, Nat.add_assoc]

theorem Yields.bind {value : α} {length : Nat} {result : Except ReadError (β × Nat)}
    (hp : p.Yields r (.ok (value, length)))
    (hf : ∀ r' : BitReader, r'.unread = r.unread.drop length → (f value).Yields r' result) :
    (p >>= f).Yields r (result.map fun (value', length') => (value', length + length')) := by
  obtain ⟨r₁, hrun, hunread, hposition⟩ := hp
  exact yields_bind_of_run hrun hunread hposition (hf r₁ hunread)

theorem Yields.bind_refused {value : α} {length : Nat} {e : ReadError}
    (hp : p.Yields r (.ok (value, length)))
    (hf : ∀ r' : BitReader, r'.unread = r.unread.drop length → (f value).Yields r' (.error e)) :
    (p >>= f).Yields r (.error e) :=
  hp.bind hf

theorem Yields.bind_error {e : ReadError} (hp : p.Yields r (.error e)) (f : α → Parse β) :
    (p >>= f).Yields r (.error e) := by
  have hp : (p.run r).1 = .error (.read e) := hp
  show ((p >>= f).run r).1 = _
  rw [run_bind]
  rcases hrun : p.run r with ⟨e' | value, r'⟩
  · rw [hrun] at hp
    exact congrArg Except.error (Except.error.inj hp)
  · rw [hrun] at hp
    cases hp

/-- What is made of a value takes no bits. -/
theorem Yields.map {result : Except ReadError (α × Nat)} (hp : p.Yields r result) (g : α → β) :
    (p >>= fun a => pure (g a)).Yields r (result.map fun (a, length) => (g a, length)) := by
  rcases result with e | ⟨value, length⟩
  · exact hp.bind_error _
  · exact hp.bind (f := fun a => pure (g a)) fun r' _ => yields_pure (g value) r'

/-- A value is refused unless it passes a check. -/
theorem Yields.check {result : Except ReadError (α × Nat)} (hp : p.Yields r result) (g : α → β)
    (P : α → Prop) [DecidablePred P] (e : ReadError) :
    (p >>= fun a => if P a then pure (g a) else fail (.read e)).Yields r
      (result.bind fun (a, length) => if P a then .ok (g a, length) else .error e) := by
  rcases result with e' | ⟨value, length⟩
  · exact hp.bind_error _
  · show Yields _ r (if P value then _ else _)
    split_ifs with hvalue
    · obtain ⟨r₁, hrun, hunread, hposition⟩ := hp
      refine ⟨r₁, (run_bind_of_ok hrun).trans ?_, hunread, hposition⟩
      simp only [if_pos hvalue]
      rfl
    · refine hp.bind_refused fun r' _ => ?_
      simp only [if_neg hvalue]
      rfl

/-! ### What descriptors yield -/

theorem run_u_of_error {count : Nat} {e : ReadError} (h : (r.readBits count).1 = .error e) :
    ((u count).run r).1 = .error (.read e) := by
  rcases hread : r.readBits count with ⟨e' | value, r'⟩ <;> rw [hread] at h
  · rw [u, run, hread]
    exact congrArg (fun e => Except.error (ParseError.read e)) (Except.error.inj h)
  · cases h

theorem yields_u (count : Nat) (r : BitReader) :
    (u count).Yields r (if 32 < count then .error (.tooManyBits count)
      else if r.unread.length < count then .error .outOfBits
      else .ok (ofBits (r.unread.take count), count)) := by
  split_ifs with h32 hlength
  · refine run_u_of_error ?_
    rw [BitReader.readBits, if_pos h32]
  · exact run_u_of_error (BitReader.readBits_of_lt (Nat.le_of_not_lt h32) hlength)
  · obtain ⟨r', hread, hunread, hposition⟩ :=
      BitReader.readBits_of_le (Nat.le_of_not_lt h32) (Nat.le_of_not_lt hlength)
    refine ⟨r', ?_, hunread, hposition⟩
    rw [u, run, hread]
    rfl

theorem yields_flag (r : BitReader) :
    flag.Yields r (match r.unread with
      | [] => .error .outOfBits
      | b :: _ => .ok (b, 1)) := by
  cases hunread : r.unread with
  | nil =>
    have hbit := yields_u 1 r
    rw [if_neg (by decide), hunread, if_pos (by decide)] at hbit
    exact hbit.bind_error _
  | cons b rest => exact (reads_flag b).yields hunread

/-- Too many zeros are refused wherever the bits end. -/
theorem yields_leadingZeros_of_tooMany {limit : Nat} (zeros : Nat) {rest : List Bool}
    (h : r.unread = List.replicate limit false ++ rest) :
    (leadingZeros zeros limit).Yields r (.error .expGolombOverflow) := by
  induction limit generalizing zeros r with
  | zero => rfl
  | succ limit ih =>
    rw [List.replicate_succ, List.cons_append] at h
    have hflag := yields_flag r
    rw [h] at hflag
    refine hflag.bind_refused fun r' hr' => ih (zeros + 1) ?_
    rw [hr', h, List.drop_one, List.tail_cons]

/-- Zeros that end before the limit and have no one behind them are not enough. -/
theorem yields_leadingZeros_of_end {limit k : Nat} (zeros : Nat) (hk : k < limit)
    (h : r.unread = List.replicate k false) :
    (leadingZeros zeros limit).Yields r (.error .outOfBits) := by
  induction limit generalizing zeros r k with
  | zero => omega
  | succ limit ih =>
    have hflag := yields_flag r
    cases k with
    | zero =>
      rw [h] at hflag
      exact hflag.bind_error _
    | succ k =>
      rw [h, List.replicate_succ] at hflag
      refine hflag.bind_refused fun r' hr' => ih (zeros + 1) (Nat.lt_of_succ_lt_succ hk) ?_
      rw [hr', h, List.replicate_succ, List.drop_one, List.tail_cons]

/-- **An Exp-Golomb codeword is read off the bits in front**, or there is none. -/
theorem yields_ue (r : BitReader) : ue.Yields r (codeword r.unread) := by
  unfold codeword
  extract_lets zeros value
  by_cases h32 : 32 < zeros
  · -- The 33rd zero is refused, whether there is a one later on or not.
    rw [if_pos h32]
    obtain ⟨more, hmore⟩ := Nat.exists_eq_add_of_le (Nat.succ_le_of_lt h32)
    obtain ⟨rest, hrest⟩ : ∃ rest, r.unread = List.replicate 33 false ++ rest := by
      rcases zerosAhead_spec r.unread with h | ⟨rest, h⟩
      all_goals
        rw [show zerosAhead r.unread = 33 + more from hmore, ← List.replicate_append_replicate] at h
      · exact ⟨_, h⟩
      · exact ⟨_, h.trans (List.append_assoc ..)⟩
    exact (yields_leadingZeros_of_tooMany 0 hrest).bind_error _
  · rw [if_neg h32]
    rcases zerosAhead_spec r.unread with h | ⟨rest, h⟩
    · -- The bits end before a one comes.
      have hlength : r.unread.length = zeros := by rw [h, List.length_replicate]
      rw [if_pos (by omega)]
      exact (yields_leadingZeros_of_end 0 (by omega) h).bind_error _
    · have hrest : r.unread.drop (zeros + 1) = rest := by
        rw [h, List.append_cons]
        exact List.drop_left' (by simp [zeros])
      have hlength : r.unread.length = zeros + 1 + rest.length := by
        rw [h]
        simp only [List.length_append, List.length_replicate, List.length_cons, zeros]
        omega
      have hzeros : (leadingZeros 0 33).Yields r (.ok (0 + zeros, zeros + 1)) := by
        have hreads := (reads_leadingZeros 0 (show zeros < 33 by omega)).yields
          (h.trans (List.append_cons ..))
        simpa using hreads
      rw [Nat.zero_add] at hzeros
      by_cases hshort : rest.length < zeros
      · rw [if_pos (by omega)]
        refine hzeros.bind_refused fun r' hr' => ?_
        have hfield := yields_u zeros r'
        rw [if_neg h32, hr', hrest, if_pos hshort] at hfield
        exact hfield.bind_error _
      · rw [if_neg (by omega)]
        -- The value of a whole codeword may still be too large.
        have hsuffix : ∀ r' : BitReader, r'.unread = r.unread.drop (zeros + 1) →
            (u zeros >>= fun suffix => if pow2 zeros - 1 + suffix < pow2 32
              then pure (pow2 zeros - 1 + suffix) else fail (.read .expGolombOverflow)).Yields r'
            (if value < 2 ^ 32 then .ok (value, zeros) else .error .expGolombOverflow) := by
          intro r' hr'
          have hfield := yields_u zeros r'
          rw [if_neg h32, hr', hrest, if_neg hshort, ← hrest] at hfield
          exact hfield.check (fun suffix => pow2 zeros - 1 + suffix)
            (fun suffix => pow2 zeros - 1 + suffix < pow2 32) .expGolombOverflow
        have hall : ue.Yields r _ := hzeros.bind hsuffix
        split_ifs at hall ⊢
        · rw [two_mul, Nat.add_right_comm]
          exact hall
        · exact hall

theorem yields_se (r : BitReader) : se.Yields r ((codeword r.unread).bind fun (code, length) =>
    if signedValue code < 2 ^ 31 then .ok (signedValue code, length)
    else .error .conversionFailed) :=
  (yields_ue r).check signedValue (fun code => signedValue code < 2 ^ 31) .conversionFailed

/-- Fields are skipped one after another, as far as there are bits. -/
theorem exists_yields_fields (read : List Nat) (start count : Nat) (r : BitReader) :
    ∃ values, (collectOnto (fun _ => u 32) read start count).Yields r
      (if r.unread.length < 32 * count then .error .outOfBits else .ok (values, 32 * count)) := by
  induction count generalizing read start r with
  | zero => exact ⟨_, yields_pure _ r⟩
  | succ count ih =>
    have hfirst := yields_u 32 r
    rw [if_neg (by decide)] at hfirst
    by_cases hlength : r.unread.length < 32
    · refine ⟨[], ?_⟩
      rw [if_pos hlength] at hfirst
      rw [if_pos (by omega)]
      exact hfirst.bind_error _
    · rw [if_neg hlength] at hfirst
      obtain ⟨r₁, hrun, hunread, hposition⟩ := hfirst
      obtain ⟨values, hvalues⟩ := ih (ofBits (r.unread.take 32) :: read) (start + 1) r₁
      rw [hunread, List.length_drop] at hvalues
      have hall : (collectOnto (fun _ => u 32) read start (count + 1)).Yields r _ :=
        yields_bind_of_run hrun hunread hposition hvalues
      refine ⟨values, ?_⟩
      by_cases hrest : r.unread.length - 32 < 32 * count
      · rw [if_pos hrest] at hall
        rw [if_pos (by omega)]
        exact hall
      · rw [if_neg hrest] at hall
        rw [if_neg (by omega), Nat.mul_succ, Nat.add_comm (32 * count)]
        exact hall

theorem yields_skip (count : Nat) (r : BitReader) :
    (skip count).Yields r (if r.unread.length < count then .error .outOfBits
      else .ok ((), count)) := by
  obtain ⟨values, hvalues⟩ := exists_yields_fields [] 0 (count / 32) r
  by_cases hlength : r.unread.length < 32 * (count / 32)
  · rw [if_pos hlength] at hvalues
    rw [if_pos (by omega)]
    exact hvalues.bind_error _
  · rw [if_neg hlength] at hvalues
    obtain ⟨r₁, hrun, hunread, hposition⟩ := hvalues
    have hlast := yields_u (count % 32) r₁
    rw [if_neg (by omega), hunread, List.length_drop] at hlast
    have hall : (skip count).Yields r _ :=
      yields_bind_of_run hrun hunread hposition (hlast.map fun _ => ())
    by_cases hrest : r.unread.length - 32 * (count / 32) < count % 32
    · rw [if_pos hrest] at hall
      rw [if_pos (by omega)]
      exact hall
    · rw [if_neg hrest] at hall
      rw [if_neg (by omega)]
      have hcount : (skip count).Yields r (.ok ((), 32 * (count / 32) + count % 32)) := hall
      rwa [Nat.div_add_mod] at hcount

end Parse

namespace BitReader

/-! ### Requests -/

/-- What a reader can be asked for. -/
inductive Request where
  /-- The next bit. -/
  | bit
  /-- A number of so many bits. -/
  | field (count : Nat)
  /-- So many bits are passed over. -/
  | skip (count : Nat)
  /-- A number in an Exp-Golomb codeword. -/
  | unsigned
  /-- A signed number in an Exp-Golomb codeword. -/
  | signed
  /-- The rest of the byte is passed over; are its bits all zero? -/
  | align
  deriving DecidableEq, Repr

/-- What comes of a request. -/
inductive Answer where
  | flag (value : Bool)
  | number (value : Int)
  | none
  deriving DecidableEq, Repr

namespace Request

/-- The request as it is put to a reader. -/
def parse : Request → Parse Answer
  | bit => Parse.flag >>= fun b => pure (.flag b)
  | field count => u count >>= fun value => pure (.number value)
  | skip count => Parse.skip count >>= fun _ => pure .none
  | unsigned => ue >>= fun value => pure (.number value)
  | signed => se >>= fun value => pure (.number value)
  | align => Parse.align fun zero => pure (.flag zero)

/-- The answer to a request at a place in a string of bits, and how many bits it takes. -/
def decode (bits : List Bool) (place : Nat) (request : Request) :
    Except ReadError (Answer × Nat) :=
  let ahead := bits.drop place
  match request with
  | bit =>
    match ahead with
    | [] => .error .outOfBits
    | b :: _ => .ok (.flag b, 1)
  | field count =>
    if 32 < count then .error (.tooManyBits count)
    else if ahead.length < count then .error .outOfBits
    else .ok (.number (ofBits (ahead.take count)), count)
  | skip count => if ahead.length < count then .error .outOfBits else .ok (.none, count)
  | unsigned => (codeword ahead).map fun (value, length) => (.number value, length)
  | signed => (codeword ahead).bind fun (code, length) =>
    if signedValue code < 2 ^ 31 then .ok (.number (signedValue code), length)
    else .error .conversionFailed
  | align =>
    let gap := (8 - place % 8) % 8
    .ok (.flag ((ahead.take gap).all (!·)), gap)

end Request

/-! ### Cursors -/

/-- The reader is at the place in the payload that its position names. -/
structure Cursor (escaped : Bool) (bytes : List UInt8) (r : BitReader) : Prop where
  unread : r.unread = (payloadBits escaped bytes).drop r.position
  position : r.position ≤ (payloadBits escaped bytes).length
  left : r.left ≤ 8
  total : r.position + r.left + 8 * (r.bytes.length + r.removed) = 8 * bytes.length

variable {escaped : Bool} {bytes : List UInt8} {r r' : BitReader}

/-- A fetch that fails leaves no bytes. -/
theorem fetch_eq_error {e : ReadError} (hfetch : r.fetch = (.error e, r')) :
    e = .outOfBits ∧ r'.bytes = [] ∧ r'.left = r.left ∧ r.ahead = [] := by
  have hahead : r.ahead = [] := by
    cases hahead : r.ahead with
    | nil => rfl
    | cons byte rest =>
      obtain ⟨_, hok, -⟩ := fetch_of_ahead_cons hahead
      rw [hfetch] at hok
      cases hok
  unfold fetch at hfetch
  split at hfetch
  · rename_i hbytes
    cases hfetch
    exact ⟨rfl, hbytes, rfl, hahead⟩
  · split at hfetch
    · split at hfetch <;> cases hfetch
      exact ⟨rfl, rfl, rfl, hahead⟩
    · cases hfetch

/-- A fetch changes nothing about the bits in front, also when there is no byte to be had. -/
theorem unread_fetch (hleft : r.left = 0) : r.fetch.2.unread = r.unread := by
  cases hahead : r.ahead with
  | nil =>
    have hfetch : r.fetch = (.error .outOfBits, r.fetch.2) :=
      Prod.ext (fetch_of_ahead_nil hahead) rfl
    obtain ⟨-, hbytes, hsame, -⟩ := fetch_eq_error hfetch
    rw [unread, unread, hsame, hleft, lowBits_zero, lowBits_zero, hahead, ahead, hbytes, payload_nil]
  | cons byte rest =>
    obtain ⟨r₁, hfetch, hr₁⟩ := fetch_of_ahead_cons hahead
    rw [hfetch, unread, unread, hr₁.ahead, hr₁.left, hr₁.current, hahead, hleft, lowBits_zero,
      List.nil_append, List.flatMap_cons]
    rfl

/-- What a fetch takes out of the bytes to come is unread or has been dropped. -/
theorem fetch_total (hleft : r.left = 0) :
    r.fetch.2.position = r.position ∧ r.fetch.2.left ≤ 8 ∧
      r.fetch.2.left + 8 * (r.fetch.2.bytes.length + r.fetch.2.removed) =
        8 * (r.bytes.length + r.removed) := by
  unfold fetch
  split
  · simp [*]
  · split
    · split
      · simp [*]; omega
      · simp [load, *]; omega
    · simp [load, *]; omega

theorem cursor_ofBytes (escaped : Bool) (bytes : List UInt8) :
    Cursor escaped bytes (ofBytes escaped bytes) where
  unread := rfl
  position := Nat.zero_le _
  left := Nat.zero_le _
  total := by simp [ofBytes]

theorem Cursor.readBits {n value : Nat} (h : Cursor escaped bytes r)
    (hread : r.readBits n = (.ok value, r')) : Cursor escaped bytes r' := by
  obtain ⟨-, hlength, -, hunread, hposition⟩ := readBits_eq_ok hread
  have hstart := h.position
  rw [h.unread, List.length_drop] at hlength
  rw [h.unread, List.drop_drop, ← hposition] at hunread
  unfold BitReader.readBits at hread
  split at hread
  · cases hread
  dsimp only at hread
  split at hread
  · cases hread
  rename_i all r₁ hgather
  obtain ⟨passed, hpassed, -⟩ := gather_passes hgather
  have htotal := h.total
  have hleft := h.left
  have hbytes := congrArg List.length hpassed.bytes
  have hremoved := hpassed.removed
  have hfetched := hpassed.fetched
  -- What is fetched is enough, and at most a whole byte of it stays unread.
  have hcount : n ≤ r.left + 8 * r.bytesFor n ∧ r.left + 8 * r.bytesFor n ≤ n + 8 := by
    unfold bytesFor
    omega
  rw [List.length_append] at hbytes
  cases hread
  refine ⟨hunread, by omega, ?_, ?_⟩
  · show r.left + 8 * r.bytesFor n - n ≤ 8
    omega
  · have hsame : r₁.position = r.position := hpassed.position
    show r₁.position + n + (r.left + 8 * r.bytesFor n - n) + 8 * (r₁.bytes.length + r₁.removed) = _
    omega

theorem Cursor.fetch (h : Cursor escaped bytes r) (hleft : r.left = 0) :
    Cursor escaped bytes r.fetch.2 := by
  obtain ⟨hposition, hleft', htotal'⟩ := fetch_total hleft
  have htotal := h.total
  refine ⟨?_, ?_, hleft', by omega⟩
  · rw [unread_fetch hleft, h.unread, hposition]
  · rw [hposition]
    exact h.position

theorem moreData_snd (r : BitReader) : r.moreData.2 = if r.left = 0 then r.fetch.2 else r := by
  unfold BitReader.moreData
  split
  · split <;> simp [*]
  · rfl

theorem Cursor.moreData (h : Cursor escaped bytes r) : Cursor escaped bytes r.moreData.2 := by
  rw [moreData_snd]
  split
  · rename_i hleft
    exact h.fetch hleft
  · exact h

/-- What is left of a byte ends where the position is a multiple of eight. -/
theorem Cursor.left_add (h : Cursor escaped bytes r) :
    r.position + r.left + 8 * r.ahead.length = 8 * (payload escaped 0 bytes).length := by
  have hlength := congrArg List.length h.unread
  have hposition := h.position
  rw [length_unread, List.length_drop] at hlength
  rw [payloadBits, length_flatMap_byteBits] at hlength hposition
  omega

theorem Cursor.isAligned_iff (h : Cursor escaped bytes r) : r.isAligned ↔ 8 ∣ r.position := by
  have hleft := h.left_add
  rw [BitReader.isAligned, beq_iff_eq]
  omega

/-- As many bits are skipped as there are up to the next multiple of eight. -/
theorem Cursor.left_mod (h : Cursor escaped bytes r) :
    r.left % 8 = (8 - r.position % 8) % 8 := by
  have hleft := h.left_add
  omega

/-- The rest of a byte is passed over, which is all of it only if nothing has been read. -/
theorem align_of_left_le (hleft : r.left ≤ 8) :
    r.align.1 = (r.unread.take (r.left % 8)).all (!·) ∧
      r.align.2.unread = r.unread.drop (r.left % 8) := by
  rcases hleft.lt_or_eq with hlt | hfull
  · have hmod : r.left % 8 = r.left := Nat.mod_eq_of_lt hlt
    have hlength := length_lowBits r.left r.current.toNat
    constructor
    · have hzero := any_id_eq (lowBits r.left r.current.toNat)
      rw [ofBits_lowBits, ← pow2_eq] at hzero
      rw [BitReader.align, hmod, unread, List.take_left' hlength, ← List.not_any_eq_all_not]
      exact (Bool.not_not _).symm.trans (congrArg (!·) hzero.symm)
    · rw [unread, unread, hmod, List.drop_left' hlength]
      show lowBits (r.left - r.left % 8) _ ++ _ = _
      rw [hmod, Nat.sub_self, lowBits_zero]
      rfl
  · have hmod : r.left % 8 = 0 := by rw [hfull]
    constructor
    · rw [BitReader.align, hmod, List.take_zero, pow2_eq, pow_zero, Nat.mod_one]
      rfl
    · rw [BitReader.align, hmod]
      rfl

theorem Cursor.align (h : Cursor escaped bytes r) : Cursor escaped bytes r.align.2 := by
  have hplace := h.left_add
  have hmod := h.left_mod
  have hleft := h.left
  have htotal := h.total
  have hposition : r.align.2.position = r.position + r.left % 8 := rfl
  refine ⟨?_, ?_, ?_, ?_⟩
  · rw [(align_of_left_le hleft).2, h.unread, List.drop_drop, hposition]
  · rw [hposition, payloadBits, length_flatMap_byteBits]
    omega
  · exact (Nat.sub_le _ _).trans hleft
  · show r.position + r.left % 8 + (r.left - r.left % 8) + 8 * (r.bytes.length + r.removed) = _
    omega

/-- Whatever is asked of a reader and not refused leaves it at the place of its position. -/
theorem Cursor.skipDataUpTo {limit : Nat} (h : Cursor escaped bytes r)
    (hskip : BitReader.skipDataUpTo limit r = (.ok (), r')) : Cursor escaped bytes r' := by
  induction limit generalizing r with
  | zero =>
    cases hskip
    exact h
  | succ limit ih =>
    have hmore := h.moreData
    rw [BitReader.skipDataUpTo] at hskip
    rcases hlook : r.moreData with ⟨_ | _, r₁⟩ <;> rw [hlook] at hskip hmore
    · cases hskip
      exact hmore
    · dsimp only at hskip
      rcases hread : r₁.readBits 1 with ⟨e | value, r₂⟩ <;> rw [hread] at hskip
      · cases hskip
      · exact ih (hmore.readBits hread) hskip

/-- **A reader stays a cursor** over any structure that it reads. -/
theorem Cursor.of_run {α : Type} {p : Parse α} {value : α} (h : Cursor escaped bytes r)
    (hrun : p.run r = (.ok value, r')) : Cursor escaped bytes r' := by
  induction p generalizing r with
  | done a =>
    cases hrun
    exact h
  | fail error => cases hrun
  | bits count next ih =>
    rw [run] at hrun
    rcases hread : r.readBits count with ⟨e | n, r₁⟩ <;> rw [hread] at hrun
    · cases hrun
    · exact ih n (h.readBits hread) hrun
  | moreData next ih => exact ih _ h.moreData hrun
  | align next ih => exact ih _ h.align hrun
  | skipData next ih =>
    rw [run] at hrun
    rcases hskip : r.skipData with ⟨e | _, r₁⟩ <;> rw [hskip] at hrun
    · cases hrun
    · exact ih (h.skipDataUpTo hskip) hrun
  | position next ih => exact ih _ h hrun
  | checkOverrun next ih =>
    rw [run] at hrun
    split at hrun
    · exact ih h hrun
    · cases hrun

/-! ### Sequences of requests -/

/-- The reader has come to its place in the payload by requests that succeeded, in any order,
and by looking ahead. -/
inductive Reached (escaped : Bool) (bytes : List UInt8) : BitReader → Prop where
  | start : Reached escaped bytes (ofBytes escaped bytes)
  | read {r r' : BitReader} {request : Request} {answer : Answer} (h : Reached escaped bytes r)
      (hrun : request.parse.run r = (.ok answer, r')) : Reached escaped bytes r'
  | look {r : BitReader} (h : Reached escaped bytes r) : Reached escaped bytes r.moreData.2

theorem Reached.cursor (h : Reached escaped bytes r) : Cursor escaped bytes r := by
  induction h with
  | start => exact cursor_ofBytes escaped bytes
  | read _ hrun ih => exact ih.of_run hrun
  | look _ ih => exact ih.moreData

/-- A reader does what its position and the bits of the payload tell. -/
theorem Cursor.yields_decode (h : Cursor escaped bytes r) (request : Request) :
    request.parse.Yields r (request.decode (payloadBits escaped bytes) r.position) := by
  unfold Request.decode
  rw [← h.unread]
  cases request with
  | bit =>
    have hflag := (yields_flag r).map Answer.flag
    cases hunread : r.unread with
    | nil => rwa [hunread] at hflag
    | cons b rest => rwa [hunread] at hflag
  | field count =>
    have hfield := (yields_u count r).map fun value => Answer.number value
    dsimp only
    split_ifs at hfield ⊢ <;> exact hfield
  | skip count =>
    have hskip := (yields_skip count r).map fun _ => Answer.none
    dsimp only
    split_ifs at hskip ⊢ <;> exact hskip
  | unsigned => exact (yields_ue r).map fun value => Answer.number value
  | signed =>
    have hsigned := (yields_se r).map Answer.number
    dsimp only
    rcases hcode : codeword r.unread with e | ⟨code, length⟩ <;> rw [hcode] at hsigned
    · exact hsigned
    · dsimp only [Except.bind] at hsigned ⊢
      split_ifs at hsigned ⊢ <;> exact hsigned
  | align =>
    obtain ⟨hzero, hunread⟩ := align_of_left_le h.left
    rw [h.left_mod] at hzero hunread
    refine ⟨r.align.2, ?_, hunread, ?_⟩
    · show (Except.ok (Answer.flag r.align.1), r.align.2) = _
      rw [hzero]
    · show r.position + r.left % 8 = _
      rw [h.left_mod]

/-- **A reader is a cursor over the bits of the payload**: wherever requests have taken it, what
comes of any further one is decoded from the payload at the position, which then moves on by the
bits taken.  The reader is aligned where the position is a multiple of eight, and a field of at
most 32 bits is refused only because fewer bits than that are left. -/
theorem Reached.isCursor (h : Reached escaped bytes r) :
    (∀ request : Request,
      request.parse.Yields r (request.decode (payloadBits escaped bytes) r.position)) ∧
    (r.isAligned ↔ 8 ∣ r.position) ∧
    ∀ n ≤ 32, ∀ e, (r.readBits n).1 = .error e ↔
      e = .outOfBits ∧ (payloadBits escaped bytes).length < r.position + n := by
  refine ⟨h.cursor.yields_decode, h.cursor.isAligned_iff, fun n hn e => ?_⟩
  have hlength := congrArg List.length h.cursor.unread
  rw [List.length_drop] at hlength
  have hposition := h.cursor.position
  constructor
  · intro hrefused
    by_cases hshort : r.unread.length < n
    · rw [readBits_of_lt hn hshort] at hrefused
      exact ⟨(Except.error.inj hrefused).symm, by omega⟩
    · obtain ⟨r₁, hread, -⟩ := r.readBits_of_le hn (Nat.le_of_not_lt hshort)
      rw [hread] at hrefused
      cases hrefused
  · rintro ⟨rfl, hshort⟩
    exact readBits_of_lt hn (by omega)

/-- A number is read across a dropped byte, and another one after that; the byte that is dropped
last is the end. -/
theorem Reached.isCursor_acrossDropped : ∃ r : BitReader,
    Reached true [0, 0, 3, 0xA8, 0, 0, 3] r ∧ r.position = 24 ∧ r.removed = 1 ∧
    (∀ request : Request, request.parse.Yields r
      (request.decode (payloadBits true [0, 0, 3, 0xA8, 0, 0, 3]) r.position)) ∧
    (r.isAligned ↔ 8 ∣ r.position) ∧
    ∀ n ≤ 32, ∀ e, (r.readBits n).1 = .error e ↔
      e = .outOfBits ∧ (payloadBits true [0, 0, 3, 0xA8, 0, 0, 3]).length < r.position + n := by
  have hfield : Reached true [0, 0, 3, 0xA8, 0, 0, 3] _ :=
    .read .start (show (Request.field 20).parse.run _ = (.ok (.number 10), _) from rfl)
  have hunsigned := Reached.read hfield
    (show Request.unsigned.parse.run _ = (.ok (.number 0), _) from rfl)
  have haligned := Reached.read hunsigned
    (show Request.align.parse.run _ = (.ok (.flag true), _) from rfl)
  exact ⟨_, haligned, rfl, rfl, haligned.isCursor⟩

end BitReader

end CodedVideo
