import CodedVideo.Proofs.Passing

/-!
# Looking for the stop bit

A payload ends with a one and zeros behind it, so the last one among its bits is the stop bit.
Data come before it as long as another one comes behind the next bit, and that is what a
reader looks for.  Here this is told of the bits in front of the reader
(`BitReader.Plain.moreData_eq`), for payloads without emulation prevention bytes: when a
reader looks ahead it takes no account of those.

Skipping data bit by bit therefore stops right before the stop bit, whatever the data are
(`BitReader.Plain.exists_skipData`), and the payload can end there
(`BitReader.Plain.exists_finish`).
-/

namespace CodedVideo

/-! ### Ones among bits -/

/-- There is a one among bits exactly if they do not denote zero. -/
theorem any_id_eq (bits : List Bool) : bits.any id = (ofBits bits != 0) := by
  induction bits with
  | nil => rfl
  | cons b rest ih =>
    rw [List.any_cons, ih, ofBits_cons]
    cases b with
    | false => simp
    | true => simp

theorem any_byteBits (byte : UInt8) : (byteBits byte).any id = (byte != 0) := by
  rw [any_id_eq, ofBits_byteBits, Bool.eq_iff_iff, bne_iff_ne, bne_iff_ne, ne_eq, ne_eq,
    ← UInt8.toNat_inj]
  rfl

theorem any_flatMap_byteBits (bytes : List UInt8) :
    (bytes.flatMap byteBits).any id = bytes.any (· != 0) := by
  rw [List.any_flatMap]
  exact congrArg bytes.any (funext any_byteBits)

theorem any_replicate_false (k : Nat) : (List.replicate k false).any id = false :=
  List.any_eq_false.mpr fun b hb => by rw [List.eq_of_mem_replicate hb]; exact Bool.false_ne_true

namespace BitReader

/-- A reader of a payload without emulation prevention bytes, which may have fetched a byte of
which nothing has been read. -/
structure Plain (r : BitReader) : Prop where
  escaped : r.escaped = false
  left : r.left ≤ 8
  total : r.position + r.left + 8 * (r.bytes.length + r.removed) = 8 * r.size

theorem Balanced.plain {r : BitReader} (h : r.Balanced) (hescaped : r.escaped = false) :
    r.Plain where
  escaped := hescaped
  left := h.left.le
  total := h.total

namespace Plain

variable {r : BitReader}

theorem ahead_eq (h : r.Plain) : r.ahead = r.bytes := by
  rw [ahead, h.escaped, payload_unescaped]

theorem unread_eq (h : r.Plain) :
    r.unread = lowBits r.left r.current.toNat ++ r.bytes.flatMap byteBits := by
  rw [unread, h.ahead_eq]

theorem bitsLeft_eq (h : r.Plain) : r.bitsLeft = r.unread.length := by
  rw [length_unread, h.ahead_eq, bitsLeft]
  omega

/-- A one comes behind the next bit. -/
theorem oneAhead_eq (h : r.Plain) (hleft : 1 ≤ r.left) :
    r.oneAhead = (r.unread.drop 1).any id := by
  have hdrop : r.unread.drop 1 =
      lowBits (r.left - 1) r.current.toNat ++ r.bytes.flatMap byteBits := by
    rw [h.unread_eq, List.drop_append_of_le_length (by rwa [length_lowBits]), drop_lowBits]
  rw [hdrop, List.any_append, any_flatMap_byteBits, any_id_eq, ofBits_lowBits]
  rfl

/-- Looking ahead may fetch a byte, which changes nothing about the bits in front. -/
theorem moreData_eq (h : r.Plain) (hunread : r.unread ≠ []) :
    ∃ r₁, r.moreData = ((r.unread.drop 1).any id, r₁) ∧ r₁.Plain ∧ 1 ≤ r₁.left ∧
      r₁.unread = r.unread := by
  by_cases hleft : r.left = 0
  · cases hbytes : r.bytes with
    | nil =>
      rw [h.unread_eq, hleft, hbytes] at hunread
      exact absurd rfl hunread
    | cons byte rest =>
      have hkeep : ¬ (r.escaped ∧ 2 ≤ r.zeroRun ∧ byte = 3) := by simp [h.escaped]
      have hfetch : r.fetch = (.ok (), r.load r.zeroRun byte rest) := by
        rw [fetch, hbytes]
        exact if_neg hkeep
      have hloaded : (r.load r.zeroRun byte rest).Plain := by
        refine ⟨h.escaped, le_rfl, ?_⟩
        have htotal := h.total
        rw [hleft, hbytes, List.length_cons] at htotal
        show r.position + 8 + 8 * (rest.length + r.removed) = 8 * r.size
        omega
      have hsame : (r.load r.zeroRun byte rest).unread = r.unread := by
        rw [hloaded.unread_eq, h.unread_eq, hleft, hbytes, lowBits_zero, List.nil_append,
          List.flatMap_cons]
        rfl
      refine ⟨_, ?_, hloaded, Nat.succ_pos 7, hsame⟩
      rw [moreData, if_pos hleft, hfetch, ← hsame]
      exact congrArg (·, _) (hloaded.oneAhead_eq (Nat.succ_pos 7))
  · have hpos : 1 ≤ r.left := Nat.one_le_iff_ne_zero.mpr hleft
    refine ⟨r, ?_, h, hpos, rfl⟩
    rw [moreData, if_neg hleft, h.oneAhead_eq hpos]

/-- The next bit is one of the current byte. -/
theorem readBits_one (h : r.Plain) (hleft : 1 ≤ r.left) :
    ∃ r₁, r.readBits 1 = (.ok (ofBits (r.unread.take 1)), r₁) ∧ r₁.Plain ∧
      r₁.unread = r.unread.drop 1 := by
  have hlength : 1 ≤ r.unread.length := by
    rw [length_unread]
    omega
  obtain ⟨r₁, hread, hunread, -⟩ := r.readBits_of_le (by decide) hlength
  have hcount : r.bytesFor 1 = 0 := by
    unfold bytesFor
    omega
  have hstep : (r.readBits 1).2 = { r with left := r.left - 1, position := r.position + 1 } := by
    rw [readBits, if_neg (by decide), hcount]
    rfl
  refine ⟨r₁, hread, ?_, hunread⟩
  rw [hread] at hstep
  obtain rfl : r₁ = _ := hstep
  have hbound := h.left
  have htotal := h.total
  refine ⟨h.escaped, ?_, ?_⟩
  · show r.left - 1 ≤ 8
    omega
  · show r.position + 1 + (r.left - 1) + 8 * (r.bytes.length + r.removed) = 8 * r.size
    omega

/-- **Skipping stops before the stop bit**, for any data in front of it. -/
theorem exists_skipDataUpTo {data : List Bool} {k limit : Nat} (h : r.Plain)
    (hunread : r.unread = data ++ true :: List.replicate k false) (hlimit : data.length < limit) :
    ∃ r₁, skipDataUpTo limit r = (.ok (), r₁) ∧ r₁.Plain ∧ 1 ≤ r₁.left ∧
      r₁.unread = true :: List.replicate k false := by
  induction data generalizing r limit with
  | nil =>
    obtain ⟨limit, rfl⟩ := Nat.exists_eq_succ_of_ne_zero hlimit.ne'
    obtain ⟨r₁, hmore, hr₁, hleft, hsame⟩ := h.moreData_eq (by simp [hunread])
    have hnone : (r.unread.drop 1).any id = false := by
      rw [hunread]
      exact any_replicate_false k
    refine ⟨r₁, ?_, hr₁, hleft, hsame.trans hunread⟩
    rw [skipDataUpTo, hmore, hnone]
  | cons b data ih =>
    obtain ⟨limit, rfl⟩ := Nat.exists_eq_succ_of_ne_zero (Nat.ne_of_gt (Nat.zero_lt_of_lt hlimit))
    obtain ⟨r₁, hmore, hr₁, hleft, hsame⟩ := h.moreData_eq (by simp [hunread])
    have hone : (r.unread.drop 1).any id = true := by
      rw [hunread]
      simp
    obtain ⟨r₂, hread, hr₂, hrest⟩ := hr₁.readBits_one hleft
    rw [hsame, hunread] at hrest
    obtain ⟨r₃, hskip, hend⟩ := ih hr₂ hrest (Nat.lt_of_succ_lt_succ hlimit)
    refine ⟨r₃, ?_, hend⟩
    rw [skipDataUpTo, hmore, hone]
    dsimp only
    rw [hread]
    exact hskip

theorem exists_skipData {data : List Bool} {k : Nat} (h : r.Plain)
    (hunread : r.unread = data ++ true :: List.replicate k false) :
    ∃ r₁, r.skipData = (.ok (), r₁) ∧ r₁.Plain ∧ 1 ≤ r₁.left ∧
      r₁.unread = true :: List.replicate k false := by
  refine h.exists_skipDataUpTo hunread ?_
  rw [h.bitsLeft_eq, hunread, List.length_append, List.length_cons]
  omega

/-- The payload can end where the stop bit comes next. -/
theorem exists_finish {rest : List Bool} (h : r.Plain) (hleft : 1 ≤ r.left)
    (hunread : r.unread = true :: rest) : ∃ r₁, Parse.finish.run r = (.ok (), r₁) := by
  obtain ⟨r₁, hread, hr₁, -⟩ := h.readBits_one hleft
  have hflag : Parse.flag.run r = (.ok true, r₁) := by
    have hstop : r.readBits 1 = (.ok 1, r₁) := by rw [hread, hunread]; rfl
    rw [Parse.flag, Parse.u]
    show (Parse.bits 1 _).run r = _
    rw [Parse.run, hstop]
    rfl
  have hcheck : r₁.align.2.checkOverrun = .ok () := by
    have htotal := hr₁.total
    refine if_neg ?_
    show ¬ r₁.position + r₁.left % 8 > (r₁.size - r₁.removed) * 8
    omega
  rw [Parse.run_finish, hflag]
  dsimp only
  rw [hcheck]
  exact ⟨_, rfl⟩

end Plain

end BitReader

end CodedVideo
