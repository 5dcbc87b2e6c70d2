import CodedVideo.Proofs.PayloadCursor
import CodedVideo.Proofs.WrittenBits

/-!
# Exp-Golomb codewords and nothing else

A codeword says in zeros how many digits follow its first one, and zeros and digits together are
the codeword of exactly one number (`expGolombBits_of_suffix`).  So a reader that finds one in
front has found the bits that a writer writes for the number (`codeword_eq_ok`).

Numbers have 32 bits.  There is room for one codeword with 32 zeros, that of the largest number,
and for none with more (`Overlong`).  What neither starts with a codeword nor is overlong ends too
early, whether within the zeros or within the digits.

Signed numbers share the codewords.  The code numbers run over one value more than a signed number
of 32 bits whose negative is one, too, can have, so the last codeword is left without a value.
-/

namespace CodedVideo

open Parse
open Nal (expGolombBits signedCode)
open Nal.Writer (Call)

/-! ### What is written -/

namespace Nal.Writer

/-- The bits that a call of a new writer writes. -/
def emitted (call : Call) : List Bool := (after { escaped := false } call).written

theorem emitted_unsigned (value : Nat) : emitted (.unsigned value) = expGolombBits value :=
  (plain_start.put (expGolombBits value)).2

theorem emitted_signed {value : Int} (h : -(2 ^ 31) < value ∧ value < 2 ^ 31) :
    emitted (.signed value) = expGolombBits (signedCode value) := by
  have hfits : (Call.signed value).Fits := h
  exact (plain_start.after hfits).2

end Nal.Writer

open Nal.Writer (emitted emitted_unsigned emitted_signed)

/-- Zeros, a one and as many digits are the codeword of the number that comes of them. -/
theorem expGolombBits_of_suffix (suffix : List Bool) :
    expGolombBits (2 ^ suffix.length - 1 + ofBits suffix) =
      List.replicate suffix.length false ++ true :: suffix := by
  have hlt := ofBits_lt suffix
  have hpos := Nat.two_pow_pos suffix.length
  have hsucc : 2 ^ suffix.length - 1 + ofBits suffix + 1 = 2 ^ suffix.length + ofBits suffix := by
    omega
  have hlog : (2 ^ suffix.length + ofBits suffix).log2 = suffix.length := by
    rw [Nat.log2_eq_iff (by omega), Nat.pow_succ]
    omega
  rw [expGolombBits_eq, hsucc, hlog, ← lowBits_mod, Nat.add_mod_left, lowBits_mod, lowBits_ofBits,
    List.append_assoc, List.singleton_append]

/-! ### What is found in front -/

/-- No codeword starts like this: there are too many zeros, or as many as there can be and behind
them a number that is too large. -/
def Overlong (bits : List Bool) : Prop :=
  List.replicate 33 false <+: bits ∨
    ∃ suffix : List Bool, suffix.length = 32 ∧ true ∈ suffix ∧
      List.replicate 32 false ++ true :: suffix <+: bits

variable {bits : List Bool}

theorem zerosAhead_append (k : Nat) (bits : List Bool) :
    zerosAhead (List.replicate k false ++ bits) = k + zerosAhead bits := by
  unfold zerosAhead
  rw [List.takeWhile_append_of_pos (by simp), List.length_append, List.length_replicate]

theorem replicate_zerosAhead (bits : List Bool) :
    List.replicate (zerosAhead bits) false <+: bits := by
  rcases zerosAhead_spec bits with h | ⟨rest, h⟩
  · exact ⟨[], by rw [List.append_nil]; exact h.symm⟩
  · exact ⟨true :: rest, h.symm⟩

/-- Bits that hold a codeword to its end are the zeros, a one, the digits and others. -/
theorem exists_suffix (h : 2 * zerosAhead bits + 1 ≤ bits.length) :
    ∃ suffix rest, suffix.length = zerosAhead bits ∧
      (bits.drop (zerosAhead bits + 1)).take (zerosAhead bits) = suffix ∧
      bits = List.replicate (zerosAhead bits) false ++ true :: suffix ++ rest := by
  rcases zerosAhead_spec bits with hbits | ⟨rest, hbits⟩
  · have hlength := congrArg List.length hbits
    rw [List.length_replicate] at hlength
    omega
  · have hlength := congrArg List.length hbits
    rw [List.length_append, List.length_replicate, List.length_cons] at hlength
    have hrest : bits.drop (zerosAhead bits + 1) = rest := by
      rw [List.append_cons] at hbits
      have hfront : (List.replicate (zerosAhead bits) false ++ [true]).length =
          zerosAhead bits + 1 := by simp
      rw [← hfront]
      exact (congrArg (List.drop _) hbits).trans (List.drop_left ..)
    refine ⟨rest.take (zerosAhead bits), rest.drop (zerosAhead bits), ?_, by rw [hrest], ?_⟩
    · exact List.length_take_of_le (by omega)
    · rw [List.append_assoc, List.cons_append, List.take_append_drop]
      exact hbits

/-- **What is found in front is what is written for the number.** -/
theorem codeword_eq_ok {value length : Nat} (h : codeword bits = .ok (value, length)) :
    value < 2 ^ 32 ∧ expGolombBits value <+: bits ∧ length = (expGolombBits value).length := by
  unfold codeword at h
  dsimp only at h
  split_ifs at h with hzeros hshort hvalue
  obtain ⟨suffix, rest, hlength, hsuffix, hbits⟩ := exists_suffix (Nat.le_of_not_lt hshort)
  have hcode := expGolombBits_of_suffix suffix
  rw [hlength, ← hsuffix] at hcode
  cases h
  refine ⟨hvalue, ⟨rest, ?_⟩, ?_⟩
  · rw [hcode, hsuffix]
    exact hbits.symm
  · rw [hcode, List.length_append, List.length_replicate, List.length_cons, hsuffix, hlength]
    omega

/-- Digits that are not all zero are those of a number that is not zero. -/
theorem ofBits_ne_zero_iff {digits : List Bool} : ofBits digits ≠ 0 ↔ true ∈ digits := by
  rw [← bne_iff_ne, ← any_id_eq, List.any_eq_true]
  constructor
  · rintro ⟨b, hb, hbtrue⟩
    rwa [show b = true from hbtrue] at hb
  · exact fun h => ⟨true, h, rfl⟩

/-- Bits that are refused for being too long are overlong. -/
theorem overlong_of_codeword (h : codeword bits = .error .expGolombOverflow) : Overlong bits := by
  unfold codeword at h
  dsimp only at h
  split_ifs at h with hzeros hshort hvalue
  · obtain ⟨more, hmore⟩ := Nat.exists_eq_add_of_le (Nat.succ_le_of_lt hzeros)
    have hfront := replicate_zerosAhead bits
    rw [hmore, ← List.replicate_append_replicate] at hfront
    exact .inl ((List.prefix_append _ _).trans hfront)
  · cases h
  · obtain ⟨suffix, rest, hlength, hsuffix, hbits⟩ := exists_suffix (Nat.le_of_not_lt hshort)
    rw [hsuffix] at hvalue
    have hlt := ofBits_lt suffix
    rw [hlength] at hlt
    -- With fewer zeros every number would do.
    have hmost : zerosAhead bits = 32 := by
      by_contra hfewer
      have hpow : 2 ^ zerosAhead bits ≤ 2 ^ 31 := Nat.pow_le_pow_right (by decide) (by omega)
      omega
    rw [hmost] at hvalue hbits hlength
    exact .inr ⟨suffix, hlength, ofBits_ne_zero_iff.mp (by omega), rest, hbits.symm⟩

/-- Bits are too long for a codeword exactly if they are overlong. -/
theorem codeword_overflow_iff : codeword bits = .error .expGolombOverflow ↔ Overlong bits := by
  refine ⟨overlong_of_codeword, ?_⟩
  rintro (⟨rest, rfl⟩ | ⟨suffix, hlength, hone, rest, rfl⟩)
  · have hzeros := zerosAhead_append 33 rest
    unfold codeword
    dsimp only
    rw [if_pos (by omega)]
  · have hzeros : zerosAhead (List.replicate 32 false ++ true :: suffix ++ rest) = 32 := by
      rw [List.append_assoc, zerosAhead_append]
      rfl
    have hsuffix : ((List.replicate 32 false ++ true :: suffix ++ rest).drop 33).take 32 =
        suffix := by
      rw [List.append_cons, List.append_assoc, List.drop_left' (by simp),
        List.take_left' hlength]
    have hpositive := ofBits_ne_zero_iff.mpr hone
    unfold codeword
    dsimp only
    rw [hzeros, hsuffix, if_neg (by decide), if_neg, if_neg (by omega)]
    simp [hlength]

theorem codeword_error {e : ReadError} (h : codeword bits = .error e) :
    e = .expGolombOverflow ∨ e = .outOfBits := by
  unfold codeword at h
  dsimp only at h
  split_ifs at h <;> cases h
  · exact .inl rfl
  · exact .inr rfl
  · exact .inl rfl

/-! ### What is read -/

namespace Parse

variable {r : BitReader}

/-- What is yielded is all that the run comes to. -/
theorem Yields.fst_run {α : Type} {p : Parse α} {result : Except ReadError (α × Nat)}
    (h : p.Yields r result) : (p.run r).1 = (result.map Prod.fst).mapError .read := by
  rcases result with e | ⟨value, length⟩
  · exact h
  · obtain ⟨r', hrun, -⟩ := h
    rw [hrun]
    rfl

/-- A number is read exactly if its codeword comes first. -/
theorem fst_run_ue_eq_ok_iff {value : Nat} :
    (ue.run r).1 = .ok value ↔ value < 2 ^ 32 ∧ expGolombBits value <+: r.unread := by
  constructor
  · rw [(yields_ue r).fst_run]
    rcases hcode : codeword r.unread with e | ⟨found, length⟩
    · rintro ⟨⟩
    · rintro ⟨⟩
      obtain ⟨hvalue, hfront, -⟩ := codeword_eq_ok hcode
      exact ⟨hvalue, hfront⟩
  · rintro ⟨hvalue, rest, hrest⟩
    exact ((reads_ue hvalue).yields hrest.symm).fst_run

theorem fst_run_ue_eq_error_iff {e : ReadError} :
    (ue.run r).1 = .error (.read e) ↔ codeword r.unread = .error e := by
  rw [(yields_ue r).fst_run]
  rcases codeword r.unread with e' | ⟨found, length⟩
  · simp [Except.map, Except.mapError]
  · simp [Except.map, Except.mapError]

/-- The code number that denotes a value is the one of the value. -/
theorem signedCode_signedValue (code : Nat) : signedCode (signedValue code) = code := by
  unfold signedValue signedCode
  split <;> split <;> omega

theorem signedValue_lt_iff {code : Nat} (h : code < 2 ^ 32) :
    signedValue code < 2 ^ 31 ↔ code ≠ 2 ^ 32 - 1 := by
  unfold signedValue
  split <;> omega

/-- The codeword of a signed number that is read comes first. -/
theorem front_of_fst_run_se {value : Int} (h : (se.run r).1 = .ok value) :
    (-(2 ^ 31) < value ∧ value < 2 ^ 31) ∧ expGolombBits (signedCode value) <+: r.unread := by
  rw [(yields_se r).fst_run] at h
  rcases hcode : codeword r.unread with e | ⟨code, length⟩ <;> rw [hcode] at h
  · cases h
  · obtain ⟨hcode, hfront, -⟩ := codeword_eq_ok hcode
    dsimp only [Except.bind] at h
    split_ifs at h with hfits
    · cases h
      rw [signedCode_signedValue]
      refine ⟨⟨?_, hfits⟩, hfront⟩
      unfold signedValue
      split <;> omega
    · cases h

/-- Only the last codeword has no value. -/
theorem fst_run_se_eq_conversionFailed_iff :
    (se.run r).1 = .error (.read .conversionFailed) ↔
      expGolombBits (2 ^ 32 - 1) <+: r.unread := by
  have hlast : expGolombBits (2 ^ 32 - 1) <+: r.unread ↔ (ue.run r).1 = .ok (2 ^ 32 - 1) := by
    rw [fst_run_ue_eq_ok_iff]
    exact (and_iff_right (by norm_num)).symm
  rw [hlast, (yields_ue r).fst_run, (yields_se r).fst_run]
  rcases hcode : codeword r.unread with e | ⟨code, length⟩
  · rcases codeword_error hcode with rfl | rfl <;> simp [Except.bind, Except.map, Except.mapError]
  · have hvalue := signedValue_lt_iff (codeword_eq_ok hcode).1
    dsimp only [Except.bind]
    by_cases hfits : signedValue code < 2 ^ 31
    · rw [if_pos hfits]
      simpa [Except.map, Except.mapError] using hvalue.mp hfits
    · rw [if_neg hfits]
      simpa [Except.map, Except.mapError] using not_not.mp (mt hvalue.mpr hfits)

/-- A number is missed for want of bits where none comes first and too many zeros do not. -/
theorem fst_run_ue_eq_outOfBits_iff :
    (ue.run r).1 = .error (.read .outOfBits) ↔
      ¬ Overlong r.unread ∧ ∀ value < 2 ^ 32, ¬ expGolombBits value <+: r.unread := by
  rw [fst_run_ue_eq_error_iff, ← codeword_overflow_iff]
  constructor
  · intro hshort
    refine ⟨by rw [hshort]; nofun, fun value hvalue hfront => ?_⟩
    have hread := fst_run_ue_eq_ok_iff.mpr ⟨hvalue, hfront⟩
    rw [fst_run_ue_eq_error_iff.mpr hshort] at hread
    cases hread
  · rintro ⟨hnot, hnone⟩
    rcases hcode : codeword r.unread with e | ⟨value, length⟩
    · rcases codeword_error hcode with rfl | rfl
      · exact absurd hcode hnot
      · rfl
    · obtain ⟨hvalue, hfront, -⟩ := codeword_eq_ok hcode
      exact absurd hfront (hnone value hvalue)

/-- A value is yielded if and only if it is one of those with a code and its code comes first, and
then the code is all that is taken. -/
def YieldsExactly {α : Type} (p : Parse α) (coded : α → Prop) (code : α → List Bool)
    (r : BitReader) : Prop :=
  ∀ value, ((p.run r).1 = .ok value ↔ coded value ∧ code value <+: r.unread) ∧
    ((p.run r).1 = .ok value ↔ p.Yields r (.ok (value, (code value).length)))

/-- A structure that reads the codes of values and is accepted for nothing else. -/
theorem Reads.yieldsExactly {α : Type} {p : Parse α} {coded : α → Prop} {code : α → List Bool}
    (hreads : ∀ value, coded value → p.Reads (code value) value)
    (hfront : ∀ value, (p.run r).1 = .ok value → coded value ∧ code value <+: r.unread) :
    p.YieldsExactly coded code r := by
  have hyields : ∀ value, coded value ∧ code value <+: r.unread →
      p.Yields r (.ok (value, (code value).length)) := by
    rintro value ⟨hcoded, rest, hrest⟩
    exact (hreads value hcoded).yields hrest.symm
  intro value
  refine ⟨⟨hfront value, fun h => (hyields value h).fst_run⟩, fun h => ?_, Yields.fst_run⟩
  exact hyields value (hfront value h)

/-- **Exactly the codewords are read.**  A number is read if and only if the bits that are written
for it come first, and then these are taken.  Otherwise the bits in front are overlong or too few.
So it is with signed numbers, but the last codeword has no value to convert to. -/
theorem reads_exactly_codewords (r : BitReader) :
    ue.YieldsExactly (· < 2 ^ 32) (fun value => emitted (.unsigned value)) r ∧
    ((ue.run r).1 = .error (.read .expGolombOverflow) ↔ Overlong r.unread) ∧
    ((ue.run r).1 = .error (.read .outOfBits) ↔
      ¬ Overlong r.unread ∧ ∀ value < 2 ^ 32, ¬ emitted (.unsigned value) <+: r.unread) ∧
    se.YieldsExactly (fun value => -(2 ^ 31) < value ∧ value < 2 ^ 31)
      (fun value => emitted (.signed value)) r ∧
    ((se.run r).1 = .error (.read .conversionFailed) ↔
      emitted (.unsigned (2 ^ 32 - 1)) <+: r.unread) := by
  simp only [emitted_unsigned]
  refine ⟨?_, ?_, fst_run_ue_eq_outOfBits_iff, ?_, fst_run_se_eq_conversionFailed_iff⟩
  · exact Reads.yieldsExactly (fun _ hvalue => reads_ue hvalue) fun _ => fst_run_ue_eq_ok_iff.mp
  · rw [fst_run_ue_eq_error_iff, codeword_overflow_iff]
  · refine Reads.yieldsExactly (fun value hvalue => ?_) fun value h => ?_
    · rw [emitted_signed hvalue]
      exact reads_se hvalue.1 hvalue.2
    · obtain ⟨hvalue, hfront⟩ := front_of_fst_run_se h
      rw [emitted_signed hvalue]
      exact ⟨hvalue, hfront⟩

/-- Behind 32 zeros and a one there is one number, and it is the largest. -/
example : (ue.run (.ofBytes false [0, 0, 0, 0, 0x80, 0, 0, 0, 0])).1 = .ok 0xffffffff ∧
    (ue.run (.ofBytes false [0, 0, 0, 0, 0x80, 0, 0, 0, 0x80])).1 =
      .error (.read .expGolombOverflow) := by
  decide +kernel

end Parse

end CodedVideo
