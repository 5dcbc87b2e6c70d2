import CodedVideo.Nal.Writer
import CodedVideo.Parse
import CodedVideo.Proofs.BitCursor
import Mathlib.Data.List.DropRight
import Mathlib.Data.List.Infix

/-!
# What emulation prevention does to bytes

A writer with emulation prevention holds two bytes back and puts a byte `03` between two
zeros and a byte below four.  After that it counts zeros afresh and leaves the byte it
has just let through out of the count.  So in a run of zeros every third one is preceded
by `03`: behind `zeros` zero bytes the writer counts `zeros % 3` of them (`guarded`).

A reader leaves that byte in.  After the first `03` of a run it sees one zero more than
the writer counts, and behind four zeros, or seven, ten and so on, the writer takes two
zeros for one (`Exposed`).  A byte written there goes out as it is: a byte below three
makes the three bytes that should not occur, and a `03` is dropped by the reader.

* `Writer.sink_escaped` says that the bytes with emulation prevention are `guarded`
  applied to those without it, for any calls.
* `Writer.emulates_sink_iff` says exactly when `00 00 00`, `00 00 01` or `00 00 02` occurs.
* `payload_guardFrom` says what a reader sees: all bytes but the exposed `03`.
  `Writer.readBack_iff` says when it reads back all that has been written.
-/

namespace CodedVideo

/-! ### Zero bytes in a row -/

/-- The number of zero bytes at the end. -/
def zerosAtEnd (bytes : List UInt8) : Nat := (bytes.rtakeWhile (· == 0)).length

/-- The number of zero bytes at the end once a byte is added. -/
def nextZeros (zeros : Nat) (b : UInt8) : Nat := if b = 0 then zeros + 1 else 0

@[simp] theorem nextZeros_zero (zeros : Nat) : nextZeros zeros 0 = zeros + 1 := rfl

theorem nextZeros_of_ne {b : UInt8} (h : b ≠ 0) (zeros : Nat) : nextZeros zeros b = 0 := if_neg h

@[simp] theorem zerosAtEnd_nil : zerosAtEnd [] = 0 := rfl

@[simp] theorem zerosAtEnd_concat (bytes : List UInt8) (b : UInt8) :
    zerosAtEnd (bytes ++ [b]) = nextZeros (zerosAtEnd bytes) b := by
  unfold zerosAtEnd
  by_cases hb : b = 0
  · rw [hb, List.rtakeWhile_concat_pos _ _ _ (by rfl), List.length_append,
      List.length_singleton, nextZeros_zero]
  · rw [List.rtakeWhile_concat_neg _ _ _ (by simpa using hb), nextZeros_of_ne hb, List.length_nil]

theorem zerosAtEnd_le (bytes : List UInt8) : zerosAtEnd bytes ≤ bytes.length :=
  (List.rtakeWhile_suffix _ _).length_le

theorem le_zerosAtEnd_iff {k : Nat} {bytes : List UInt8} :
    k ≤ zerosAtEnd bytes ↔ List.replicate k 0 <:+ bytes := by
  induction bytes using List.reverseRecOn generalizing k with
  | nil => simp [List.replicate_eq_nil_iff]
  | append_singleton front b ih =>
    cases k with
    | zero => simp
    | succ k =>
      rw [zerosAtEnd_concat, nextZeros, List.replicate_succ', List.suffix_concat_iff]
      constructor
      · intro h
        split at h
        case isTrue hb => exact .inr ⟨_, by rw [hb], ih.mp (by omega)⟩
        case isFalse => omega
      · rintro (h | ⟨t, h, ht⟩)
        · simp at h
        · obtain ⟨rfl, hb⟩ := List.append_inj' h rfl
          have hk := ih.mpr ht
          rw [if_pos (List.cons.inj hb).1.symm]
          omega

/-- Somewhere in the bytes a byte stands behind zeros such that `P` holds of their number
and of the byte, `zeros` zero bytes being in front of all. -/
def Meets (P : Nat → UInt8 → Prop) : (zeros : Nat) → List UInt8 → Prop
  | _, [] => False
  | zeros, b :: rest => P zeros b ∨ Meets P (nextZeros zeros b) rest

theorem meets_iff_exists {P : Nat → UInt8 → Prop} {front bytes : List UInt8} :
    Meets P (zerosAtEnd front) bytes ↔
      ∃ before b rest, bytes = before ++ b :: rest ∧ P (zerosAtEnd (front ++ before)) b := by
  induction bytes generalizing front with
  | nil => simp [Meets]
  | cons c bytes ih =>
    rw [Meets, ← zerosAtEnd_concat, ih]
    constructor
    · rintro (h | ⟨before, b, rest, rfl, h⟩)
      · exact ⟨[], c, bytes, rfl, by rwa [List.append_nil]⟩
      · exact ⟨c :: before, b, rest, rfl, by rwa [List.append_cons]⟩
    · rintro ⟨before, b, rest, heq, h⟩
      cases before with
      | nil =>
        obtain ⟨rfl, rfl⟩ := List.cons.inj heq
        exact .inl (by rwa [List.append_nil] at h)
      | cons d before =>
        obtain ⟨rfl, rfl⟩ := List.cons.inj heq
        exact .inr ⟨before, b, rest, rfl, by rwa [List.append_cons] at h⟩

/-- A byte behind at least `k` zeros is one that ends a string of `k` zeros and itself. -/
theorem meets_zeros_iff (k : Nat) (p : UInt8 → Prop) (bytes : List UInt8) :
    Meets (fun zeros b => k ≤ zeros ∧ p b) 0 bytes ↔
      ∃ b, p b ∧ List.replicate k 0 ++ [b] <:+: bytes := by
  rw [← zerosAtEnd_nil, meets_iff_exists]
  constructor
  · rintro ⟨before, b, rest, rfl, hk, hb⟩
    obtain ⟨front, rfl⟩ := le_zerosAtEnd_iff.mp hk
    exact ⟨b, hb, front, rest, by simp⟩
  · rintro ⟨b, hb, front, rest, rfl⟩
    exact ⟨front ++ List.replicate k 0, b, rest, by simp,
      le_zerosAtEnd_iff.mpr (List.suffix_append front _), hb⟩

/-! ### Guarded bytes -/

/-- What stands for a byte behind `zeros` zero bytes. -/
def guardByte (zeros : Nat) (b : UInt8) : List UInt8 :=
  if zeros % 3 = 2 ∧ b ≤ 3 then [3, b] else [b]

/-- What stands for bytes behind `zeros` zero bytes. -/
def guardFrom : (zeros : Nat) → List UInt8 → List UInt8
  | _, [] => []
  | zeros, b :: rest => guardByte zeros b ++ guardFrom (nextZeros zeros b) rest

/-- Bytes with emulation prevention bytes put in. -/
def guarded (bytes : List UInt8) : List UInt8 := guardFrom 0 bytes

theorem guardFrom_concat (front bytes : List UInt8) (b : UInt8) :
    guardFrom (zerosAtEnd front) (bytes ++ [b]) =
      guardFrom (zerosAtEnd front) bytes ++ guardByte (zerosAtEnd (front ++ bytes)) b := by
  induction bytes generalizing front with
  | nil => simp [guardFrom]
  | cons c bytes ih =>
    rw [List.cons_append, guardFrom, guardFrom, ← zerosAtEnd_concat, ih, List.append_assoc,
      List.append_assoc, List.singleton_append]

theorem guarded_concat (bytes : List UInt8) (b : UInt8) :
    guarded (bytes ++ [b]) = guarded bytes ++ guardByte (zerosAtEnd bytes) b :=
  guardFrom_concat [] bytes b

/-- A writer that has put zeros out may take two of them for one: the byte after the last
`03` is not counted. -/
def Exposed (zeros : Nat) : Prop := 4 ≤ zeros ∧ zeros % 3 = 1

instance : DecidablePred Exposed := fun _ => inferInstanceAs (Decidable (_ ∧ _))

/-- The number of zeros at the end of guarded bytes, if there are `zeros` at the end of the
bytes that they stand for. -/
def zerosSeen (zeros : Nat) : Nat := if zeros ≤ 2 then zeros else zeros % 3 + 1

/-- A byte behind a `03` that has been put in starts the count of zeros in both. -/
theorem nextZeros_zero_of_guard {zeros : Nat} (h : zeros % 3 = 2) (b : UInt8) :
    nextZeros 0 b = zerosSeen (nextZeros zeros b) := by
  unfold nextZeros zerosSeen
  split_ifs <;> omega

theorem nextZeros_zerosSeen {zeros : Nat} {b : UInt8} (h : ¬ (zeros % 3 = 2 ∧ b ≤ 3)) :
    nextZeros (zerosSeen zeros) b = zerosSeen (nextZeros zeros b) := by
  by_cases hb : b = 0
  · have hthird : zeros % 3 ≠ 2 := fun hz => h ⟨hz, by rw [hb]; decide⟩
    rw [hb, nextZeros_zero, nextZeros_zero]
    unfold zerosSeen
    split_ifs <;> omega
  · rw [nextZeros_of_ne hb, nextZeros_of_ne hb]
    rfl

theorem two_le_zerosSeen {zeros : Nat} (h : zeros % 3 ≠ 2) :
    2 ≤ zerosSeen zeros ↔ Exposed zeros := by
  unfold zerosSeen Exposed
  split_ifs <;> omega

/-! ### Where a start code may be seen -/

theorem meets_guardFrom (zeros : Nat) (bytes : List UInt8) :
    Meets (fun zeros b => 2 ≤ zeros ∧ b ≤ 2) (zerosSeen zeros) (guardFrom zeros bytes) ↔
      Meets (fun zeros b => Exposed zeros ∧ b ≤ 2) zeros bytes := by
  induction bytes generalizing zeros with
  | nil => rfl
  | cons b bytes ih =>
    rw [guardFrom, guardByte, Meets]
    by_cases h : zeros % 3 = 2 ∧ b ≤ 3
    · have hsafe : ¬ Exposed zeros := by
        unfold Exposed
        omega
      rw [if_pos h, List.cons_append, List.singleton_append, Meets, Meets,
        show nextZeros (zerosSeen zeros) 3 = 0 from rfl, nextZeros_zero_of_guard h.1, ih]
      simp [hsafe, show ¬ (3 : UInt8) ≤ 2 by decide]
    · rw [if_neg h, List.singleton_append, Meets, nextZeros_zerosSeen h, ih]
      refine or_congr_left (and_congr_left fun hb => two_le_zerosSeen fun hz => h ⟨hz, ?_⟩)
      exact UInt8.le_trans hb (by decide)

/-- Behind more zeros than four there is an exposed zero to be found before. -/
theorem meets_exposed_iff {zeros : Nat} {bytes : List UInt8} (h : zeros ≤ 4) :
    Meets (fun zeros b => Exposed zeros ∧ b ≤ 2) zeros bytes ↔
      Meets (fun zeros b => 4 ≤ zeros ∧ b ≤ 2) zeros bytes := by
  induction bytes generalizing zeros with
  | nil => rfl
  | cons b bytes ih =>
    rw [Meets, Meets]
    by_cases hzeros : zeros = 4
    · subst hzeros
      by_cases hb : b ≤ 2
      · simp [Exposed, hb]
      · have hne : b ≠ 0 := by
          rintro rfl
          exact hb (by decide)
        rw [nextZeros_of_ne hne, ih (by omega)]
        simp [hb]
    · rw [ih (by unfold nextZeros; split <;> omega)]
      refine or_congr_left (iff_of_false ?_ ?_)
      · rintro ⟨⟨hz, -⟩, -⟩
        omega
      · rintro ⟨hz, -⟩
        omega

/-- **Guarded bytes show two zeros and a byte below three exactly if there had been four
zeros and a byte below three.** -/
theorem emulates_guarded_iff (bytes : List UInt8) :
    (∃ b ≤ (2 : UInt8), [0, 0, b] <:+: guarded bytes) ↔
      ∃ b ≤ (2 : UInt8), [0, 0, 0, 0, b] <:+: bytes := by
  have hout := meets_zeros_iff 2 (· ≤ 2) (guarded bytes)
  have hin := meets_zeros_iff 4 (· ≤ 2) bytes
  exact hout.symm.trans ((meets_guardFrom 0 bytes).trans ((meets_exposed_iff (by omega)).trans hin))

/-! ### What a reader sees -/

/-- Bytes without every `03` that stands behind exposed zeros. -/
def legibleFrom : (zeros : Nat) → List UInt8 → List UInt8
  | _, [] => []
  | zeros, b :: rest =>
    if Exposed zeros ∧ b = 3 then legibleFrom 0 rest
    else b :: legibleFrom (nextZeros zeros b) rest

/-- **A reader drops what the writer has put in, and every exposed `03`.** -/
theorem payload_guardFrom (zeros : Nat) (bytes : List UInt8) :
    payload true (zerosSeen zeros) (guardFrom zeros bytes) = legibleFrom zeros bytes := by
  induction bytes generalizing zeros with
  | nil => rfl
  | cons b bytes ih =>
    rw [guardFrom, guardByte, legibleFrom]
    by_cases h : zeros % 3 = 2 ∧ b ≤ 3
    · have hsafe : ¬ Exposed zeros := by
        unfold Exposed
        omega
      have hseen : 2 ≤ zerosSeen zeros := by
        unfold zerosSeen
        split <;> omega
      rw [if_pos h, if_neg (fun he => hsafe he.1), List.cons_append, List.singleton_append,
        payload_cons_dropped ⟨rfl, hseen, rfl⟩, payload_cons_kept (by simp), ← ih,
        ← nextZeros_zero_of_guard h.1]
      rfl
    · rw [if_neg h, List.singleton_append]
      have hdrop : (true = true ∧ 2 ≤ zerosSeen zeros ∧ b = 3) ↔ Exposed zeros ∧ b = 3 := by
        rw [eq_self, true_and]
        refine and_congr_left fun hb => two_le_zerosSeen fun hz => h ⟨hz, ?_⟩
        exact hb ▸ UInt8.le_refl 3
      by_cases hexposed : Exposed zeros ∧ b = 3
      · rw [if_pos hexposed, payload_cons_dropped (hdrop.mpr hexposed), ← ih, hexposed.2]
        rfl
      · rw [if_neg hexposed, payload_cons_kept (fun he => hexposed (hdrop.mp he)), ← ih,
          ← nextZeros_zerosSeen h]
        rfl

theorem legibleFrom_of_not_meets {zeros : Nat} {bytes : List UInt8}
    (h : ¬ Meets (fun zeros b => Exposed zeros ∧ b = 3) zeros bytes) :
    legibleFrom zeros bytes = bytes := by
  induction bytes generalizing zeros with
  | nil => rfl
  | cons b bytes ih =>
    rw [Meets, not_or] at h
    rw [legibleFrom, if_neg h.1, ih h.2]

theorem length_legibleFrom_le (zeros : Nat) (bytes : List UInt8) :
    (legibleFrom zeros bytes).length ≤ bytes.length := by
  induction bytes generalizing zeros with
  | nil => rfl
  | cons b bytes ih =>
    rw [legibleFrom, List.length_cons]
    split
    · exact (ih 0).trans (Nat.le_succ _)
    · exact Nat.succ_le_succ (ih _)

theorem length_legibleFrom_lt {zeros : Nat} {bytes : List UInt8}
    (h : Meets (fun zeros b => Exposed zeros ∧ b = 3) zeros bytes) :
    (legibleFrom zeros bytes).length < bytes.length := by
  induction bytes generalizing zeros with
  | nil => exact h.elim
  | cons b bytes ih =>
    rw [Meets] at h
    rw [legibleFrom, List.length_cons]
    split
    case isTrue => exact Nat.lt_succ_of_le (length_legibleFrom_le 0 bytes)
    case isFalse hkept => exact Nat.succ_lt_succ (ih (h.resolve_left hkept))

/-- Bytes are read one after another, as far as there are any. -/
theorem run_octets {bytes : List UInt8} {r : BitReader} (h : r.unread = bytes.flatMap byteBits)
    (read : List Nat) (start count : Nat) :
    ((Parse.collectOnto (fun _ => Parse.u 8) read start count).run r).1 =
      if count ≤ bytes.length then .ok (read.reverse ++ (bytes.take count).map (·.toNat))
      else .error (.read .outOfBits) := by
  induction count generalizing bytes r read start with
  | zero =>
    rw [if_pos (Nat.zero_le _), List.take_zero, List.map_nil, List.append_nil]
    rfl
  | succ count ih =>
    show ((Parse.bits 8 fun value =>
      Parse.collectOnto (fun _ => Parse.u 8) (value :: read) (start + 1) count).run r).1 = _
    unfold Parse.run
    cases bytes with
    | nil =>
      have hread : (r.readBits 8).1 = .error .outOfBits :=
        BitReader.readBits_of_lt (by omega) (by rw [h]; decide)
      rw [if_neg (by simp)]
      split <;> rename_i heq <;> rw [heq] at hread <;> cases hread
      rfl
    | cons b bytes =>
      obtain ⟨r', hread, hunread, -⟩ := BitReader.readBits_of_le (r := r) (n := 8) (by omega)
        (by rw [h, length_flatMap_byteBits, List.length_cons]; omega)
      have hfront : r.unread = byteBits b ++ bytes.flatMap byteBits := h
      rw [hfront, List.take_left' (length_byteBits b), ofBits_byteBits] at hread
      rw [hfront, List.drop_left' (length_byteBits b)] at hunread
      rw [hread]
      simp only
      rw [ih hunread, List.length_cons, List.take_succ_cons, List.map_cons, List.reverse_cons,
        List.append_assoc, List.singleton_append]
      simp only [Nat.add_le_add_iff_right]

namespace Nal.Writer

/-! ### Calls of a writer -/

/-- What can be asked of a writer between headers. -/
inductive Call where
  /-- The low bits of a number. -/
  | field (count value : Nat)
  /-- An unsigned Exp-Golomb codeword. -/
  | unsigned (value : Nat)
  /-- A signed Exp-Golomb codeword. -/
  | signed (value : Int)
  /-- A stop bit and zeros up to the next byte boundary. -/
  | trailing

/-- The writer after a call, whether that is refused or not. -/
def after (w : Writer) : Call → Writer
  | .field count value => (w.writeBits count value).2
  | .unsigned value => w.writeUnsigned value
  | .signed value => (writeSigned.{0} value w).2
  | .trailing => w.writeTrailing

/-- The bytes that have reached memory once calls have been made of a new writer and nothing
is held back any more. -/
def sink (escaped : Bool) (calls : List Call) : List UInt8 :=
  (calls.foldl after { escaped }).flush.out.toList

/-- A writer with emulation prevention has been given the same bytes as one without. -/
structure Guards (plain w : Writer) : Prop where
  plainly : plain.escaped = false
  nothing_held : plain.delayed = []
  escaped : w.escaped = true
  pending : w.pending = plain.pending
  length_delayed : w.delayed.length ≤ 2
  zeros : zerosAtEnd w.delayed = zerosAtEnd plain.out.toList % 3
  out : w.out.toList ++ w.delayed = guarded plain.out.toList

variable {plain w : Writer}

/-- **What a byte brings out.**  The bytes that go out and those that are kept stand for the
byte behind those that were held, and the zeros kept are counted modulo three. -/
theorem putByte_escaped {zeros : Nat} (hw : w.escaped = true) (hlength : w.delayed.length ≤ 2)
    (hzeros : zerosAtEnd w.delayed = zeros % 3) (b : UInt8) :
    ∃ gone kept : List UInt8, w.putByte b = { w with out := w.out ++ gone, delayed := kept } ∧
      gone ++ kept = w.delayed ++ guardByte zeros b ∧ kept.length ≤ 2 ∧
      zerosAtEnd kept = nextZeros zeros b % 3 := by
  unfold Writer.putByte
  rw [if_pos hw]
  split
  case h_1 first second hheld =>
    -- Two bytes are held: either both go out with a `03` and the byte, or the first one does.
    have hpair : ∀ x y : UInt8, zerosAtEnd [x, y] = nextZeros (nextZeros 0 x) y := fun x y => by
      rw [← zerosAtEnd_nil, ← zerosAtEnd_concat, ← zerosAtEnd_concat]
      rfl
    rw [hheld, hpair] at hzeros
    have hboth : first = 0 ∧ second = 0 ↔ zeros % 3 = 2 := by
      rw [← hzeros]
      unfold nextZeros
      split_ifs <;> simp_all
    split
    case isTrue hguard =>
      obtain ⟨rfl, rfl, hb⟩ := hguard
      have hthird := hboth.mp ⟨rfl, rfl⟩
      refine ⟨[0, 0, 3, b], [], rfl, ?_, by simp, ?_⟩
      · rw [hheld, guardByte, if_pos ⟨hthird, hb⟩]
        rfl
      · unfold nextZeros
        split_ifs
        · rw [zerosAtEnd_nil]
          omega
        · rfl
    case isFalse hguard =>
      have hkept : ¬ (zeros % 3 = 2 ∧ b ≤ 3) := fun h =>
        hguard ⟨(hboth.mpr h.1).1, (hboth.mpr h.1).2, h.2⟩
      refine ⟨[first], [second, b], by simp, ?_, by simp, ?_⟩
      · rw [hheld, guardByte, if_neg hkept]
        rfl
      · rw [hpair]
        by_cases hb : b = 0
        · have hthird : zeros % 3 ≠ 2 := fun hz => hkept ⟨hz, by rw [hb]; decide⟩
          rw [hb, nextZeros_zero, nextZeros_zero]
          unfold nextZeros at hzeros ⊢
          split_ifs at hzeros ⊢ <;> omega
        · rw [nextZeros_of_ne hb, nextZeros_of_ne hb]
  case h_2 delayed hfew =>
    -- Fewer are held, so that the byte joins them and there cannot be two zeros.
    have hshort : w.delayed.length ≠ 2 := fun htwo => by
      obtain ⟨first, second, hheld⟩ := List.length_eq_two.mp htwo
      exact hfew first second hheld
    have hcount := zerosAtEnd_le w.delayed
    refine ⟨[], w.delayed ++ [b], by simp, ?_, by simp; omega, ?_⟩
    · rw [guardByte, if_neg (by omega), List.nil_append]
    · rw [zerosAtEnd_concat, hzeros]
      unfold nextZeros
      split_ifs <;> omega

theorem Guards.putByte (h : Guards plain w) (b : UInt8) :
    Guards (plain.putByte b) (w.putByte b) := by
  have hplain : plain.putByte b = { plain with out := plain.out.push b } := by
    rw [Writer.putByte, h.plainly]
    rfl
  obtain ⟨gone, kept, hw, hsum, hlength, hzeros⟩ :=
    putByte_escaped h.escaped h.length_delayed h.zeros b
  rw [hplain, hw]
  refine ⟨h.plainly, h.nothing_held, h.escaped, h.pending, hlength, ?_, ?_⟩
  · rw [hzeros, Array.toList_push, zerosAtEnd_concat]
  · rw [Array.toList_push, guarded_concat, ← h.out, List.append_assoc, ← hsum]
    simp

theorem Guards.putBytes (h : Guards plain w) (bytes : List UInt8) :
    Guards (bytes.foldl Writer.putByte plain) (bytes.foldl Writer.putByte w) := by
  induction bytes generalizing plain w with
  | nil => exact h
  | cons b bytes ih => exact ih (h.putByte b)

theorem Guards.setPending (h : Guards plain w) (bits : PartialByte) :
    Guards { plain with pending := bits } { w with pending := bits } :=
  { h with pending := rfl }

theorem Guards.put (h : Guards plain w) (bits : List Bool) :
    Guards (plain.put bits) (w.put bits) := by
  unfold Writer.put
  rw [h.pending]
  exact (h.setPending _).putBytes _

/-- **Calls give both writers the same bytes.** -/
theorem Guards.after (h : Guards plain w) (call : Call) :
    Guards (plain.after call) (w.after call) := by
  cases call with
  | field count value =>
    show Guards (plain.writeBits count value).2 (w.writeBits count value).2
    unfold writeBits
    split
    · exact h
    · exact h.put _
  | unsigned value => exact h.put _
  | signed value =>
    show Guards (writeSigned.{0} value plain).2 (writeSigned.{0} value w).2
    unfold writeSigned
    split
    · exact h.put _
    · exact h
  | trailing =>
    show Guards plain.writeTrailing w.writeTrailing
    unfold writeTrailing
    rw [h.pending]
    exact h.put _

theorem Guards.afterAll (h : Guards plain w) (calls : List Call) :
    Guards (calls.foldl Writer.after plain) (calls.foldl Writer.after w) := by
  induction calls generalizing plain w with
  | nil => exact h
  | cons call calls ih => exact ih (h.after call)

theorem guards_start : Guards { escaped := false } { escaped := true } :=
  ⟨rfl, rfl, rfl, rfl, by simp, by rfl, by rfl⟩

theorem toList_flush (w : Writer) :
    w.flush.out.toList =
      (w.pending.drain.foldl Writer.putByte { w with pending := [] }).out.toList ++
        (w.pending.drain.foldl Writer.putByte { w with pending := [] }).delayed := by
  simp [Writer.flush]

/-- **Emulation prevention works on the bytes that would reach memory without it.** -/
theorem sink_escaped (calls : List Call) : sink true calls = guarded (sink false calls) := by
  have h := guards_start.afterAll calls
  unfold sink
  rw [toList_flush, toList_flush, h.pending]
  have hdrained := (h.setPending []).putBytes
    (calls.foldl Writer.after ({ escaped := false } : Writer)).pending.drain
  rw [hdrained.out, hdrained.nothing_held, List.append_nil]

/-- **Two zeros and a byte below three reach memory exactly if four zeros and a byte below
three would do so without emulation prevention.** -/
theorem emulates_sink_iff (calls : List Call) :
    (∃ b ≤ (2 : UInt8), [0, 0, b] <:+: sink true calls) ↔
      ∃ b ≤ (2 : UInt8), [0, 0, 0, 0, b] <:+: sink false calls := by
  rw [sink_escaped]
  exact emulates_guarded_iff _

/-- Four zeros and a one reach memory as `00 00 03 00 00 01`. -/
theorem sink_holds_startCode :
    ¬ ∀ calls, ¬ ∃ b ≤ (2 : UInt8), [0, 0, b] <:+: sink true calls :=
  fun h => h [.field 32 0, .field 8 1] ⟨1, by decide, by decide⟩

/-! ### Reading back what has been written -/

/-- The calls that write bytes. -/
def octets (bytes : List UInt8) : List Call := bytes.map fun b => .field 8 b.toNat

theorem after_octet (hplain : w.escaped = false) (hpending : w.pending = []) (b : UInt8) :
    w.after (.field 8 b.toNat) = { w with out := w.out.push b } := by
  show (w.writeBits 8 b.toNat).2 = _
  unfold writeBits Writer.put
  rw [if_neg (by omega), hpending, show lowBits 8 b.toNat = byteBits b from rfl, pushAll_byteBits]
  show Writer.putByte { w with pending := [] } b = _
  rw [Writer.putByte, hplain, ← hpending]
  rfl

theorem afterAll_octets (hplain : w.escaped = false) (hpending : w.pending = [])
    (bytes : List UInt8) :
    (octets bytes).foldl Writer.after w = { w with out := w.out ++ bytes } := by
  induction bytes generalizing w with
  | nil => simp [octets]
  | cons b bytes ih =>
    rw [octets, List.map_cons, List.foldl_cons, after_octet hplain hpending b, ← octets,
      ih (w := { w with out := w.out.push b }) hplain hpending]
    simp

/-- Without emulation prevention bytes reach memory as they are. -/
theorem sink_octets (bytes : List UInt8) : sink false (octets bytes) = bytes := by
  unfold sink
  rw [afterAll_octets rfl rfl, toList_flush]
  simp [PartialByte.drain]

/-- What a reader with emulation prevention gives, byte by byte, of the bytes that a writer
with emulation prevention has written. -/
def readBack (bytes : List UInt8) : Except ParseError (List Nat) :=
  ((Parse.collect bytes.length fun _ => Parse.u 8).run
    (.ofBytes true (sink true (octets bytes)))).1

theorem readBack_eq (bytes : List UInt8) :
    readBack bytes = if bytes.length ≤ (legibleFrom 0 bytes).length then
        .ok (((legibleFrom 0 bytes).take bytes.length).map (·.toNat))
      else .error (.read .outOfBits) := by
  have hunread : (BitReader.ofBytes true (sink true (octets bytes))).unread =
      (legibleFrom 0 bytes).flatMap byteBits := by
    rw [BitReader.unread_ofBytes, sink_escaped, sink_octets]
    exact congrArg (List.flatMap byteBits) (payload_guardFrom 0 bytes)
  exact run_octets hunread [] 0 bytes.length

/-- **Bytes are read back as they have been written, unless a `03` stands right behind four
zeros, or seven, ten and so on.**  If one does, the reader drops it and comes to the end
of the bytes too early. -/
theorem readBack_iff (bytes : List UInt8) :
    (readBack bytes = .ok (bytes.map (·.toNat)) ↔
      ¬ ∃ before rest, bytes = before ++ 3 :: rest ∧ Exposed (zerosAtEnd before)) ∧
    (readBack bytes = .error (.read .outOfBits) ↔
      ∃ before rest, bytes = before ++ 3 :: rest ∧ Exposed (zerosAtEnd before)) := by
  have hlost : Meets (fun zeros b => Exposed zeros ∧ b = 3) 0 bytes ↔
      ∃ before rest, bytes = before ++ 3 :: rest ∧ Exposed (zerosAtEnd before) := by
    rw [← zerosAtEnd_nil, meets_iff_exists]
    constructor
    · rintro ⟨before, _, rest, heq, hexposed, rfl⟩
      exact ⟨before, rest, heq, hexposed⟩
    · rintro ⟨before, rest, heq, hexposed⟩
      exact ⟨before, 3, rest, heq, hexposed, rfl⟩
  rw [← hlost, readBack_eq]
  by_cases h : Meets (fun zeros b => Exposed zeros ∧ b = 3) 0 bytes
  · rw [if_neg (Nat.not_le_of_lt (length_legibleFrom_lt h))]
    simp [h]
  · simp [h, legibleFrom_of_not_meets h]

/-- Of four zeros and a `03`, which reach memory as `00 00 03 00 00 03`, the last byte is not
read back. -/
theorem readBack_loses_byte : ¬ ∀ bytes, readBack bytes = .ok (bytes.map (·.toNat)) := by
  intro h
  have hfails : readBack [0, 0, 0, 0, 3] = .error (.read .outOfBits) := by rfl
  have hok := h [0, 0, 0, 0, 3]
  rw [hfails] at hok
  cases hok

end Nal.Writer

end CodedVideo
