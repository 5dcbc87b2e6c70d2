import CodedVideo.Proofs.EscapeTransparency

/-!
# Reading what a writer has written

A writer without emulation prevention packs the bits that it is given into bytes, and the bits
that do not fill a byte wait (`Writer.written`).  A call adds its bits at the end
(`Writer.Plain.after`): the field or the codeword itself, or a stop bit and zeros up to the next
byte boundary.  In the end zeros fill the last byte up (`Writer.Plain.bits_flush`).

A reader has these bits in front of it.  What it is asked for takes the bits of its call and no
more (`Writer.Call.run_read`), also where zeros are skipped, since the reader is as far from the
next byte as the writer was.  So all calls are read back one after another, and the reader is
always as far as the writer was (`Writer.readCalls_sink`).
-/

namespace CodedVideo

/-! ### Bytes that are being filled -/

theorem ofBits_replicate_false (k : Nat) : ofBits (List.replicate k false) = 0 := by
  induction k with
  | zero => rfl
  | succ k ih =>
    rw [List.replicate_succ, ofBits_cons, ih, Bool.toNat_false, Nat.zero_mul]

namespace PartialByte

variable {bits pending : PartialByte}

/-- Zeros fill a byte up. -/
theorem byteBits_padded (h : bits.length ≤ 8) :
    byteBits (padded bits) = bits ++ List.replicate (8 - bits.length) false := by
  have hvalue : ofBits bits * pow2 (8 - bits.length) =
      ofBits (bits ++ List.replicate (8 - bits.length) false) := by
    rw [ofBits_append, ofBits_replicate_false, List.length_replicate, pow2_eq, Nat.add_zero]
  have hlength : (bits ++ List.replicate (8 - bits.length) false).length = 8 := by
    rw [List.length_append, List.length_replicate]
    omega
  have hlt := ofBits_lt (bits ++ List.replicate (8 - bits.length) false)
  have hbits := lowBits_ofBits (bits ++ List.replicate (8 - bits.length) false)
  rw [hlength] at hlt hbits
  rw [padded, byteBits, hvalue, UInt8.toNat_ofNat_of_lt' hlt, hbits]

/-- The bits go into the completed bytes and the rest of them waits. -/
theorem pushAll_spec (h : pending.length < 8) (bits : List Bool) :
    (pending.pushAll bits).2.flatMap byteBits ++ (pending.pushAll bits).1 = pending ++ bits ∧
      (pending.pushAll bits).1.length < 8 := by
  induction bits generalizing pending with
  | nil => exact ⟨(List.append_nil pending).symm, h⟩
  | cons b rest ih =>
    have hlength : (pending ++ [b]).length = pending.length + 1 := List.length_append
    rw [List.append_cons, pushAll, push]
    by_cases hfull : (pending ++ [b]).length = 8
    · obtain ⟨hbits, hpending⟩ := @ih [] (Nat.zero_lt_succ 7)
      simp only [if_pos hfull]
      refine ⟨?_, hpending⟩
      have hpadded := byteBits_padded hfull.le
      rw [hfull, Nat.sub_self, List.replicate_zero, List.append_nil] at hpadded
      rw [Option.toList_some, List.singleton_append, List.flatMap_cons, hpadded, List.append_assoc,
        hbits, List.nil_append]
    · simp only [if_neg hfull]
      exact ih (by omega)

theorem drain_spec (h : bits.length < 8) :
    ∃ k < 8, bits.drain.flatMap byteBits = bits ++ List.replicate k false := by
  unfold drain
  by_cases hnil : bits = []
  · exact ⟨0, Nat.zero_lt_succ 7, by rw [if_pos hnil, hnil]; rfl⟩
  · have hpos := List.length_pos_iff.mpr hnil
    refine ⟨8 - bits.length, by omega, ?_⟩
    rw [if_neg hnil, List.flatMap_singleton, byteBits_padded h.le]

end PartialByte

namespace Nal.Writer

open Parse
open Call (field unsigned signed)

/-! ### Writing without emulation prevention -/

variable {w : Writer}

/-- The bits that have been written, those that wait included. -/
def written (w : Writer) : List Bool := w.out.toList.flatMap byteBits ++ w.pending

/-- The number of bits that have been written. -/
def bitsWritten (w : Writer) : Nat := 8 * w.out.size + w.pending.length

/-- A writer without emulation prevention holds no byte back. -/
structure Plain (w : Writer) : Prop where
  escaped : w.escaped = false
  delayed : w.delayed = []
  pending : w.pending.length < 8

theorem plain_start : Plain { escaped := false } := ⟨rfl, rfl, Nat.zero_lt_succ 7⟩

theorem length_written (w : Writer) : w.written.length = w.bitsWritten := by
  rw [written, bitsWritten, List.length_append, length_flatMap_byteBits, Array.length_toList]

theorem foldl_putByte (hplain : w.escaped = false) (bytes : List UInt8) :
    bytes.foldl putByte w = { w with out := w.out ++ bytes } := by
  induction bytes generalizing w with
  | nil => simp
  | cons b rest ih =>
    have hput : w.putByte b = { w with out := w.out.push b } := by
      rw [putByte, hplain]
      rfl
    rw [List.foldl_cons, hput, ih (w := { w with out := w.out.push b }) hplain]
    simp

namespace Plain

/-- Bits are added behind those that have been written. -/
theorem put (h : w.Plain) (bits : List Bool) :
    (w.put bits).Plain ∧ (w.put bits).written = w.written ++ bits := by
  obtain ⟨hbits, hpending⟩ := PartialByte.pushAll_spec h.pending bits
  have hput : w.put bits = { w with
      out := w.out ++ (w.pending.pushAll bits).2, pending := (w.pending.pushAll bits).1 } := by
    exact foldl_putByte (w := { w with pending := (w.pending.pushAll bits).1 }) h.escaped _
  rw [hput]
  refine ⟨⟨h.escaped, h.delayed, hpending⟩, ?_⟩
  rw [written, written, List.append_assoc, ← hbits]
  simp

/-- Zeros fill the last byte up when no bit follows. -/
theorem bits_flush (h : w.Plain) :
    ∃ k < 8, w.flush.out.toList.flatMap byteBits = w.written ++ List.replicate k false := by
  obtain ⟨k, hk, hdrain⟩ := PartialByte.drain_spec h.pending
  have hflush : w.flush.out.toList = w.out.toList ++ w.pending.drain := by
    rw [toList_flush, foldl_putByte (w := { w with pending := [] }) h.escaped]
    simp [h.delayed]
  refine ⟨k, hk, ?_⟩
  rw [hflush, List.flatMap_append, hdrain, written, List.append_assoc]

end Plain

/-! ### Calls -/

namespace Call

/-- The arguments of the call lie in their ranges. -/
def Fits : Call → Prop
  | field count _ => count ≤ 32
  | unsigned value => value < 2 ^ 32
  | signed value => -(2 ^ 31) < value ∧ value < 2 ^ 31
  | trailing => True

/-- The bits that the call writes. -/
def bits (w : Writer) : Call → List Bool
  | field count value => lowBits count value
  | unsigned value => expGolombBits value
  | signed value => expGolombBits (signedCode value)
  | trailing => true :: List.replicate (7 - w.pending.length) false

/-- What the call writes and a reader is to return, if anything. -/
def value : Call → Option Int
  | field count value => some (value % 2 ^ count : Nat)
  | unsigned value => some value
  | signed value => some value
  | trailing => none

/-- What a reader is asked for to read back what the call has written. -/
def read : Call → Parse (Option Int)
  | field count _ => do return some (← u count)
  | unsigned _ => do return some (← ue)
  | signed _ => do return some (← se)
  | trailing => do
    trailingBits
    return none

variable {call : Call}

theorem after_eq_put (h : call.Fits) (w : Writer) : w.after call = w.put (call.bits w) := by
  cases call with
  | field count value =>
    show (w.writeBits count value).2 = _
    rw [writeBits, if_neg (Nat.not_lt.mpr h)]
    rfl
  | unsigned value => rfl
  | signed value =>
    have hcode : signedCode value < pow2 32 := by
      have hlow := h.1
      have hhigh := h.2
      rw [pow2_eq]
      unfold signedCode
      split <;> omega
    show (writeSigned.{0} value w).2 = _
    rw [writeSigned, if_pos hcode]
    rfl
  | trailing => rfl

end Call

theorem Plain.after {call : Call} (h : w.Plain) (hfits : call.Fits) :
    (w.after call).Plain ∧ (w.after call).written = w.written ++ call.bits w := by
  rw [Call.after_eq_put hfits]
  exact h.put _

/-- The bits that calls write, one after another. -/
def bitsOf : Writer → List Call → List Bool
  | _, [] => []
  | w, call :: rest => call.bits w ++ bitsOf (w.after call) rest

theorem Plain.afterAll {calls : List Call} (h : w.Plain) (hfits : ∀ call ∈ calls, call.Fits) :
    (calls.foldl Writer.after w).Plain ∧
      (calls.foldl Writer.after w).written = w.written ++ w.bitsOf calls := by
  induction calls generalizing w with
  | nil => exact ⟨h, (List.append_nil _).symm⟩
  | cons call rest ih =>
    obtain ⟨hcall, hrest⟩ := List.forall_mem_cons.mp hfits
    obtain ⟨hplain, hwritten⟩ := h.after hcall
    obtain ⟨hplain', hwritten'⟩ := ih hplain hrest
    refine ⟨hplain', ?_⟩
    rw [List.foldl_cons, hwritten', hwritten, bitsOf, List.append_assoc]

/-! ### Reading back -/

variable {r : BitReader} {rest : List Bool}

/-- The reader is as far as the writer was. -/
structure Follows (w : Writer) (r : BitReader) : Prop where
  balanced : r.Balanced
  escaped : r.escaped = false
  position : r.position = w.bitsWritten

theorem run_trailingBits (r : BitReader) : trailingBits.run r = match flag.run r with
    | (.ok true, r₁) => (.ok (), r₁.align.2)
    | (.ok false, r₁) => (.error (.read (.outOfRange 0 1 1)), r₁)
    | (.error e, r₁) => (.error e, r₁) := by
  simp only [trailingBits, run_bind]
  rcases flag.run r with ⟨e | stop, r₁⟩
  · rfl
  · cases stop <;> rfl

/-- A stop bit and zeros up to the next byte are read back. -/
theorem Follows.run_trailing (h : w.Follows r) (hplain : w.Plain)
    (hunread : r.unread = Call.trailing.bits w ++ rest) :
    ∃ r', trailingBits.run r = (.ok (), r') ∧ r'.unread = rest ∧
      r'.position = r.position + (Call.trailing.bits w).length := by
  have hzeros : (List.replicate (7 - w.pending.length) false).length = 7 - w.pending.length :=
    List.length_replicate
  obtain ⟨r₁, hflag, hunread₁, hposition₁⟩ := reads_flag true r _ hunread
  have hbalanced₁ := (local_of_within within_flag h.balanced hflag).1
  -- The number of bits so far tells how far the next byte is.
  have hleft : r₁.left = 7 - w.pending.length := by
    have hleft := hbalanced₁.left
    have htotal := hbalanced₁.total
    have hpending := hplain.pending
    rw [hposition₁, h.position, bitsWritten, List.length_singleton] at htotal
    omega
  refine ⟨r₁.align.2, by rw [run_trailingBits, hflag], ?_, ?_⟩
  · rw [hbalanced₁.unread_align, hunread₁, hleft]
    exact List.drop_left' hzeros
  · have hlength : (Call.trailing.bits w).length = 7 - w.pending.length + 1 :=
      congrArg (· + 1) hzeros
    show r₁.position + r₁.left % 8 = _
    rw [hposition₁, Nat.mod_eq_of_lt hbalanced₁.left, hleft, hlength, List.length_singleton]
    omega

theorem Call.within_read (call : Call) :
    call.read.Within fun feature => feature ≠ .moreData ∧ feature ≠ .skipData := by
  cases call with
  | trailing => simp [read, trailingBits]
  | _ => simp [read]

/-- **A call is read back**: the reader returns what has been written and goes on to what comes
after it. -/
theorem Follows.run_read {call : Call} (h : w.Follows r) (hplain : w.Plain) (hfits : call.Fits)
    (hunread : r.unread = call.bits w ++ rest) :
    ∃ r', call.read.run r = (.ok call.value, r') ∧ (w.after call).Follows r' ∧ r'.unread = rest := by
  obtain ⟨r', hrun, hrest, hposition⟩ : ∃ r', call.read.run r = (.ok call.value, r') ∧
      r'.unread = rest ∧ r'.position = r.position + (call.bits w).length := by
    cases call with
    | field count value =>
      have hreads : (field count value).read.Reads (lowBits count value) _ :=
        (reads_u_mod hfits value).bind_right (reads_pure _)
      exact hreads r rest hunread
    | unsigned value =>
      have hreads : (unsigned value).read.Reads (expGolombBits value) _ :=
        (reads_ue hfits).bind_right (reads_pure _)
      exact hreads r rest hunread
    | signed value =>
      have hreads : (signed value).read.Reads (expGolombBits (signedCode value)) _ :=
        (reads_se hfits.1 hfits.2).bind_right (reads_pure _)
      exact hreads r rest hunread
    | trailing =>
      obtain ⟨r', hrun, hrest⟩ := h.run_trailing hplain hunread
      exact ⟨r', run_bind_of_ok hrun, hrest⟩
  obtain ⟨hbalanced, _, hpassed, -⟩ := local_of_within call.within_read h.balanced hrun
  refine ⟨r', hrun, ⟨hbalanced, hpassed.escaped.trans h.escaped, ?_⟩, hrest⟩
  rw [hposition, h.position, ← length_written, ← length_written, (hplain.after hfits).2,
    List.length_append]

/-- What a reader is asked for to read back calls, and how many bits it has read after each. -/
def readCalls : List Call → Parse (List (Option Int × Nat))
  | [] => return []
  | call :: rest => do
    let value ← call.read
    let place ← Parse.position Parse.done
    let others ← readCalls rest
    return (value, place) :: others

/-- What calls of a writer write, and how many bits have been written after each. -/
def progress : Writer → List Call → List (Option Int × Nat)
  | _, [] => []
  | w, call :: rest => (call.value, (w.after call).bitsWritten) :: progress (w.after call) rest

theorem Follows.run_readCalls {calls : List Call} (h : w.Follows r) (hplain : w.Plain)
    (hfits : ∀ call ∈ calls, call.Fits) (hunread : r.unread = w.bitsOf calls ++ rest) :
    ∃ r', (readCalls calls).run r = (.ok (w.progress calls), r') ∧
      (calls.foldl Writer.after w).Follows r' ∧ r'.unread = rest := by
  induction calls generalizing w r with
  | nil => exact ⟨r, rfl, h, hunread⟩
  | cons call calls ih =>
    obtain ⟨hcall, hcalls⟩ := List.forall_mem_cons.mp hfits
    rw [bitsOf, List.append_assoc] at hunread
    obtain ⟨r₁, hrun₁, hfollows₁, hunread₁⟩ := h.run_read hplain hcall hunread
    obtain ⟨r₂, hrun₂, hfollows₂, hunread₂⟩ :=
      ih hfollows₁ (hplain.after hcall).1 hcalls hunread₁
    refine ⟨r₂, ?_, hfollows₂, hunread₂⟩
    rw [readCalls, run_bind_of_ok hrun₁]
    show (readCalls calls >>= fun others => pure ((call.value, r₁.position) :: others)).run r₁ = _
    rw [run_bind_of_ok hrun₂, hfollows₁.position]
    rfl

/-- **All calls are read back.**  Without emulation prevention a reader of what calls have written
returns one after another what each of them was given, a field modulo its width, and is after each
as far as the writer was.  Less than a byte of zeros remains. -/
theorem readCalls_sink {calls : List Call} (hfits : ∀ call ∈ calls, call.Fits) :
    ∃ r, (readCalls calls).run (.ofBytes false (sink false calls)) =
        (.ok (progress { escaped := false } calls), r) ∧
      r.bitsLeft = r.unread.length ∧ r.unread.length < 8 ∧ ∀ bit ∈ r.unread, bit = false := by
  have hstart : Follows { escaped := false } (.ofBytes false (sink false calls)) :=
    ⟨BitReader.balanced_ofBytes false _, rfl, rfl⟩
  obtain ⟨hplain, hwritten⟩ := plain_start.afterAll hfits
  obtain ⟨k, hk, hsink⟩ := hplain.bits_flush
  have hunread : (BitReader.ofBytes false (sink false calls)).unread =
      bitsOf { escaped := false } calls ++ List.replicate k false := by
    rw [BitReader.unread_ofBytes, payload_unescaped, sink, hsink, hwritten]
    rfl
  obtain ⟨r, hrun, hfollows, hrest⟩ := hstart.run_readCalls plain_start hfits hunread
  refine ⟨r, hrun, ?_, ?_, ?_⟩
  · rw [BitReader.length_unread, BitReader.ahead, hfollows.escaped, payload_unescaped,
      BitReader.bitsLeft]
    omega
  · rwa [hrest, List.length_replicate]
  · rw [hrest]
    exact fun bit hbit => List.eq_of_mem_replicate hbit

/-- The largest codewords, a field of no bits and one that loses its high bits. -/
def extremes : List Call :=
  [.field 0 7, .field 5 0xff, .unsigned 0xffffffff, .signed (-0x7fffffff), .trailing, .signed 0,
    .trailing]

theorem readCalls_sink_extremes : ∃ r, (∀ call ∈ extremes, call.Fits) ∧
    (readCalls extremes).run (.ofBytes false (sink false extremes)) =
      (.ok [(some 0, 0), (some 31, 5), (some 0xffffffff, 70), (some (-0x7fffffff), 133),
        (none, 136), (some 0, 137), (none, 144)], r) ∧
    r.unread.length < 8 := by
  have hfits : ∀ call ∈ extremes, call.Fits := by
    simp [extremes, Call.Fits]
  obtain ⟨r, hrun, -, hlength, -⟩ := readCalls_sink hfits
  have hprogress : progress { escaped := false } extremes =
      [(some 0, 0), (some 31, 5), (some 0xffffffff, 70), (some (-0x7fffffff), 133), (none, 136),
        (some 0, 137), (none, 144)] := by
    decide +kernel
  rw [hprogress] at hrun
  exact ⟨r, hfits, hrun, hlength⟩

end Nal.Writer

end CodedVideo
