import CodedVideo.Bits.Writer
import Mathlib.Tactic

/-!
# Numbers as strings of bits

`lowBits n value` writes the low `n` bits of a number and `ofBits` reads a string of
bits as a number, the highest bit first.  Here is what a reader and a writer of bits
need to know of them: strings put end to end add up with a shift (`ofBits_append`), the
low bits of a number come apart at any place (`lowBits_add`), and reading what has been
written gives the number modulo `2 ^ n` (`ofBits_lowBits`).
-/

namespace CodedVideo

theorem pow2_eq (n : Nat) : pow2 n = 2 ^ n := rfl

/-! ### The low bits of a number -/

@[simp] theorem length_lowBits (n value : Nat) : (lowBits n value).length = n := by
  simp [lowBits]

@[simp] theorem lowBits_zero (value : Nat) : lowBits 0 value = [] := rfl

theorem lowBits_succ (n value : Nat) :
    lowBits (n + 1) value = value.testBit n :: lowBits n value := by
  rw [lowBits, List.range_succ, List.reverse_append, List.reverse_singleton,
    List.singleton_append, List.map_cons, lowBits]

theorem lowBits_add (m n value : Nat) :
    lowBits (m + n) value = lowBits m (value / 2 ^ n) ++ lowBits n value := by
  induction m with
  | zero => simp
  | succ m ih =>
    rw [Nat.add_right_comm, lowBits_succ, ih, lowBits_succ, List.cons_append,
      Nat.testBit_div_two_pow]

theorem drop_lowBits (k n value : Nat) : (lowBits n value).drop k = lowBits (n - k) value := by
  rcases Nat.le_total k n with h | h
  · obtain ⟨m, rfl⟩ := Nat.exists_eq_add_of_le h
    rw [lowBits_add, List.drop_left' (length_lowBits _ _), Nat.add_sub_cancel_left]
  · rw [List.drop_eq_nil_of_le (by rw [length_lowBits]; exact h), Nat.sub_eq_zero_of_le h,
      lowBits_zero]

/-! ### The number that a string denotes -/

theorem foldl_ofBits (acc : Nat) (bits : List Bool) :
    bits.foldl (fun acc b => 2 * acc + b.toNat) acc = acc * 2 ^ bits.length + ofBits bits := by
  induction bits generalizing acc with
  | nil => simp [ofBits]
  | cons b bits ih =>
    rw [ofBits, List.foldl_cons, List.foldl_cons, ih, ih (2 * 0 + b.toNat), List.length_cons,
      Nat.pow_succ]
    ring

@[simp] theorem ofBits_nil : ofBits [] = 0 := rfl

theorem ofBits_cons (b : Bool) (bits : List Bool) :
    ofBits (b :: bits) = b.toNat * 2 ^ bits.length + ofBits bits := by
  rw [ofBits, List.foldl_cons, foldl_ofBits, Nat.mul_zero, Nat.zero_add]

/-- A string in front of another is shifted by the length of that. -/
theorem ofBits_append (front back : List Bool) :
    ofBits (front ++ back) = ofBits front * 2 ^ back.length + ofBits back := by
  rw [ofBits, List.foldl_append, foldl_ofBits]
  rfl

theorem ofBits_lt (bits : List Bool) : ofBits bits < 2 ^ bits.length := by
  induction bits with
  | nil => simp
  | cons b bits ih =>
    have hb := Bool.toNat_le b
    rw [ofBits_cons, List.length_cons, Nat.pow_succ]
    nlinarith

theorem ofBits_append_div (front back : List Bool) :
    ofBits (front ++ back) / 2 ^ back.length = ofBits front := by
  rw [ofBits_append, Nat.add_comm, Nat.add_mul_div_right _ _ (Nat.two_pow_pos _),
    Nat.div_eq_of_lt (ofBits_lt back), Nat.zero_add]

/-- **What has been written is read back modulo the width.** -/
theorem ofBits_lowBits (n value : Nat) : ofBits (lowBits n value) = value % 2 ^ n := by
  induction n with
  | zero => simp [Nat.mod_one]
  | succ n ih =>
    rw [lowBits_succ, ofBits_cons, ih, length_lowBits, Nat.toNat_testBit, Nat.mul_comm,
      Nat.pow_succ, Nat.mod_mul, Nat.add_comm]

theorem lowBits_mod (n value : Nat) : lowBits n (value % 2 ^ n) = lowBits n value := by
  rw [lowBits, lowBits]
  refine List.map_congr_left fun i hi => ?_
  have hlt : i < n := List.mem_range.mp (List.mem_reverse.mp hi)
  rw [Nat.testBit_mod_two_pow, decide_eq_true hlt, Bool.true_and]

/-- What has been read is written back. -/
theorem lowBits_ofBits (bits : List Bool) : lowBits bits.length (ofBits bits) = bits := by
  induction bits with
  | nil => rfl
  | cons b bits ih =>
    have htop : (b.toNat * 2 ^ bits.length + ofBits bits).testBit bits.length = b := by
      rw [Nat.mul_comm, Nat.testBit_two_pow_mul_add _ (ofBits_lt bits), if_neg (lt_irrefl _),
        Nat.sub_self]
      cases b <;> rfl
    have hlow : (b.toNat * 2 ^ bits.length + ofBits bits) % 2 ^ bits.length = ofBits bits := by
      rw [Nat.mul_add_mod_self_right, Nat.mod_eq_of_lt (ofBits_lt bits)]
    rw [List.length_cons, lowBits_succ, ofBits_cons, htop, ← lowBits_mod, hlow, ih]

/-! ### Bytes -/

/-- The bits of a byte, the highest first. -/
def byteBits (byte : UInt8) : List Bool := lowBits 8 byte.toNat

@[simp] theorem length_byteBits (byte : UInt8) : (byteBits byte).length = 8 :=
  length_lowBits 8 _

theorem ofBits_byteBits (byte : UInt8) : ofBits (byteBits byte) = byte.toNat := by
  rw [byteBits, ofBits_lowBits, Nat.mod_eq_of_lt byte.toNat_lt]

@[simp] theorem length_flatMap_byteBits (bytes : List UInt8) :
    (bytes.flatMap byteBits).length = 8 * bytes.length := by
  induction bytes with
  | nil => rfl
  | cons b bytes ih =>
    rw [List.flatMap_cons, List.length_append, length_byteBits, ih, List.length_cons]
    omega

theorem exists_flatMap_byteBits {count : Nat} {bits : List Bool} (h : bits.length = 8 * count) :
    ∃ bytes : List UInt8, bytes.flatMap byteBits = bits := by
  induction count generalizing bits with
  | zero => exact ⟨[], (List.eq_nil_of_length_eq_zero h).symm⟩
  | succ count ih =>
    obtain ⟨bytes, hbytes⟩ := @ih (bits.drop 8) (by rw [List.length_drop]; omega)
    have htake : (bits.take 8).length = 8 := List.length_take_of_le (by omega)
    have hlt : ofBits (bits.take 8) < 256 := by
      have hlt := ofBits_lt (bits.take 8)
      rwa [htake] at hlt
    have hbyte : byteBits (UInt8.ofNat (ofBits (bits.take 8))) = bits.take 8 := by
      have hbits := lowBits_ofBits (bits.take 8)
      rwa [htake, ← UInt8.toNat_ofNat_of_lt' hlt] at hbits
    refine ⟨UInt8.ofNat (ofBits (bits.take 8)) :: bytes, ?_⟩
    rw [List.flatMap_cons, hbyte, hbytes, List.take_append_drop]

/-- Eight bits on a byte boundary become their byte. -/
theorem pushAll_byteBits (byte : UInt8) :
    PartialByte.pushAll [] (byteBits byte) = ([], [byte]) := by
  have hpush : PartialByte.pushAll [] (byteBits byte) = ([], [PartialByte.padded (byteBits byte)]) :=
    rfl
  rw [hpush, PartialByte.padded, ofBits_byteBits, length_byteBits, Nat.sub_self, pow2_eq, pow_zero,
    Nat.mul_one, UInt8.ofNat_toNat]

end CodedVideo
