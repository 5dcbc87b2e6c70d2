import CodedVideo.Nal.Writer
import CodedVideo.Parse
import CodedVideo.Proofs.BitCursor

/-!
# Reading back what has been coded

`p.Reads bits value` says that `p` takes exactly `bits` off any string that starts with
them, and yields `value`.  Structures that follow one another read the strings put end to
end (`Reads.bind`), so what a structure reads is put together from what its descriptors
read: a field (`reads_u`), a flag, an Exp-Golomb codeword (`reads_ue`) or a signed one
(`reads_se`), and as many structures as a list has elements (`reads_collect`).
-/

namespace CodedVideo.Parse

open Nal (expGolombBits signedCode)

variable {α β : Type}

/-- The structure takes `bits` off any string that starts with them, and yields `value`. -/
def Reads (p : Parse α) (bits : List Bool) (value : α) : Prop :=
  ∀ (r : BitReader) (rest : List Bool), r.unread = bits ++ rest →
    ∃ r', p.run r = (.ok value, r') ∧ r'.unread = rest ∧
      r'.position = r.position + bits.length

/-! ### Structures that follow one another -/

/-- The second of two structures is run where the first one stops. -/
theorem run_bind (p : Parse α) (f : α → Parse β) (r : BitReader) :
    (p >>= f).run r = match p.run r with
      | (.ok value, r') => (f value).run r'
      | (.error e, r') => (.error e, r') := by
  show (p.bind f).run r = _
  induction p generalizing r with
  | done value => rfl
  | fail error => rfl
  | bits count next ih =>
    rw [Parse.bind, run, run]
    split
    · exact ih _ _
    · rfl
  | moreData next ih | align next ih | position next ih => exact ih _ _
  | skipData next ih =>
    rw [Parse.bind, run, run]
    split
    · exact ih _
    · rfl
  | checkOverrun next ih =>
    rw [Parse.bind, run, run]
    split
    · exact ih _
    · rfl

theorem run_bind_of_ok {p : Parse α} {f : α → Parse β} {r r' : BitReader} {value : α}
    (h : p.run r = (.ok value, r')) : (p >>= f).run r = (f value).run r' := by
  rw [run_bind, h]

theorem run_bind_eq_ok {p : Parse α} {f : α → Parse β} {r r' : BitReader} {value : β} :
    (p >>= f).run r = (.ok value, r') ↔
      ∃ a r₁, p.run r = (.ok a, r₁) ∧ (f a).run r₁ = (.ok value, r') := by
  rw [run_bind]
  rcases p.run r with ⟨e | a, r₁⟩ <;> simp

theorem reads_pure (value : α) : (pure value : Parse α).Reads [] value :=
  fun r _ h => ⟨r, rfl, h, rfl⟩

theorem Reads.bind {p : Parse α} {f : α → Parse β} {bits bits' : List Bool} {value : α} {value' : β}
    (hp : p.Reads bits value) (hf : (f value).Reads bits' value') :
    (p >>= f).Reads (bits ++ bits') value' := by
  intro r rest h
  rw [List.append_assoc] at h
  obtain ⟨r₁, hrun, hrest, hposition⟩ := hp r (bits' ++ rest) h
  rw [run_bind_of_ok hrun, List.length_append, ← Nat.add_assoc, ← hposition]
  exact hf r₁ rest hrest

/-- A structure that reads nothing may come first. -/
theorem Reads.bind_left {p : Parse α} {f : α → Parse β} {bits : List Bool} {value : α} {value' : β}
    (hp : p.Reads [] value) (hf : (f value).Reads bits value') : (p >>= f).Reads bits value' :=
  hp.bind hf

/-- A structure that reads nothing may come last. -/
theorem Reads.bind_right {p : Parse α} {f : α → Parse β} {bits : List Bool} {value : α}
    {value' : β} (hp : p.Reads bits value) (hf : (f value).Reads [] value') :
    (p >>= f).Reads bits value' := by
  have h := hp.bind hf
  rwa [List.append_nil] at h

/-- Either of two structures may come first. -/
theorem Reads.ite_bind {c : Prop} [Decidable c] {p q : Parse α} {f : α → Parse β}
    {bits bits' : List Bool} {value : α} {value' : β}
    (hpq : (if c then p else q).Reads bits value) (hf : (f value).Reads bits' value') :
    (if c then p >>= f else q >>= f).Reads (bits ++ bits') value' := by
  by_cases hc : c
  · rw [if_pos hc] at hpq ⊢
    exact hpq.bind hf
  · rw [if_neg hc] at hpq ⊢
    exact hpq.bind hf

theorem reads_refuseIf {broken : Bool} (h : broken = false) (fault : Fault) :
    (refuseIf broken fault).Reads [] () := by
  rw [refuseIf, h]
  exact reads_pure ()

theorem reads_inRange {lo hi value : Int} (hlo : lo ≤ value) (hhi : value ≤ hi) :
    (inRange lo hi value).Reads [] () := by
  rw [inRange, if_pos ⟨hlo, hhi⟩]
  exact reads_pure ()

/-! ### Descriptors -/

theorem reads_u_mod {n : Nat} (hn : n ≤ 32) (value : Nat) :
    (u n).Reads (lowBits n value) (value % 2 ^ n) := by
  intro r rest hr
  have hlen : n ≤ r.unread.length := by
    rw [hr, List.length_append, length_lowBits]
    omega
  obtain ⟨r', hread, hunread, hposition⟩ := r.readBits_of_le hn hlen
  rw [hr, List.take_left' (length_lowBits n value), ofBits_lowBits] at hread
  rw [hr, List.drop_left' (length_lowBits n value)] at hunread
  refine ⟨r', ?_, hunread, by rw [hposition, length_lowBits]⟩
  rw [u, run, hread]
  rfl

theorem reads_u {n value : Nat} (hn : n ≤ 32) (h : value < 2 ^ n) :
    (u n).Reads (lowBits n value) value := by
  have hmod := reads_u_mod hn value
  rwa [Nat.mod_eq_of_lt h] at hmod

theorem reads_flag (b : Bool) : flag.Reads [b] b := by
  have hbits : lowBits 1 b.toNat = [b] := by
    cases b <;> rfl
  have hu : (u 1).Reads [b] b.toNat := by
    rw [← hbits]
    exact reads_u (by omega) b.toNat_lt
  have hvalue : (b.toNat == 1) = b := by
    cases b <;> rfl
  refine hu.bind_right ?_
  rw [hvalue]
  exact reads_pure b

theorem reads_leadingZeros {k limit : Nat} (zeros : Nat) (h : k < limit) :
    (leadingZeros zeros limit).Reads (List.replicate k false ++ [true]) (zeros + k) := by
  induction k generalizing zeros limit with
  | zero =>
    obtain ⟨limit, rfl⟩ := Nat.exists_eq_succ_of_ne_zero h.ne'
    exact (reads_flag true).bind (reads_pure zeros)
  | succ k ih =>
    obtain ⟨limit, rfl⟩ := Nat.exists_eq_succ_of_ne_zero (by omega : limit ≠ 0)
    have hrest := ih (zeros + 1) (Nat.lt_of_succ_lt_succ h)
    rw [Nat.add_right_comm] at hrest
    exact (reads_flag false).bind hrest

/-- The codeword of a number: zeros, a one, and the digits below the first one of its
successor. -/
theorem expGolombBits_eq (value : Nat) :
    expGolombBits value = (List.replicate (value + 1).log2 false ++ [true]) ++
      lowBits (value + 1).log2 (value + 1) := by
  have htop : (value + 1).testBit (value + 1).log2 = true := by
    rw [Nat.testBit_log2 (Nat.succ_ne_zero value)]
  unfold expGolombBits
  dsimp only
  rw [Nat.add_sub_cancel, lowBits_succ, htop, List.append_assoc, List.singleton_append]

/-- **An Exp-Golomb codeword is read back.** -/
theorem reads_ue {value : Nat} (h : value < 2 ^ 32) : ue.Reads (expGolombBits value) value := by
  have hpos : value + 1 ≠ 0 := Nat.succ_ne_zero value
  rw [expGolombBits_eq]
  generalize hk : (value + 1).log2 = k
  have hlow : 2 ^ k ≤ value + 1 := (Nat.le_log2 hpos).mp hk.ge
  have hhigh : value + 1 < 2 ^ (k + 1) := (Nat.log2_lt hpos).mp (by omega)
  have hk32 : k ≤ 32 := by
    by_contra hlt
    have hpow : 2 ^ 33 ≤ 2 ^ k := Nat.pow_le_pow_right (by omega) (by omega)
    omega
  -- The digits after the first one are what the successor has beyond a power of two.
  have hsuffix : (value + 1) % 2 ^ k = value + 1 - 2 ^ k := by
    rw [Nat.mod_eq_sub_mod hlow, Nat.mod_eq_of_lt (by rw [Nat.pow_succ] at hhigh; omega)]
  have hzeros := reads_leadingZeros 0 (by omega : k < 33)
  rw [Nat.zero_add] at hzeros
  refine hzeros.bind ?_
  have hvalue : pow2 k - 1 + (value + 1) % 2 ^ k = value := by
    have hk0 := Nat.two_pow_pos k
    rw [hsuffix, pow2_eq]
    omega
  refine (reads_u_mod hk32 (value + 1)).bind_right ?_
  simp only [hvalue]
  rw [if_pos (by rw [pow2_eq]; exact h)]
  exact reads_pure value

theorem reads_ueMax {value hi : Nat} (h : value ≤ hi) (h32 : value < 2 ^ 32) :
    (ueMax hi).Reads (expGolombBits value) value := by
  refine (reads_ue h32).bind_right ?_
  exact (reads_inRange (by omega) (by omega)).bind_left (reads_pure value)

/-- The code number of a value denotes it. -/
theorem signedValue_signedCode (value : Int) : signedValue (signedCode value) = value := by
  unfold signedValue signedCode
  split <;> split <;> omega

/-- **A signed Exp-Golomb codeword is read back.** -/
theorem reads_se {value : Int} (hlow : -(2 ^ 31) < value) (hhigh : value < 2 ^ 31) :
    se.Reads (expGolombBits (signedCode value)) value := by
  have hcode : signedCode value < 2 ^ 32 := by
    unfold signedCode
    split <;> omega
  refine (reads_ue hcode).bind_right ?_
  simp only [signedValue_signedCode]
  rw [if_pos (by rw [pow2_eq]; exact_mod_cast hhigh)]
  exact reads_pure value

theorem reads_seBetween {lo hi value : Int} (hlo : lo ≤ value) (hhi : value ≤ hi)
    (hlow : -(2 ^ 31) < value) (hhigh : value < 2 ^ 31) :
    (seBetween lo hi).Reads (expGolombBits (signedCode value)) value := by
  refine (reads_se hlow hhigh).bind_right ?_
  exact (reads_inRange hlo hhi).bind_left (reads_pure value)

/-! ### Lists of structures -/

/-- Structures are read as the elements of a list, after those in `done`. -/
theorem reads_collectOnto {p : Nat → Parse α} {code : α → List Bool} {xs : List α} (start : Nat)
    (done : List α) (h : ∀ i (hi : i < xs.length), (p (start + i)).Reads (code xs[i]) xs[i]) :
    (collectOnto p done start xs.length).Reads (xs.flatMap code) (done.reverse ++ xs) := by
  induction xs generalizing start done with
  | nil =>
    rw [List.append_nil]
    exact reads_pure _
  | cons x xs ih =>
    have hrest := ih (start + 1) (x :: done) fun i hi => by
      have hnext := h (i + 1) (Nat.succ_lt_succ hi)
      rw [← Nat.add_assoc, Nat.add_right_comm] at hnext
      exact hnext
    rw [List.reverse_cons, List.append_assoc, List.singleton_append] at hrest
    exact (h 0 (Nat.succ_pos _)).bind hrest

/-- **A list of structures is read back element by element.** -/
theorem reads_collect {p : Nat → Parse α} {code : α → List Bool} {xs : List α}
    (h : ∀ i (hi : i < xs.length), (p i).Reads (code xs[i]) xs[i]) :
    (collect xs.length p).Reads (xs.flatMap code) xs :=
  reads_collectOnto 0 [] fun i hi => by
    rw [Nat.zero_add]
    exact h i hi

end CodedVideo.Parse
