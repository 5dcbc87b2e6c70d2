import CodedVideo.OrderCount
import CodedVideo.Proofs.BitString

/-!
# Order counts of whole sequences

An encoder knows the order count of every picture and sends its low bits, and the
high ones where it chooses to.  A count that is sent without its high bits has to be
near that of the last picture that others count from, or to have none where there is
no such picture.  `Sends` says so of one picture.

`OrderCounter.run` finds the counts of the pictures of a sequence, one after another,
and `run_tracks` says that these are the counts of the encoder, however long the
sequence is and wherever it is reset.  Only the last picture that others count from
matters to a step, so the invariant is that the counter holds just its count.
-/

namespace CodedVideo

/-! ### Low bits -/

/-- The low bits of a count are its remainder, for negative counts too. -/
theorem lowCount_two_pow {k : Nat} (hk : k ≤ 62) (value : Int) :
    lowCount value (2 ^ k) = value % 2 ^ k := by
  have hpos : 0 < 2 ^ k := Nat.two_pow_pos k
  have hsmall : 2 ^ k ≤ 2 ^ 62 := Nat.pow_le_pow_right (by omega) hk
  have hmask : (BitVec.ofInt 64 (((2 ^ k : Nat) : Int) - 1)).toNat = 2 ^ k - 1 := by
    rw [BitVec.toNat_ofInt]
    omega
  have hdvd : ((2 ^ k : Nat) : Int) ∣ ((2 ^ 64 : Nat) : Int) :=
    Int.natCast_dvd_natCast.mpr (Nat.pow_dvd_pow 2 (by omega))
  have hvalue : ((BitVec.ofInt 64 value).toNat : Int) = value % (2 ^ 64 : Nat) := by
    rw [BitVec.toNat_ofInt]
    omega
  have hlow : (BitVec.ofInt 64 value &&& BitVec.ofInt 64 (((2 ^ k : Nat) : Int) - 1)).toNat =
      (BitVec.ofInt 64 value).toNat % 2 ^ k := by
    rw [BitVec.toNat_and, hmask, Nat.and_two_pow_sub_one_eq_mod]
  have hlt := Nat.mod_lt (BitVec.ofInt 64 value).toNat hpos
  rw [lowCount, BitVec.toInt_eq_toNat_of_lt (by rw [hlow]; omega), hlow, Int.natCast_mod, hvalue,
    Int.emod_emod_of_dvd value hdvd, Nat.cast_pow, Nat.cast_ofNat]

theorem emod_of_near {x m : Int} (hlow : -m ≤ x) (hhigh : x < 2 * m) :
    x % m = if x < 0 then x + m else if x < m then x else x - m := by
  split_ifs with hneg hlt
  · rw [← Int.add_emod_right, Int.emod_eq_of_lt (by omega) (by omega)]
  · rw [Int.emod_eq_of_lt (by omega) hlt]
  · rw [← Int.sub_emod_right, Int.emod_eq_of_lt (by omega) (by omega)]

/-- The high part of the previous count is moved if the low parts are half a range apart. -/
theorem countNear_two_pow {k : Nat} (hk : k + 1 ≤ 62) (lsb : Nat) (previous : Int) :
    countNear lsb (2 ^ (k + 1)) previous =
      previous - previous % (2 * 2 ^ k) +
        if lsb + 2 ^ k ≤ previous % (2 * 2 ^ k) then 2 * 2 ^ k
        else if previous % (2 * 2 ^ k) + 2 ^ k < lsb then -(2 * 2 ^ k) else 0 := by
  have hdouble : (2 ^ (k + 1) : Int) = 2 * 2 ^ k := by rw [pow_succ, mul_comm]
  have hlow : lowCount previous (2 ^ (k + 1)) = previous % (2 * 2 ^ k) := by
    rw [lowCount_two_pow hk, hdouble]
  have hpos : (0 : Int) < 2 ^ k := by positivity
  have hhalf : ((2 ^ (k + 1) / 2 : Nat) : Int) = 2 ^ k := by
    rw [pow_succ, Nat.mul_div_cancel _ (by omega), Nat.cast_pow, Nat.cast_ofNat]
  have hall : ((2 ^ (k + 1) : Nat) : Int) = 2 * 2 ^ k := by
    rw [Nat.cast_pow, Nat.cast_ofNat, hdouble]
  unfold countNear
  dsimp only
  rw [hlow, hall, hhalf]
  generalize (2 ^ k : Int) = half at *
  split_ifs <;> omega

/-- A count is found from its low bits if it is near the previous one. -/
theorem countNear_add {k : Nat} (hk : k + 1 ≤ 62) {count previous : Int} {lsb : Nat}
    (hbelow : -2 ^ k < count - previous) (habove : count - previous ≤ 2 ^ k)
    (hlsb : (lsb : Int) = count % 2 ^ (k + 1)) :
    countNear lsb (2 ^ (k + 1)) previous + lsb = count := by
  have hdouble : (2 ^ (k + 1) : Int) = 2 * 2 ^ k := by rw [pow_succ, mul_comm]
  have hpos : (0 : Int) < 2 ^ k := by positivity
  rw [hdouble] at hlsb
  rw [countNear_two_pow hk]
  generalize (2 ^ k : Int) = half at *
  have hlow0 := Int.emod_nonneg previous (by omega : 2 * half ≠ 0)
  have hlow1 := Int.emod_lt_of_pos previous (by omega : 0 < 2 * half)
  -- Both counts have the high part of the previous one in common.
  have hshift : count % (2 * half) = (previous % (2 * half) + (count - previous)) % (2 * half) := by
    rw [Int.emod_add_emod, add_sub_cancel]
  rw [hshift, emod_of_near (by omega) (by omega)] at hlsb
  generalize previous % (2 * half) = low at *
  split_ifs at hlsb ⊢ <;> omega

/-! ### What an encoder sends -/

/-- What happens in a sequence: a picture of a given count is sent, or the sequence
ends. -/
inductive OrderEvent where
  | picture (info : OrderInfo) (count : Int)
  | reset

/-- Other pictures count from this one: it is in the lowest sublayer, it is no leading
picture, and others may refer to it. -/
def OrderInfo.Anchors (info : OrderInfo) : Prop :=
  info.temporalId = 0 ∧ info.kind ≠ .rasl ∧ info.kind ≠ .radl ∧ info.nonReference = false

instance (info : OrderInfo) : Decidable info.Anchors := by
  unfold OrderInfo.Anchors
  infer_instance

theorem OrderInfo.precedesOthers_iff (info : OrderInfo) :
    info.precedesOthers = true ↔ info.Anchors := by
  simp [precedesOthers, Anchors, and_assoc]

/-- The count that an event gives to later pictures. -/
def OrderEvent.anchor? : OrderEvent → Option Int
  | picture info count => if info.Anchors then some count else none
  | reset => none

def OrderEvent.isReset : OrderEvent → Bool
  | picture _ _ => false
  | reset => true

/-- The count of the last picture since the last reset that others count from. -/
def previousCount (earlier : List OrderEvent) : Option Int :=
  (earlier.reverse.takeWhile (!·.isReset)).findSome? (·.anchor?)

/-- How a picture is sent, `previous` being the count that it may count from. -/
structure OrderInfo.Sends (maxLsb : Nat) (previous : Option Int) (info : OrderInfo) (count : Int) :
    Prop where
  fits : -2 ^ 31 ≤ count ∧ count < 2 ^ 31
  lsb : (info.lsb : Int) = count % maxLsb
  high : ∀ cycle ∈ info.msbCycle, count = cycle * maxLsb + info.lsb
  first : info.msbCycle = none → info.kind.isIdr = true ∨ previous = none →
    0 ≤ count ∧ count < maxLsb
  near : info.msbCycle = none → info.kind.isIdr = false → ∀ p ∈ previous,
    -(maxLsb / 2 : Int) < count - p ∧ count - p ≤ maxLsb / 2

@[simp] theorem previousCount_nil : previousCount [] = none := rfl

@[simp] theorem previousCount_reset (earlier : List OrderEvent) :
    previousCount (earlier ++ [.reset]) = none := by
  simp [previousCount, OrderEvent.isReset]

@[simp] theorem previousCount_picture (earlier : List OrderEvent) (info : OrderInfo) (count : Int) :
    previousCount (earlier ++ [.picture info count]) =
      if info.Anchors then some count else previousCount earlier := by
  rw [previousCount, List.reverse_append, List.reverse_singleton, List.singleton_append,
    List.takeWhile_cons_of_pos (by rfl), List.findSome?_cons, OrderEvent.anchor?]
  by_cases h : info.Anchors
  · rw [if_pos h, if_pos h]
  · rw [if_neg h, if_neg h]
    rfl

/-! ### Following a sequence -/

/-- The count of a picture is found from what is sent of it. -/
theorem orderCount_of_sends {k : Nat} (hk : 1 ≤ k ∧ k ≤ 62) {previous : Option Int}
    {info : OrderInfo} {count : Int} (h : info.Sends (2 ^ k) previous count) :
    orderCount info.lsb (2 ^ k) info.msbCycle (if info.kind.isIdr then none else previous) =
      .ok count := by
  obtain ⟨j, rfl⟩ : ∃ j, k = j + 1 := ⟨k - 1, by omega⟩
  have hfits : -(pow2 31 : Int) ≤ count ∧ count < (pow2 31 : Int) := h.fits
  have hlsb := h.lsb
  rw [Nat.cast_pow, Nat.cast_ofNat] at hlsb
  unfold orderCount
  cases hcycle : info.msbCycle with
  | some cycle =>
    have hcount := h.high cycle hcycle
    dsimp only
    rw [← hcount, if_pos hfits]
  | none =>
    cases hprevious : (if info.kind.isIdr then none else previous) with
    | none =>
      have hfirst := h.first hcycle (by
        by_cases hidr : info.kind.isIdr = true
        · exact .inl hidr
        · rw [if_neg hidr] at hprevious
          exact .inr hprevious)
      have hcount : (info.lsb : Int) = count := by
        rw [h.lsb, Int.emod_eq_of_lt hfirst.1 hfirst.2]
      dsimp only
      rw [Int.zero_add, hcount, if_pos hfits]
    | some p =>
      have hidr : info.kind.isIdr = false := by
        by_contra hidr
        rw [Bool.not_eq_false] at hidr
        rw [if_pos hidr] at hprevious
        cases hprevious
      rw [if_neg (by rw [hidr]; decide)] at hprevious
      have hnear := h.near hcycle hidr p hprevious
      have hhalf : (((2 ^ (j + 1) : Nat) : Int) / 2) = 2 ^ j := by
        rw [Nat.cast_pow, Nat.cast_ofNat, pow_succ, Int.mul_ediv_cancel _ (by omega)]
      rw [hhalf] at hnear
      have hcount := countNear_add hk.2 hnear.1 hnear.2 hlsb
      dsimp only
      rw [hcount, if_pos hfits]

namespace OrderCounter

/-- What is found for the pictures of a sequence, one after another. -/
def run (maxLsb : Nat) : OrderCounter → List OrderEvent → List (Except Fault Int)
  | _, [] => []
  | counter, .reset :: rest => run maxLsb counter.reset rest
  | counter, .picture info _ :: rest =>
    (counter.next maxLsb info).1 :: run maxLsb (counter.next maxLsb info).2 rest

/-- One picture: its count is found, and the counter is ready for the next one. -/
theorem next_of_sends {k : Nat} (hk : 1 ≤ k ∧ k ≤ 62) {earlier : List OrderEvent}
    {info : OrderInfo} {count : Int} (h : info.Sends (2 ^ k) (previousCount earlier) count) :
    next ⟨previousCount earlier⟩ (2 ^ k) info =
      (.ok count, ⟨previousCount (earlier ++ [.picture info count])⟩) := by
  unfold next
  dsimp only
  rw [orderCount_of_sends hk h, previousCount_picture]
  dsimp only
  by_cases hanchors : info.Anchors
  · rw [if_pos hanchors, if_pos ((info.precedesOthers_iff).mpr hanchors)]
  · rw [if_neg hanchors, if_neg (mt (info.precedesOthers_iff).mp hanchors)]

/-- What is left of a sequence is followed from where the counter is. -/
theorem run_of_sends {k : Nat} (hk : 1 ≤ k ∧ k ≤ 62) (earlier : List OrderEvent)
    {events : List OrderEvent}
    (h : ∀ (i : Nat) info count, events[i]? = some (OrderEvent.picture info count) →
      info.Sends (2 ^ k) (previousCount (earlier ++ events.take i)) count) :
    run (2 ^ k) ⟨previousCount earlier⟩ events = events.filterMap fun
      | .picture _ count => some (.ok count)
      | .reset => none := by
  induction events generalizing earlier with
  | nil => rfl
  | cons event rest ih =>
    have hrun := ih (earlier ++ [event]) fun i info count hi => by
      have hsends := h (i + 1) info count hi
      rwa [List.take_succ_cons, ← List.singleton_append, ← List.append_assoc] at hsends
    cases event with
    | reset =>
      rw [previousCount_reset] at hrun
      exact hrun
    | picture info count =>
      have hsends := h 0 info count rfl
      rw [List.take_zero, List.append_nil] at hsends
      rw [run, next_of_sends hk hsends, hrun]
      rfl

/-- **The counter tracks the encoder.** -/
theorem run_tracks {k : Nat} (hk : 4 ≤ k ∧ k ≤ 16) {events : List OrderEvent}
    (h : ∀ (i : Nat) info count, events[i]? = some (OrderEvent.picture info count) →
      info.Sends (2 ^ k) (previousCount (events.take i)) count) :
    run (2 ^ k) {} events = events.filterMap fun
      | .picture _ count => some (.ok count)
      | .reset => none :=
  run_of_sends (by omega) [] h

/-- A sequence with both extreme distances, negative counts, pictures that nothing counts
from, a reset, and high bits that are sent. -/
def steps : List OrderEvent := [
  .picture ⟨.idrNoLeading, 0, 3, none, false⟩ 3,
  .picture ⟨.trail, 0, 11, none, false⟩ 11,
  .picture ⟨.trail, 0, 4, none, false⟩ 4,
  .picture ⟨.trail, 0, 13, none, false⟩ (-3),
  .picture ⟨.stsa, 1, 5, none, false⟩ 5,
  .picture ⟨.rasl, 0, 6, none, false⟩ (-10),
  .picture ⟨.trail, 0, 5, none, true⟩ 5,
  .picture ⟨.trail, 0, 6, none, false⟩ (-10),
  .reset,
  .picture ⟨.trail, 0, 9, none, false⟩ 9,
  .picture ⟨.cra, 0, 1, some 2, false⟩ 33,
  .picture ⟨.trail, 0, 10, none, false⟩ 26]

theorem run_tracks_steps :
    (∀ (i : Nat) info count, steps[i]? = some (OrderEvent.picture info count) →
      info.Sends (2 ^ 4) (previousCount (steps.take i)) count) ∧
    run (2 ^ 4) {} steps = [.ok 3, .ok 11, .ok 4, .ok (-3), .ok 5, .ok (-10), .ok 5, .ok (-10),
      .ok 9, .ok 33, .ok 26] := by
  have hsends : ∀ (i : Nat) info count, steps[i]? = some (OrderEvent.picture info count) →
      info.Sends (2 ^ 4) (previousCount (steps.take i)) count := by
    intro i info count hi
    have hlt : i < 12 := (List.getElem?_eq_some_iff.mp hi).1
    interval_cases i <;> cases hi <;> exact ⟨by decide, by decide, by decide, by decide, by decide⟩
  exact ⟨hsends, run_tracks ⟨by decide, by decide⟩ hsends⟩

end OrderCounter

end CodedVideo
