import CodedVideo.Proofs.OrderTracking

/-!
# Order counts of several layers

A counter does not tell layers apart: whatever picture others may count from becomes the
previous one, also for the pictures of other layers.  So a picture may get another count than
it would have if its layer came alone.

`OrderCounter.countsOf_alone_iff` says when the counts of a layer do not depend on the other
layers: exactly if every picture that is sent without the high bits of its count is near the
last picture of any layer that others count from, the count of the picture being the one that
it has when its layer comes alone.

The counter that follows all layers and the counter that follows one agree on a picture if the
one finds a count that is near what the other holds, since both find a count with the low bits
that have been sent, and there is just one such count nearby.
-/

namespace CodedVideo

/-! ### Single pictures -/

/-- The count is at most half a range away from the previous one, half a range behind it
being too far. -/
def IsNear (maxLsb : Nat) (previous count : Int) : Prop :=
  -(maxLsb / 2 : Int) < count - previous ∧ count - previous ≤ maxLsb / 2

instance (maxLsb : Nat) (previous count : Int) : Decidable (IsNear maxLsb previous count) :=
  inferInstanceAs (Decidable (_ ∧ _))

/-- What is found next to a previous count is near it. -/
theorem isNear_countNear {k : Nat} (hk : k + 1 ≤ 62) {lsb : Nat} (hlsb : lsb < 2 ^ (k + 1))
    (previous : Int) :
    IsNear (2 ^ (k + 1)) previous (countNear lsb (2 ^ (k + 1)) previous + lsb) := by
  have hpos : (0 : Int) < 2 ^ k := by positivity
  have hhalf : ((2 ^ (k + 1) : Nat) : Int) / 2 = 2 ^ k := by
    rw [Nat.cast_pow, Nat.cast_ofNat, pow_succ, Int.mul_ediv_cancel _ (by omega)]
  have hlsb : (lsb : Int) < 2 * 2 ^ k := by
    rw [← pow_succ']
    exact_mod_cast hlsb
  unfold IsNear
  rw [countNear_two_pow hk, hhalf]
  generalize (2 ^ k : Int) = half at *
  have hlow0 := Int.emod_nonneg previous (by omega : 2 * half ≠ 0)
  have hlow1 := Int.emod_lt_of_pos previous (by omega : 0 < 2 * half)
  generalize previous % (2 * half) = low at *
  split_ifs <;> omega

/-- What is found next to a previous count has the low bits that have been sent. -/
theorem countNear_emod {k : Nat} (hk : k + 1 ≤ 62) {lsb : Nat} (hlsb : lsb < 2 ^ (k + 1))
    (previous : Int) :
    (countNear lsb (2 ^ (k + 1)) previous + lsb) % (2 ^ (k + 1) : Nat) = lsb := by
  have hrange : ((2 ^ (k + 1) : Nat) : Int) = 2 * 2 ^ k := by
    rw [Nat.cast_pow, Nat.cast_ofNat, pow_succ, mul_comm]
  have hhigh : ((2 ^ (k + 1) : Nat) : Int) ∣ countNear lsb (2 ^ (k + 1)) previous := by
    rw [countNear_two_pow hk, hrange]
    refine Int.dvd_add (Int.dvd_self_sub_emod) ?_
    split_ifs
    · exact Int.dvd_refl _
    · exact Int.dvd_neg.mpr (Int.dvd_refl _)
    · exact Int.dvd_zero _
  rw [Int.add_emod, Int.emod_eq_zero_of_dvd hhigh, Int.zero_add, Int.emod_emod]
  exact Int.emod_eq_of_lt (by omega) (by exact_mod_cast hlsb)

namespace OrderInfo

/-- The low bits of the count have a length that can be coded. -/
def Coded (info : OrderInfo) (maxLsb : Nat) : Prop :=
  info.lsb < maxLsb ∧ ∃ k, 4 ≤ k ∧ k ≤ 16 ∧ maxLsb = 2 ^ k

/-- The high bits of the count come of the previous picture. -/
def IsRelative (info : OrderInfo) : Prop := info.msbCycle = none ∧ info.kind.isIdr = false

instance (info : OrderInfo) : Decidable info.IsRelative := inferInstanceAs (Decidable (_ ∧ _))

/-- The count of a picture, before it is checked to fit in 32 bits. -/
def value (info : OrderInfo) (maxLsb : Nat) (previous : Option Int) : Int :=
  (match info.msbCycle, if info.kind.isIdr then none else previous with
    | some cycle, _ => (cycle * maxLsb : Int)
    | none, none => 0
    | none, some previous => countNear info.lsb maxLsb previous) + info.lsb

variable {info : OrderInfo} {maxLsb : Nat}

theorem value_of_not_isRelative (h : ¬ info.IsRelative) (p q : Option Int) :
    info.value maxLsb p = info.value maxLsb q := by
  unfold value
  cases hcycle : info.msbCycle with
  | some cycle => rfl
  | none =>
    have hidr : info.kind.isIdr = true := by
      by_contra hidr
      exact h ⟨hcycle, Bool.not_eq_true _ ▸ hidr⟩
    rw [if_pos hidr, if_pos hidr]

theorem value_none (h : info.IsRelative) : info.value maxLsb none = info.lsb := by
  unfold value
  rw [h.1, h.2]
  exact Int.zero_add _

theorem value_some (h : info.IsRelative) (previous : Int) :
    info.value maxLsb (some previous) = countNear info.lsb maxLsb previous + info.lsb := by
  unfold value
  rw [h.1, h.2]
  rfl

/-- A count that comes of a previous one, or of none, has the low bits that have been sent. -/
theorem value_emod (hcoded : info.Coded maxLsb) (h : info.IsRelative) (previous : Option Int) :
    info.value maxLsb previous % maxLsb = info.lsb := by
  obtain ⟨hlsb, k, hk, hk', rfl⟩ := hcoded
  obtain ⟨j, rfl⟩ : ∃ j, k = j + 1 := ⟨k - 1, by omega⟩
  cases previous with
  | none =>
    rw [value_none h]
    exact Int.emod_eq_of_lt (by omega) (by exact_mod_cast hlsb)
  | some previous =>
    rw [value_some h]
    exact countNear_emod (by omega) hlsb previous

/-- There is one count near the previous one with the low bits that have been sent. -/
theorem value_some_eq_iff (hcoded : info.Coded maxLsb) (h : info.IsRelative)
    {previous count : Int} (hcount : count % maxLsb = info.lsb) :
    info.value maxLsb (some previous) = count ↔ IsNear maxLsb previous count := by
  obtain ⟨hlsb, k, hk, hk', rfl⟩ := hcoded
  obtain ⟨j, rfl⟩ : ∃ j, k = j + 1 := ⟨k - 1, by omega⟩
  rw [value_some h]
  constructor
  · rintro rfl
    exact isNear_countNear (by omega) hlsb previous
  · rintro ⟨hbelow, habove⟩
    have hhalf : ((2 ^ (j + 1) : Nat) : Int) / 2 = 2 ^ j := by
      rw [Nat.cast_pow, Nat.cast_ofNat, pow_succ, Int.mul_ediv_cancel _ (by omega)]
    rw [hhalf] at hbelow habove
    rw [Nat.cast_pow, Nat.cast_ofNat] at hcount
    exact countNear_add (by omega) hbelow habove hcount.symm

end OrderInfo

/-- A count, if it fits in 32 bits. -/
def fitted (value : Int) : Except Fault Int :=
  if -(pow2 31 : Int) ≤ value ∧ value < pow2 31 then .ok value else .error (.orderCountRange value)

/-- A count that is refused is told as well. -/
theorem fitted_injective : Function.Injective fitted := by
  intro value value' h
  unfold fitted at h
  split at h
  · split at h
    · exact Except.ok.inj h
    · cases h
  · split at h
    · cases h
    · exact Fault.orderCountRange.inj (Except.error.inj h)

theorem orderCount_eq_fitted (info : OrderInfo) (maxLsb : Nat) (previous : Option Int) :
    orderCount info.lsb maxLsb info.msbCycle (if info.kind.isIdr then none else previous) =
      fitted (info.value maxLsb previous) := rfl

namespace OrderCounter

theorem next_fst (counter : OrderCounter) (maxLsb : Nat) (info : OrderInfo) :
    (counter.next maxLsb info).1 = fitted (info.value maxLsb counter.previous) := by
  unfold next
  dsimp only
  rw [orderCount_eq_fitted]
  cases fitted (info.value maxLsb counter.previous) <;> rfl

theorem next_snd (counter : OrderCounter) (maxLsb : Nat) (info : OrderInfo) :
    (counter.next maxLsb info).2 =
      match fitted (info.value maxLsb counter.previous) with
      | .ok value => if info.precedesOthers then ⟨some value⟩ else counter
      | .error _ => counter := by
  unfold next
  dsimp only
  rw [orderCount_eq_fitted]
  cases fitted (info.value maxLsb counter.previous) <;> rfl

end OrderCounter

/-! ### Sequences of pictures -/

/-- What a counter that several layers share is told: a picture of a layer has come, or the
sequence has ended. -/
inductive LayerEvent where
  | picture (layer maxLsb : Nat) (info : OrderInfo)
  | reset

namespace LayerEvent

/-- The event is no picture of another layer. -/
def concerns (layer : Nat) : LayerEvent → Bool
  | picture other _ _ => other == layer
  | reset => true

/-- A picture of the layer whose high bits come of the previous picture has a count near that
of the previous one in `joint`, if its count is the one that comes of `own`. -/
def StaysNear (layer : Nat) (own joint : OrderCounter) : LayerEvent → Prop
  | picture other maxLsb info => other = layer → info.IsRelative →
    ∀ previous ∈ joint.previous, IsNear maxLsb previous (info.value maxLsb own.previous)
  | reset => True

instance (layer : Nat) (own joint : OrderCounter) (event : LayerEvent) :
    Decidable (event.StaysNear layer own joint) := by
  cases event <;> unfold StaysNear <;> infer_instance

end LayerEvent

namespace OrderCounter

/-- The counter after an event. -/
def afterEvent (counter : OrderCounter) : LayerEvent → OrderCounter
  | .picture _ maxLsb info => (counter.next maxLsb info).2
  | .reset => counter.reset

/-- The counter after events. -/
def afterEvents (counter : OrderCounter) (events : List LayerEvent) : OrderCounter :=
  events.foldl afterEvent counter

/-- What is found for the pictures of a layer, one after another. -/
def countsOf (layer : Nat) : OrderCounter → List LayerEvent → List (Except Fault Int)
  | _, [] => []
  | counter, .reset :: rest => countsOf layer counter.reset rest
  | counter, .picture other maxLsb info :: rest =>
    let counts := countsOf layer (counter.next maxLsb info).2 rest
    if other = layer then (counter.next maxLsb info).1 :: counts else counts

/-- Whatever the counter for all layers lacks, the counter for one lacks too. -/
def Covers (joint own : OrderCounter) : Prop := joint.previous = none → own.previous = none

variable {own joint : OrderCounter}

theorem Covers.next (h : joint.Covers own) (maxLsb : Nat) (info : OrderInfo) :
    (joint.next maxLsb info).2.Covers own := by
  rw [next_snd]
  split
  · split
    · rintro ⟨⟩
    · exact h
  · exact h

/-- After a picture of which both find the same count, both hold it or neither. -/
theorem Covers.both (h : joint.Covers own) {maxLsb : Nat} {info : OrderInfo}
    (hsame : info.value maxLsb own.previous = info.value maxLsb joint.previous) :
    (joint.next maxLsb info).2.Covers (own.next maxLsb info).2 := by
  rw [next_snd own, next_snd joint, hsame]
  split
  · split
    · rintro ⟨⟩
    · exact h
  · exact h

/-- Both find the same count for a picture if and only if it is near what the counter for all
layers holds. -/
theorem Covers.value_eq_iff (h : joint.Covers own) (layer : Nat) {maxLsb : Nat}
    {info : OrderInfo} (hcoded : info.Coded maxLsb) :
    info.value maxLsb own.previous = info.value maxLsb joint.previous ↔
      (LayerEvent.picture layer maxLsb info).StaysNear layer own joint := by
  by_cases hrelative : info.IsRelative
  · cases hjoint : joint.previous with
    | none =>
      rw [h hjoint]
      refine ⟨fun _ _ _ previous hprevious => ?_, fun _ => rfl⟩
      rw [hjoint] at hprevious
      cases hprevious
    | some previous =>
      rw [eq_comm, OrderInfo.value_some_eq_iff hcoded hrelative
        (OrderInfo.value_emod hcoded hrelative own.previous)]
      constructor
      · intro hnear _ _ previous' hprevious'
        rw [hjoint] at hprevious'
        cases hprevious'
        exact hnear
      · intro hnear
        exact hnear rfl hrelative previous hjoint
  · refine ⟨fun _ _ hyes => absurd hyes hrelative, fun _ => ?_⟩
    exact OrderInfo.value_of_not_isRelative hrelative _ _

theorem forall_events_cons {P : Nat → LayerEvent → Prop} {event : LayerEvent}
    {rest : List LayerEvent} :
    (∀ (i : Nat) e, (event :: rest)[i]? = some e → P i e) ↔
      P 0 event ∧ ∀ (i : Nat) e, rest[i]? = some e → P (i + 1) e := by
  constructor
  · intro h
    exact ⟨h 0 event rfl, fun i e hi => h (i + 1) e hi⟩
  · rintro ⟨hfirst, hrest⟩ i e hi
    cases i with
    | zero =>
      cases hi
      exact hfirst
    | succ i => exact hrest i e hi

/-- The counts of the layer do not depend on the other layers from here on. -/
theorem Covers.countsOf_iff (h : joint.Covers own) (layer : Nat) {events : List LayerEvent}
    (hcoded : ∀ maxLsb info, .picture layer maxLsb info ∈ events → info.Coded maxLsb) :
    countsOf layer own (events.filter (·.concerns layer)) = countsOf layer joint events ↔
      ∀ (i : Nat) event, events[i]? = some event →
        event.StaysNear layer (own.afterEvents ((events.take i).filter (·.concerns layer)))
          (joint.afterEvents (events.take i)) := by
  -- A picture of another layer changes `joint` alone, and a picture of the layer on which the
  -- counters disagree settles both sides, so `Covers` is all that has to be carried on.
  induction events generalizing own joint with
  | nil => simp [countsOf]
  | cons event rest ih =>
    have hcodedRest : ∀ maxLsb info, .picture layer maxLsb info ∈ rest → info.Coded maxLsb :=
      fun maxLsb info hmem => hcoded maxLsb info (List.mem_cons_of_mem event hmem)
    rw [forall_events_cons]
    cases event with
    | reset =>
      have hnext : joint.reset.Covers own.reset := fun _ => rfl
      show countsOf layer own.reset (rest.filter (·.concerns layer)) =
          countsOf layer joint.reset rest ↔ True ∧ ∀ (i : Nat) event, rest[i]? = some event →
        event.StaysNear layer (own.reset.afterEvents ((rest.take i).filter (·.concerns layer)))
          (joint.reset.afterEvents (rest.take i))
      rw [true_and]
      exact ih hnext hcodedRest
    | picture other maxLsb info =>
      by_cases hlayer : other = layer
      · subst hlayer
        have hconcerns : ∀ rest, (LayerEvent.picture other maxLsb info :: rest).filter
            (·.concerns other) = .picture other maxLsb info :: rest.filter (·.concerns other) :=
          fun rest => List.filter_cons_of_pos (beq_self_eq_true other)
        have hcounts : ∀ counter rest, countsOf other counter (.picture other maxLsb info :: rest) =
            (counter.next maxLsb info).1 :: countsOf other (counter.next maxLsb info).2 rest :=
          fun _ _ => if_pos rfl
        have hvalue := h.value_eq_iff other (hcoded maxLsb info List.mem_cons_self)
        simp only [List.take_succ_cons, hconcerns, hcounts]
        rw [List.cons.injEq, next_fst, next_fst, fitted_injective.eq_iff, hvalue]
        refine and_congr_right fun hnear => ?_
        exact ih (h.both (hvalue.mpr hnear)) hcodedRest
      · have hconcerns : ∀ rest, (LayerEvent.picture other maxLsb info :: rest).filter
            (·.concerns layer) = rest.filter (·.concerns layer) :=
          fun rest => List.filter_cons_of_neg (by simpa [LayerEvent.concerns] using hlayer)
        have hfirst : (LayerEvent.picture other maxLsb info).StaysNear layer own joint :=
          fun hyes => absurd hyes hlayer
        have hcounts : countsOf layer joint (.picture other maxLsb info :: rest) =
            countsOf layer (joint.next maxLsb info).2 rest := if_neg hlayer
        simp only [List.take_succ_cons, hconcerns, hcounts]
        refine (ih (h.next maxLsb info) hcodedRest).trans ?_
        exact ⟨fun hrest => ⟨hfirst, hrest⟩, fun hall => hall.2⟩

/-- **Layers disturb each other unless they stay near.**  The counts that are found for the
pictures of a layer are those that are found without the other layers if and only if every
picture whose high bits come of the previous picture is near the previous one of any layer,
its count being the one that is found without the other layers. -/
theorem countsOf_alone_iff (layer : Nat) {events : List LayerEvent}
    (hcoded : ∀ maxLsb info, .picture layer maxLsb info ∈ events → info.Coded maxLsb) :
    countsOf layer {} (events.filter (·.concerns layer)) = countsOf layer {} events ↔
      ∀ (i : Nat) event, events[i]? = some event →
        event.StaysNear layer (afterEvents {} ((events.take i).filter (·.concerns layer)))
          (afterEvents {} (events.take i)) :=
  Covers.countsOf_iff (fun _ => rfl) layer hcoded

/-- The pictures of two layers, in pairs of the same count. -/
def paired : List LayerEvent := [
  .picture 0 16 ⟨.idrNoLeading, 0, 0, none, false⟩,
  .picture 1 16 ⟨.idrNoLeading, 0, 0, none, false⟩,
  .picture 0 16 ⟨.trail, 0, 8, none, false⟩,
  .picture 1 16 ⟨.trail, 0, 8, none, false⟩,
  .picture 0 16 ⟨.trail, 0, 0, none, false⟩,
  .picture 1 16 ⟨.trail, 0, 0, none, false⟩]

theorem countsOf_alone_paired :
    countsOf 1 {} (paired.filter (·.concerns 1)) = countsOf 1 {} paired ∧
      countsOf 1 {} paired = [.ok 0, .ok 8, .ok 16] := by
  have hcoded : ∀ maxLsb info, .picture 1 maxLsb info ∈ paired → info.Coded maxLsb := by
    intro maxLsb info hmem
    simp only [paired, List.mem_cons, LayerEvent.picture.injEq, List.not_mem_nil, or_false] at hmem
    rcases hmem with ⟨⟨⟩, _⟩ | ⟨-, rfl, rfl⟩ | ⟨⟨⟩, _⟩ | ⟨-, rfl, rfl⟩ | ⟨⟨⟩, _⟩ | ⟨-, rfl, rfl⟩ <;>
      exact ⟨by decide, 4, by decide⟩
  refine ⟨(countsOf_alone_iff 1 hcoded).mpr fun i event hi => ?_, by decide⟩
  have hlt : i < 6 := (List.getElem?_eq_some_iff.mp hi).1
  interval_cases i <;> cases hi <;> decide

/-- An IDR picture of another layer with a count more than half a range ahead. -/
def disturbed : List LayerEvent := [
  .picture 0 16 ⟨.idrNoLeading, 0, 0, none, false⟩,
  .picture 1 16 ⟨.idrNoLeading, 0, 9, none, false⟩,
  .picture 0 16 ⟨.trail, 0, 1, none, false⟩]

theorem countsOf_disturbed :
    countsOf 0 {} (disturbed.filter (·.concerns 0)) ≠ countsOf 0 {} disturbed ∧
      countsOf 0 {} (disturbed.filter (·.concerns 0)) = [.ok 0, .ok 1] ∧
      countsOf 0 {} disturbed = [.ok 0, .ok 17] := by
  decide

end OrderCounter

end CodedVideo
