import CodedVideo.Parse
import Mathlib.Tactic

/-!
# What a syntax structure can come to

A `Parse` is data, so what it can come to is told without any bits.
`p.Gives result` says that some answers to the requests of `p` lead to `result`: a
number of `n` bits may be any below `2 ^ n`, a failed read may come wherever bits are
asked for, and the other answers are free.  `gives_run` says that a run gives nothing
else, whatever the bits are.

Facts about all values that a structure accepts are stated with `Ensures`.  What it asks
for besides bits, and whether it may be refused because something has been looked up in
vain or because too much has been read, is stated with `Within`: a structure that is within few features is read by the
bits in front of it alone.  Both are computed from the structure by the rules below:
first those for structures that follow one another, then those for requests, refusals
and descriptors.
-/

namespace CodedVideo

/-- What a structure may do besides reading bits and refusing values. -/
inductive Feature where
  | moreData | align | skipData | position | checkOverrun
  /-- It is refused because of a place that does not exist. -/
  | place
  /-- It is refused because a set does not fit into its store. -/
  | store
  /-- It is refused because more bits have been read than there are. -/
  | overrun
  deriving DecidableEq

/-- The feature of structures that are refused for a fault, if it is one. -/
def Fault.feature? : Fault → Option Feature
  | .unknownSlice _ | .partition _ => some .place
  | .store _ => some .store
  | _ => none

/-- The feature of structures that are refused for an error, if it is one. -/
@[simp] def ParseError.feature? : ParseError → Option Feature
  | .invalid fault => fault.feature?
  | .read (.overrun _ _) => some .overrun
  | _ => none

namespace Parse

variable {α β : Type}

/-- Some answers to the requests lead to `result`. -/
def Gives : Parse α → Except ParseError α → Prop
  | done value, result => result = .ok value
  | fail error, result => result = .error error
  | bits count next, result =>
    (∃ e, result = .error (.read e)) ∨ ∃ value < pow2 count, (next value).Gives result
  | moreData next, result => ∃ answer, (next answer).Gives result
  | align next, result => ∃ zero, (next zero).Gives result
  | skipData next, result => (∃ e, result = .error (.read e)) ∨ next.Gives result
  | position next, result => ∃ n, (next n).Gives result
  | checkOverrun next, result => (∃ e, result = .error (.read e)) ∨ next.Gives result

/-- Every value that the structure accepts satisfies `Q`. -/
def Ensures (p : Parse α) (Q : α → Prop) : Prop := ∀ value, p.Gives (.ok value) → Q value

/-- The structure makes no use of features other than those in `F`. -/
def Within (F : Feature → Prop) : Parse α → Prop
  | done _ => True
  | fail error => ∀ feature ∈ error.feature?, F feature
  | bits count next => ∀ value < pow2 count, (next value).Within F
  | moreData next => F .moreData ∧ ∀ answer, (next answer).Within F
  | align next => F .align ∧ ∀ zero, (next zero).Within F
  | skipData next => F .skipData ∧ next.Within F
  | position next => F .position ∧ ∀ n, (next n).Within F
  | checkOverrun next => F .checkOverrun ∧ next.Within F

/-! ### Runs -/

theorem gather_lt {count acc n : Nat} {r r' : BitReader} {bound : Nat}
    (h : BitReader.gather count acc r = (.ok n, r')) (hacc : acc < bound) :
    n < bound * 256 ^ count := by
  induction count generalizing acc r bound with
  | zero =>
    cases h
    simpa using hacc
  | succ count ih =>
    unfold BitReader.gather at h
    split at h
    · cases h
    · rename_i r₁ _
      have hbyte := r₁.current.toNat_lt
      have hlt : acc * 256 + r₁.current.toNat < bound * 256 := by omega
      rw [Nat.pow_succ', ← Nat.mul_assoc]
      exact ih h hlt

/-- A number of `n` bits is below `2 ^ n`. -/
theorem readBits_lt {n value : Nat} {r r' : BitReader}
    (h : r.readBits n = (.ok value, r')) : value < pow2 n := by
  unfold BitReader.readBits at h
  split at h
  · cases h
  · dsimp only at h
    split at h
    · cases h
    · rename_i all r₁ hgather
      cases h
      have hlow : r.current.toNat % pow2 r.left < 2 ^ r.left :=
        Nat.mod_lt _ (Nat.two_pow_pos r.left)
      have hall := gather_lt hgather hlow
      have hcount : n ≤ r.left + 8 * r.bytesFor n := by
        unfold BitReader.bytesFor
        omega
      show all / 2 ^ (r.left + 8 * r.bytesFor n - n) < 2 ^ n
      rw [Nat.div_lt_iff_lt_mul (Nat.two_pow_pos _), ← Nat.pow_add, Nat.add_sub_cancel' hcount,
        Nat.pow_add, Nat.pow_mul]
      exact hall

/-- **A run gives nothing but what the structure can come to.** -/
theorem gives_run (p : Parse α) (r : BitReader) : p.Gives (p.run r).1 := by
  induction p generalizing r with
  | done value => rfl
  | fail error => rfl
  | bits count next ih =>
    unfold run
    split
    case h_1 value r' h => exact Or.inr ⟨value, readBits_lt h, ih value r'⟩
    case h_2 e r' h => exact Or.inl ⟨e, rfl⟩
  | moreData next ih => exact ⟨_, ih _ _⟩
  | align next ih => exact ⟨_, ih _ _⟩
  | skipData next ih =>
    unfold run
    split
    · exact Or.inr (ih _)
    · exact Or.inl ⟨_, rfl⟩
  | position next ih => exact ⟨_, ih _ _⟩
  | checkOverrun next ih =>
    unfold run
    split
    · exact Or.inr (ih _)
    · exact Or.inl ⟨_, rfl⟩

theorem Ensures.of_run {p : Parse α} {Q : α → Prop} (h : p.Ensures Q) {r : BitReader} {value : α}
    (hrun : (p.run r).1 = .ok value) : Q value :=
  h value (hrun ▸ gives_run p r)

theorem Within.of_gives {p : Parse α} {F : Feature → Prop} (h : p.Within F) {fault : Fault}
    (hgives : p.Gives (.error (.invalid fault))) : ∀ feature ∈ fault.feature?, F feature := by
  induction p with
  | done value => cases hgives
  | fail error =>
    cases hgives
    exact h
  | bits count next ih =>
    rcases hgives with ⟨_, ⟨⟩⟩ | ⟨value, hvalue, hnext⟩
    exact ih value (h value hvalue) hnext
  | moreData next ih | align next ih | position next ih =>
    obtain ⟨answer, hnext⟩ := hgives
    exact ih answer (h.2 answer) hnext
  | skipData next ih | checkOverrun next ih =>
    rcases hgives with ⟨_, ⟨⟩⟩ | hnext
    exact ih h.2 hnext

/-- What a structure is refused for is one of its features. -/
theorem Within.of_run {p : Parse α} {F : Feature → Prop} (h : p.Within F) {r : BitReader}
    {fault : Fault} (hrun : (p.run r).1 = .error (.invalid fault)) :
    ∀ feature ∈ fault.feature?, F feature :=
  h.of_gives (hrun ▸ gives_run p r)

/-! ### Requests -/

@[simp] theorem ensures_done {value : α} {Q : α → Prop} : (done value).Ensures Q ↔ Q value := by
  constructor
  · intro h
    exact h value rfl
  · intro h v hv
    cases hv
    exact h

@[simp] theorem ensures_pure {value : α} {Q : α → Prop} :
    (pure value : Parse α).Ensures Q ↔ Q value := ensures_done

@[simp] theorem ensures_fail {e : ParseError} {Q : α → Prop} : (fail e : Parse α).Ensures Q := by
  intro v h
  cases h

@[simp] theorem ensures_invalid {fault : Fault} {Q : α → Prop} :
    (invalid fault : Parse α).Ensures Q := ensures_fail

@[simp] theorem ensures_bits {count : Nat} {next : Nat → Parse α} {Q : α → Prop} :
    (bits count next).Ensures Q ↔ ∀ value < pow2 count, (next value).Ensures Q := by
  constructor
  · intro h n hn v hv
    exact h v (.inr ⟨n, hn, hv⟩)
  · rintro h v (⟨_, ⟨⟩⟩ | ⟨n, hn, hv⟩)
    exact h n hn v hv

@[simp] theorem ensures_moreData {next : Bool → Parse α} {Q : α → Prop} :
    (moreData next).Ensures Q ↔ ∀ answer, (next answer).Ensures Q := by
  constructor
  · intro h answer v hv
    exact h v ⟨answer, hv⟩
  · rintro h v ⟨answer, hv⟩
    exact h answer v hv

@[simp] theorem ensures_align {next : Bool → Parse α} {Q : α → Prop} :
    (align next).Ensures Q ↔ ∀ zero, (next zero).Ensures Q := by
  constructor
  · intro h zero v hv
    exact h v ⟨zero, hv⟩
  · rintro h v ⟨zero, hv⟩
    exact h zero v hv

@[simp] theorem ensures_position {next : Nat → Parse α} {Q : α → Prop} :
    (position next).Ensures Q ↔ ∀ n, (next n).Ensures Q := by
  constructor
  · intro h n v hv
    exact h v ⟨n, hv⟩
  · rintro h v ⟨n, hv⟩
    exact h n v hv

@[simp] theorem ensures_skipData {next : Parse α} {Q : α → Prop} :
    (skipData next).Ensures Q ↔ next.Ensures Q := by
  constructor
  · intro h v hv
    exact h v (.inr hv)
  · rintro h v (⟨_, ⟨⟩⟩ | hv)
    exact h v hv

@[simp] theorem ensures_checkOverrun {next : Parse α} {Q : α → Prop} :
    (checkOverrun next).Ensures Q ↔ next.Ensures Q := by
  constructor
  · intro h v hv
    exact h v (.inr hv)
  · rintro h v (⟨_, ⟨⟩⟩ | hv)
    exact h v hv

@[simp] theorem within_done {value : α} {F : Feature → Prop} : (done value).Within F := trivial

@[simp] theorem within_pure {value : α} {F : Feature → Prop} :
    (pure value : Parse α).Within F := trivial

@[simp] theorem within_fail {e : ParseError} {F : Feature → Prop} :
    (fail e : Parse α).Within F ↔ ∀ feature ∈ e.feature?, F feature := Iff.rfl

@[simp] theorem within_invalid {fault : Fault} {F : Feature → Prop} :
    (invalid fault : Parse α).Within F ↔ ∀ feature ∈ fault.feature?, F feature := Iff.rfl

@[simp] theorem within_bits {count : Nat} {next : Nat → Parse α} {F : Feature → Prop} :
    (bits count next).Within F ↔ ∀ value < pow2 count, (next value).Within F := Iff.rfl

@[simp] theorem within_moreData {next : Bool → Parse α} {F : Feature → Prop} :
    (moreData next).Within F ↔ F .moreData ∧ ∀ answer, (next answer).Within F := Iff.rfl

@[simp] theorem within_align {next : Bool → Parse α} {F : Feature → Prop} :
    (align next).Within F ↔ F .align ∧ ∀ zero, (next zero).Within F := Iff.rfl

@[simp] theorem within_skipData {next : Parse α} {F : Feature → Prop} :
    (skipData next).Within F ↔ F .skipData ∧ next.Within F := Iff.rfl

@[simp] theorem within_position {next : Nat → Parse α} {F : Feature → Prop} :
    (position next).Within F ↔ F .position ∧ ∀ n, (next n).Within F := Iff.rfl

@[simp] theorem within_checkOverrun {next : Parse α} {F : Feature → Prop} :
    (checkOverrun next).Within F ↔ F .checkOverrun ∧ next.Within F := Iff.rfl

/-! ### One structure after another -/

theorem gives_bind_ok {p : Parse α} {f : α → Parse β} {value : β} :
    (p >>= f).Gives (.ok value) ↔ ∃ a, p.Gives (.ok a) ∧ (f a).Gives (.ok value) := by
  induction p with
  | done a =>
    constructor
    · intro h
      exact ⟨a, rfl, h⟩
    · rintro ⟨_, ⟨⟩, h⟩
      exact h
  | fail e =>
    constructor
    · intro h
      cases h
    · rintro ⟨_, ⟨⟩, _⟩
  | bits count next ih =>
    constructor
    · rintro (⟨_, ⟨⟩⟩ | ⟨n, hn, h⟩)
      obtain ⟨a, ha, hf⟩ := (ih n).mp h
      exact ⟨a, .inr ⟨n, hn, ha⟩, hf⟩
    · rintro ⟨a, ⟨_, ⟨⟩⟩ | ⟨n, hn, ha⟩, hf⟩
      exact .inr ⟨n, hn, (ih n).mpr ⟨a, ha, hf⟩⟩
  | moreData next ih | align next ih | position next ih =>
    constructor
    · rintro ⟨x, h⟩
      obtain ⟨a, ha, hf⟩ := (ih x).mp h
      exact ⟨a, ⟨x, ha⟩, hf⟩
    · rintro ⟨a, ⟨x, ha⟩, hf⟩
      exact ⟨x, (ih x).mpr ⟨a, ha, hf⟩⟩
  | skipData next ih | checkOverrun next ih =>
    constructor
    · rintro (⟨_, ⟨⟩⟩ | h)
      obtain ⟨a, ha, hf⟩ := ih.mp h
      exact ⟨a, .inr ha, hf⟩
    · rintro ⟨a, ⟨_, ⟨⟩⟩ | ha, hf⟩
      exact .inr (ih.mpr ⟨a, ha, hf⟩)

@[simp] theorem ensures_bind {p : Parse α} {f : α → Parse β} {Q : β → Prop} :
    (p >>= f).Ensures Q ↔ p.Ensures fun a => (f a).Ensures Q := by
  constructor
  · intro h a ha b hb
    exact h b (gives_bind_ok.mpr ⟨a, ha, hb⟩)
  · intro h b hb
    obtain ⟨a, ha, hb⟩ := gives_bind_ok.mp hb
    exact h a ha b hb

@[simp] theorem within_bind {p : Parse α} {f : α → Parse β} {F : Feature → Prop} :
    (p >>= f).Within F ↔ p.Within F ∧ p.Ensures fun a => (f a).Within F := by
  induction p with
  | done a => exact ⟨fun h => ⟨trivial, ensures_done.mpr h⟩, fun h => h.2 a rfl⟩
  | fail e => exact ⟨fun h => ⟨h, ensures_fail⟩, fun h => h.1⟩
  | bits count next ih =>
    rw [ensures_bits]
    constructor
    · intro h
      exact ⟨fun n hn => ((ih n).mp (h n hn)).1, fun n hn => ((ih n).mp (h n hn)).2⟩
    · rintro ⟨hnext, hf⟩ n hn
      exact (ih n).mpr ⟨hnext n hn, hf n hn⟩
  | moreData next ih | align next ih | position next ih =>
    first | rw [ensures_moreData] | rw [ensures_align] | rw [ensures_position]
    constructor
    · rintro ⟨hfeature, h⟩
      exact ⟨⟨hfeature, fun x => ((ih x).mp (h x)).1⟩, fun x => ((ih x).mp (h x)).2⟩
    · rintro ⟨⟨hfeature, hnext⟩, hf⟩
      exact ⟨hfeature, fun x => (ih x).mpr ⟨hnext x, hf x⟩⟩
  | skipData next ih | checkOverrun next ih =>
    first | rw [ensures_skipData] | rw [ensures_checkOverrun]
    constructor
    · rintro ⟨hfeature, h⟩
      exact ⟨⟨hfeature, (ih.mp h).1⟩, (ih.mp h).2⟩
    · rintro ⟨⟨hfeature, hnext⟩, hf⟩
      exact ⟨hfeature, ih.mpr ⟨hnext, hf⟩⟩

@[simp] theorem ensures_map {p : Parse α} {f : α → β} {Q : β → Prop} :
    (f <$> p).Ensures Q ↔ p.Ensures fun a => Q (f a) := by
  show (p >>= fun a => done (f a)).Ensures Q ↔ _
  simp only [ensures_bind, ensures_done]

@[simp] theorem within_map {p : Parse α} {f : α → β} {F : Feature → Prop} :
    (f <$> p).Within F ↔ p.Within F := by
  show (p >>= fun a => done (f a)).Within F ↔ _
  rw [within_bind]
  exact and_iff_left fun _ _ => within_done

/-- What holds of all that comes first is at hand for what comes then. -/
theorem Ensures.bind {p : Parse α} {f : α → Parse β} {P : α → Prop} {Q : β → Prop}
    (hp : p.Ensures P) (hf : ∀ a, P a → (f a).Ensures Q) : (p >>= f).Ensures Q :=
  ensures_bind.mpr fun a ha => hf a (hp a ha)

theorem Within.bind {p : Parse α} {f : α → Parse β} {F : Feature → Prop} (hp : p.Within F)
    (hf : ∀ a, (f a).Within F) : (p >>= f).Within F :=
  within_bind.mpr ⟨hp, fun a _ => hf a⟩

/-- What comes first does not matter. -/
theorem Ensures.andThen {p : Parse α} {f : α → Parse β} {Q : β → Prop}
    (hf : ∀ a, (f a).Ensures Q) : (p >>= f).Ensures Q :=
  ensures_bind.mpr fun a _ => hf a

theorem Ensures.mono {p : Parse α} {P Q : α → Prop} (h : p.Ensures P) (hPQ : ∀ a, P a → Q a) :
    p.Ensures Q :=
  fun a ha => hPQ a (h a ha)

theorem Within.mono {p : Parse α} {F G : Feature → Prop} (h : p.Within F)
    (hFG : ∀ feature, F feature → G feature) : p.Within G := by
  induction p with
  | done value => trivial
  | fail error => exact fun feature hfeature => hFG feature (h feature hfeature)
  | bits count next ih => exact fun value hvalue => ih value (h value hvalue)
  | moreData next ih | align next ih | position next ih =>
    exact ⟨hFG _ h.1, fun answer => ih answer (h.2 answer)⟩
  | skipData next ih | checkOverrun next ih => exact ⟨hFG _ h.1, ih h.2⟩

theorem ensures_of_forall {p : Parse α} {Q : α → Prop} (h : ∀ a, Q a) : p.Ensures Q :=
  fun a _ => h a

@[simp] theorem ensures_true {p : Parse α} : (p.Ensures fun _ => True) ↔ True :=
  iff_true_intro (ensures_of_forall fun _ => trivial)

/-! ### Refusals and choices -/

@[simp] theorem ensures_refuseIf {broken : Bool} {fault : Fault} {Q : Unit → Prop} :
    (refuseIf broken fault).Ensures Q ↔ (broken = false → Q ()) := by
  cases broken <;> simp [refuseIf]

@[simp] theorem within_refuseIf {broken : Bool} {fault : Fault} {F : Feature → Prop} :
    (refuseIf broken fault).Within F ↔
      (broken = true → ∀ feature ∈ fault.feature?, F feature) := by
  cases broken <;> simp [refuseIf]

@[simp] theorem ensures_ofFault {result : Except Fault α} {Q : α → Prop} :
    (ofFault result).Ensures Q ↔ ∀ value, result = .ok value → Q value := by
  cases result <;> simp [ofFault]

@[simp] theorem ofFault_ok {value : α} : ofFault (.ok value) = done value := rfl

theorem within_ofFault {result : Except Fault α} {F : Feature → Prop} :
    (ofFault result).Within F ↔
      ∀ fault, result = .error fault → ∀ feature ∈ fault.feature?, F feature := by
  cases result <;> simp [ofFault]

@[simp] theorem within_ofFault_elim {found : Option α} {fault : Fault} {F : Feature → Prop} :
    (ofFault (found.elim (.error fault) .ok)).Within F ↔
      (found = none → ∀ feature ∈ fault.feature?, F feature) := by
  cases found <;> simp [ofFault]

@[simp] theorem ensures_ofPartition {result : Except PartitionError α} {Q : α → Prop} :
    (ofPartition result).Ensures Q ↔ ∀ value, result = .ok value → Q value := by
  cases result <;> simp [ofPartition, Except.mapError]

theorem within_ofPartition {result : Except PartitionError α} {F : Feature → Prop}
    (hplace : F .place) : (ofPartition result).Within F := by
  cases result <;> simp [ofPartition, Except.mapError, ofFault, Fault.feature?, hplace]

@[simp] theorem ensures_ofReference {reference : Reference} {id : Nat} {found : Option α}
    {Q : α → Prop} :
    (ofReference reference id found).Ensures Q ↔ ∀ value, found = some value → Q value := by
  cases found <;> simp [ofReference]

@[simp] theorem within_ofReference {reference : Reference} {id : Nat} {found : Option α}
    {F : Feature → Prop} : (ofReference reference id found).Within F := by
  cases found <;> simp [ofReference]

@[simp] theorem ensures_given [Inhabited α] {present : Bool} {p : Parse α} {Q : α → Prop} :
    (given present p).Ensures Q ↔
      (present = true → p.Ensures Q) ∧ (present = false → Q default) := by
  cases present <;> simp [given]

@[simp] theorem within_given [Inhabited α] {present : Bool} {p : Parse α} {F : Feature → Prop} :
    (given present p).Within F ↔ (present = true → p.Within F) := by
  cases present <;> simp [given]

@[simp] theorem ensures_ite {c : Prop} [Decidable c] {p q : Parse α} {Q : α → Prop} :
    (if c then p else q).Ensures Q ↔ (c → p.Ensures Q) ∧ (¬ c → q.Ensures Q) := by
  split <;> simp [*]

@[simp] theorem within_ite {c : Prop} [Decidable c] {p q : Parse α} {F : Feature → Prop} :
    (if c then p else q).Within F ↔ (c → p.Within F) ∧ (¬ c → q.Within F) := by
  split <;> simp [*]

/-- What is ensured of a structure holds of it if it is present. -/
theorem Ensures.optional {present : Bool} {p : Parse α} {P : α → Prop} (hp : p.Ensures P)
    {f : Option α → Parse β} {Q : β → Prop}
    (hf : ∀ found, (∀ a, found = some a → P a) → (f found).Ensures Q) :
    (if present then some <$> p >>= f else pure none >>= f).Ensures Q := by
  split
  · refine .bind (ensures_map.mpr (hp.mono fun a ha => ?_)) hf
    rintro _ ⟨⟩
    exact ha
  · exact hf none nofun

/-! ### Descriptors -/

@[simp] theorem ensures_u {n : Nat} {Q : Nat → Prop} :
    (u n).Ensures Q ↔ ∀ value < pow2 n, Q value := by
  simp [u]

@[simp] theorem within_u {n : Nat} {F : Feature → Prop} : (u n).Within F := by
  simp [u]

@[simp] theorem ensures_inRange {lo hi value : Int} {Q : Unit → Prop} :
    (inRange lo hi value).Ensures Q ↔ (lo ≤ value ∧ value ≤ hi → Q ()) := by
  simp [inRange]

@[simp] theorem within_inRange {lo hi value : Int} {F : Feature → Prop} :
    (inRange lo hi value).Within F := by
  simp [inRange]

@[simp] theorem ensures_uMax {n hi : Nat} {Q : Nat → Prop} :
    (uMax n hi).Ensures Q ↔ ∀ value < pow2 n, value ≤ hi → Q value := by
  simp [uMax]

@[simp] theorem within_uMax {n hi : Nat} {F : Feature → Prop} : (uMax n hi).Within F := by
  simp [uMax]

@[simp] theorem within_flag {F : Feature → Prop} : flag.Within F := by
  simp [flag]

@[simp] theorem within_flagIf {present : Bool} {F : Feature → Prop} :
    (flagIf present).Within F := by
  simp [flagIf]

@[simp] theorem within_leadingZeros {zeros limit : Nat} {F : Feature → Prop} :
    (leadingZeros zeros limit).Within F := by
  induction limit generalizing zeros with
  | zero => simp [leadingZeros]
  | succ limit ih => simp [leadingZeros, ih]

@[simp] theorem within_ue {F : Feature → Prop} : ue.Within F := by
  simp [ue]

/-- A range check on a codeword is one on the value that comes of it. -/
theorem Ensures.ueBetween {lo hi : Nat} {Q : Nat → Prop}
    (h : ∀ value, lo ≤ value → value ≤ hi → Q value) : (ueBetween lo hi).Ensures Q := by
  simp only [Parse.ueBetween, ensures_bind, ensures_inRange, ensures_pure]
  exact ensures_of_forall fun value hr => h value (by omega) (by omega)

theorem Ensures.ueMax {hi : Nat} {Q : Nat → Prop} (h : ∀ value ≤ hi, Q value) :
    (ueMax hi).Ensures Q :=
  .ueBetween fun value _ => h value

theorem Ensures.seBetween {lo hi : Int} {Q : Int → Prop}
    (h : ∀ value, lo ≤ value → value ≤ hi → Q value) : (seBetween lo hi).Ensures Q := by
  simp only [Parse.seBetween, ensures_bind, ensures_inRange, ensures_pure]
  exact ensures_of_forall fun value hr => h value hr.1 hr.2

@[simp] theorem within_ueBetween {lo hi : Nat} {F : Feature → Prop} :
    (ueBetween lo hi).Within F := by
  simp [ueBetween]

@[simp] theorem within_ueMax {hi : Nat} {F : Feature → Prop} : (ueMax hi).Within F := by
  simp [ueMax]

@[simp] theorem within_se {F : Feature → Prop} : se.Within F := by
  simp [se]

@[simp] theorem within_seBetween {lo hi : Int} {F : Feature → Prop} :
    (seBetween lo hi).Within F := by
  simp [seBetween]

@[simp] theorem within_fit {lo hi value : Int} {F : Feature → Prop} :
    (fit lo hi value).Within F := by
  simp [fit]

/-! ### Several structures -/

theorem ensures_collectOnto {p : Nat → Parse α} : ∀ {count start : Nat} {read : List α},
    (collectOnto p read start count).Ensures (·.length = read.length + count) := by
  intro count
  induction count with
  | zero =>
    intro start read
    exact ensures_done.mpr List.length_reverse
  | succ count ih =>
    intro start read
    refine .andThen fun a => ih.mono fun values hvalues => ?_
    rw [hvalues, List.length_cons]
    omega

/-- As many structures are read as are asked for. -/
theorem ensures_collectFrom {p : Nat → Parse α} {start count : Nat} :
    (collectFrom p start count).Ensures (·.length = count) :=
  ensures_collectOnto.mono fun _ hvalues => hvalues.trans (Nat.zero_add count)

theorem within_collectOnto {p : Nat → Parse α} {F : Feature → Prop}
    (hp : ∀ index, (p index).Within F) {count start : Nat} {read : List α} :
    (collectOnto p read start count).Within F := by
  induction count generalizing start read with
  | zero => exact within_done
  | succ count ih => exact (hp start).bind fun _ => ih

theorem within_collectFrom {p : Nat → Parse α} {F : Feature → Prop}
    (hp : ∀ index, (p index).Within F) {start count : Nat} :
    (collectFrom p start count).Within F :=
  within_collectOnto hp

@[simp] theorem within_collect {count : Nat} {p : Nat → Parse α} {F : Feature → Prop}
    (hp : ∀ index, (p index).Within F) : (collect count p).Within F :=
  within_collectOnto hp

@[simp] theorem within_skip {n : Nat} {F : Feature → Prop} : (skip n).Within F := by
  simp [skip]

/-! ### The ends of structures -/

@[simp] theorem within_trailingBits {F : Feature → Prop} (halign : F .align) :
    trailingBits.Within F := by
  simp [trailingBits, halign]

@[simp] theorem within_extension {F : Feature → Prop} (hskip : F .skipData) :
    extension.Within F := by
  simp [extension, hskip]

@[simp] theorem within_finish {F : Feature → Prop} (halign : F .align)
    (hoverrun : F .checkOverrun) : finish.Within F := by
  simp [finish, halign, hoverrun]

@[simp] theorem within_withExtension {elements : Parse α} {note : α → Bool → α}
    {F : Feature → Prop} (helements : elements.Within F) (halign : F .align) (hskip : F .skipData)
    (hoverrun : F .checkOverrun) : (withExtension elements note).Within F := by
  simp [withExtension, helements, halign, hskip, hoverrun]

/-- What is ensured of the elements of a set holds of the set if the note of its flag does not
matter. -/
theorem Ensures.withExtension {elements : Parse α} {note : α → Bool → α} {Q : α → Prop}
    (helements : elements.Ensures Q) (hnote : ∀ a announced, Q a → Q (note a announced)) :
    (withExtension elements note).Ensures Q :=
  helements.bind fun a ha => .andThen fun announced => .andThen fun _ =>
    ensures_pure.mpr (hnote a announced ha)

end Parse

end CodedVideo
