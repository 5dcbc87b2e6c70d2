import CodedVideo.Proofs.Outcome
import CodedVideo.Proofs.Reads

/-!
# What a reader has passed over

A reader fetches bytes only when it needs their bits.  So a structure that is accepted
has been read off the bytes that the reader has passed over, and nothing is known then of
the bytes to come: they may be replaced by any others (`Parse.Local`).

There are two exceptions among the requests.  Whether more data comes, and skipping it,
depends on the bytes ahead.  The check against the size of the payload does not, for the
bits read are always those of bytes that are there (`BitReader.Balanced`).
-/

namespace CodedVideo

namespace BitReader

/-- The reader with other bytes to come, in a payload of another size. -/
def graft (r : BitReader) (bytes : List UInt8) (size : Nat) : BitReader := { r with bytes, size }

/-- What is left of bytes to come when emulation prevention bytes are dropped. -/
def kept (r : BitReader) (bytes : List UInt8) : List UInt8 := payload r.escaped r.zeroRun bytes

/-- The reader `r₁` is `r` after the bytes `passed`. -/
structure Passes (r r₁ : BitReader) (passed : List UInt8) : Prop where
  bytes : r.bytes = passed ++ r₁.bytes
  escaped : r₁.escaped = r.escaped
  size : r₁.size = r.size
  kept_append : ∀ tail, r.kept (passed ++ tail) = r.kept passed ++ r₁.kept tail
  removed : r₁.removed + (r.kept passed).length = r.removed + passed.length

namespace Passes

variable {r r₁ r₂ : BitReader} {passed passed' : List UInt8}

theorem of_eq (hbytes : r₁.bytes = r.bytes) (hescaped : r₁.escaped = r.escaped)
    (hsize : r₁.size = r.size) (hzeros : r₁.zeroRun = r.zeroRun)
    (hremoved : r₁.removed = r.removed) : Passes r r₁ [] where
  bytes := hbytes.symm
  escaped := hescaped
  size := hsize
  kept_append := fun tail => by
    rw [kept, kept, kept, hzeros, hescaped]
    rfl
  removed := by
    rw [hremoved]
    rfl

theorem refl (r : BitReader) : Passes r r [] := of_eq rfl rfl rfl rfl rfl

theorem trans (h : Passes r r₁ passed) (h' : Passes r₁ r₂ passed') :
    Passes r r₂ (passed ++ passed') where
  bytes := by rw [h.bytes, h'.bytes, List.append_assoc]
  escaped := h'.escaped.trans h.escaped
  size := h'.size.trans h.size
  kept_append := fun tail => by
    rw [List.append_assoc, h.kept_append, h'.kept_append, h.kept_append, List.append_assoc]
  removed := by
    have hr := h.removed
    have hr' := h'.removed
    rw [h.kept_append, List.length_append, List.length_append]
    omega

end Passes

/-! ### Fetching bytes -/

/-- The reader `r₁` has fetched as many bytes as `r` is asked for, and would have with any
others to come. -/
structure Fetches (r r₁ : BitReader) (count : Nat) (passed : List UInt8) : Prop
    extends Passes r r₁ passed where
  fetched : (r.kept passed).length = count
  left : r₁.left = if count = 0 then r.left else 8
  position : r₁.position = r.position

theorem kept_cons_dropped {r : BitReader} {byte : UInt8}
    (hdrop : r.escaped ∧ 2 ≤ r.zeroRun ∧ byte = 3) (next : UInt8) (tail : List UInt8) :
    r.kept (byte :: next :: tail) = next :: (r.load 0 next tail).kept tail := by
  rw [kept, payload_cons_dropped hdrop, payload_cons_kept (by omega)]
  rfl

theorem kept_cons_loaded {r : BitReader} {byte : UInt8}
    (hkeep : ¬ (r.escaped ∧ 2 ≤ r.zeroRun ∧ byte = 3)) (tail : List UInt8) :
    r.kept (byte :: tail) = byte :: (r.load r.zeroRun byte tail).kept tail := by
  rw [kept, payload_cons_kept hkeep]
  rfl

theorem fetch_passes {r r₁ : BitReader} (h : r.fetch = (.ok (), r₁)) :
    ∃ passed, Fetches r r₁ 1 passed ∧
      ∀ tail size, (r.graft (passed ++ tail) size).fetch = (.ok (), r₁.graft tail size) := by
  unfold fetch at h
  split at h
  · cases h
  · rename_i byte rest hbytes
    by_cases hdrop : r.escaped ∧ 2 ≤ r.zeroRun ∧ byte = 3
    · rw [if_pos hdrop] at h
      cases rest with
      | nil => cases h
      | cons next rest =>
        cases h
        have hkept : ∀ tail, r.kept ([byte, next] ++ tail) =
            next :: (r.load 0 next tail).kept tail := kept_cons_dropped hdrop next
        refine ⟨[byte, next], ⟨⟨hbytes, rfl, rfl, fun tail => ?_, ?_⟩, ?_, rfl, rfl⟩, ?_⟩
        · rw [hkept, ← List.append_nil [byte, next], hkept]
          rfl
        · rw [← List.append_nil [byte, next], hkept]
          rfl
        · rw [← List.append_nil [byte, next], hkept]
          rfl
        · intro tail size
          exact if_pos hdrop
    · rw [if_neg hdrop] at h
      cases h
      have hkept : ∀ tail, r.kept ([byte] ++ tail) =
          byte :: (r.load r.zeroRun byte tail).kept tail := kept_cons_loaded hdrop
      refine ⟨[byte], ⟨⟨hbytes, rfl, rfl, fun tail => ?_, ?_⟩, ?_, rfl, rfl⟩, ?_⟩
      · rw [hkept, ← List.append_nil [byte], hkept]
        rfl
      · rw [← List.append_nil [byte], hkept]
        rfl
      · rw [← List.append_nil [byte], hkept]
        rfl
      · intro tail size
        exact if_neg hdrop

theorem gather_passes {count acc n : Nat} {r r₁ : BitReader}
    (h : gather count acc r = (.ok n, r₁)) :
    ∃ passed, Fetches r r₁ count passed ∧
      ∀ tail size, gather count acc (r.graft (passed ++ tail) size) =
        (.ok n, r₁.graft tail size) := by
  induction count generalizing acc r with
  | zero =>
    cases h
    exact ⟨[], ⟨.refl _, rfl, rfl, rfl⟩, fun _ _ => rfl⟩
  | succ count ih =>
    unfold gather at h
    split at h
    · cases h
    · rename_i r' hfetch
      obtain ⟨front, hfront, hfrontGraft⟩ := fetch_passes hfetch
      obtain ⟨back, hback, hbackGraft⟩ := ih h
      have hpasses := hfront.toPasses.trans hback.toPasses
      refine ⟨front ++ back, ⟨hpasses, ?_, ?_, ?_⟩, fun tail size => ?_⟩
      · rw [hfront.kept_append, List.length_append, hfront.fetched, hback.fetched, Nat.add_comm]
      · rw [hback.left, hfront.left]
        simp
      · rw [hback.position, hfront.position]
      · rw [List.append_assoc, gather, hfrontGraft]
        exact hbackGraft tail size

/-! ### Balanced readers -/

/-- The bits that have been read, those of the current byte, and those of bytes that have
been dropped or are to come add up to the payload; no whole byte waits to be read. -/
structure Balanced (r : BitReader) : Prop where
  left : r.left < 8
  total : r.position + r.left + 8 * (r.bytes.length + r.removed) = 8 * r.size

theorem balanced_ofBytes (escaped : Bool) (bytes : List UInt8) :
    (ofBytes escaped bytes).Balanced where
  left := Nat.zero_lt_succ 7
  total := by simp [ofBytes]

theorem readBits_passes {n value : Nat} {r r₁ : BitReader} (hr : r.Balanced)
    (h : r.readBits n = (.ok value, r₁)) :
    r₁.Balanced ∧ ∃ passed, Passes r r₁ passed ∧
      ∀ tail size, (r.graft (passed ++ tail) size).readBits n =
        (.ok value, r₁.graft tail size) := by
  unfold readBits at h
  split at h
  · cases h
  · rename_i h32
    dsimp only at h
    split at h
    · cases h
    · rename_i all r' hgather
      cases h
      obtain ⟨passed, hpassed, hgraft⟩ := gather_passes hgather
      have hcount : n ≤ r.left + 8 * r.bytesFor n ∧ r.left + 8 * r.bytesFor n < n + 8 := by
        have hleft := hr.left
        unfold bytesFor
        omega
      refine ⟨⟨?_, ?_⟩, passed, ?_, fun tail size => ?_⟩
      · show r.left + 8 * r.bytesFor n - n < 8
        omega
      · have htotal := hr.total
        have hbytes := congrArg List.length hpassed.bytes
        have hremoved := hpassed.removed
        have hfetched := hpassed.fetched
        have hposition := hpassed.position
        have hsize := hpassed.size
        rw [List.length_append] at hbytes
        show r'.position + n + (r.left + 8 * r.bytesFor n - n) +
          8 * (r'.bytes.length + r'.removed) = 8 * r'.size
        omega
      · exact ⟨hpassed.bytes, hpassed.escaped, hpassed.size, hpassed.kept_append, hpassed.removed⟩
      · have hgather : gather ((r.graft (passed ++ tail) size).bytesFor n)
            ((r.graft (passed ++ tail) size).current.toNat %
              pow2 (r.graft (passed ++ tail) size).left) (r.graft (passed ++ tail) size) =
            (.ok all, r'.graft tail size) := hgraft tail size
        rw [readBits, if_neg h32]
        dsimp only
        rw [hgather]
        rfl

theorem align_passes {r : BitReader} (hr : r.Balanced) :
    r.align.2.Balanced ∧ r.align.2.left = 0 ∧ Passes r r.align.2 [] := by
  have hleft := hr.left
  have htotal := hr.total
  refine ⟨⟨?_, ?_⟩, ?_, .of_eq rfl rfl rfl rfl rfl⟩
  · show r.left - r.left % 8 < 8
    omega
  · show r.position + r.left % 8 + (r.left - r.left % 8) + 8 * (r.bytes.length + r.removed) =
      8 * r.size
    omega
  · show r.left - r.left % 8 = 0
    omega

/-- The check against the size of the payload never fails, also not in a payload that ends
with the bytes that have been fetched. -/
theorem Balanced.checkOverrun {r : BitReader} (hr : r.Balanced) (tail : List UInt8) {size : Nat}
    (hsize : r.size ≤ size + r.bytes.length) :
    (r.graft tail size).checkOverrun = .ok () := by
  have htotal := hr.total
  have hposition : ¬ r.position > (size - r.removed) * 8 := by omega
  exact if_neg hposition

theorem graft_self (r : BitReader) : r.graft r.bytes r.size = r := rfl

end BitReader

/-! ### Structures -/

namespace Parse

variable {α β : Type}

open BitReader (Passes)

/-- What is accepted has been read off the bytes passed over, and would have been in any
payload that has these. -/
def Local (p : Parse α) : Prop :=
  ∀ ⦃r r₁ : BitReader⦄ ⦃value : α⦄, r.Balanced → p.run r = (.ok value, r₁) →
    r₁.Balanced ∧ ∃ passed, Passes r r₁ passed ∧
      ∀ tail size, r.size + passed.length ≤ size + r.bytes.length →
        p.run (r.graft (passed ++ tail) size) = (.ok value, r₁.graft tail size)

theorem local_of_within {p : Parse α}
    (h : p.Within fun feature => feature ≠ .moreData ∧ feature ≠ .skipData) : p.Local := by
  induction p with
  | done value =>
    intro r r₁ _ hr hrun
    cases hrun
    exact ⟨hr, [], .refl r, fun _ _ _ => rfl⟩
  | fail error =>
    intro r r₁ _ hr hrun
    cases hrun
  | bits count next ih =>
    intro r r₂ value hr hrun
    rw [run] at hrun
    split at hrun
    · rename_i n r₁ hread
      obtain ⟨hr₁, front, hfront, hfrontGraft⟩ := BitReader.readBits_passes hr hread
      obtain ⟨hr₂, back, hback, hbackGraft⟩ := ih n (h n (readBits_lt hread)) hr₁ hrun
      refine ⟨hr₂, front ++ back, hfront.trans hback, fun tail size hsize => ?_⟩
      have hbytes := congrArg List.length hfront.bytes
      rw [List.length_append] at hbytes hsize
      rw [List.append_assoc, run, hfrontGraft]
      refine hbackGraft tail size ?_
      rw [hfront.size]
      omega
    · cases hrun
  | moreData next ih => exact absurd rfl h.1.1
  | align next ih =>
    intro r r₂ value hr hrun
    obtain ⟨hr₁, _, hfront⟩ := BitReader.align_passes hr
    obtain ⟨hr₂, back, hback, hbackGraft⟩ := ih _ (h.2 _) hr₁ hrun
    exact ⟨hr₂, back, hfront.trans hback, hbackGraft⟩
  | skipData next ih => exact absurd rfl h.1.2
  | position next ih =>
    intro r r₂ value hr hrun
    exact ih _ (h.2 _) hr hrun
  | checkOverrun next ih =>
    intro r r₂ value hr hrun
    rw [run, ← r.graft_self, hr.checkOverrun r.bytes (Nat.le_add_right _ _)] at hrun
    obtain ⟨hr₂, back, hback, hbackGraft⟩ := ih h.2 hr hrun
    refine ⟨hr₂, back, hback, fun tail size hsize => ?_⟩
    rw [run, hr.checkOverrun (back ++ tail) (by omega)]
    exact hbackGraft tail size hsize

/-- The structure asks for nothing. -/
def Quiet : Parse α → Prop
  | done _ | fail _ => True
  | _ => False

/-- Such a structure comes to the same with any reader and leaves it alone. -/
theorem Quiet.run_eq {p : Parse α} (h : p.Quiet) : ∃ result, ∀ r, p.run r = (result, r) := by
  cases p with
  | done value => exact ⟨.ok value, fun _ => rfl⟩
  | fail error => exact ⟨.error error, fun _ => rfl⟩
  | _ => exact h.elim

@[simp] theorem quiet_pure (value : α) : (pure value : Parse α).Quiet := trivial

@[simp] theorem quiet_bind {p : Parse α} {f : α → Parse β} :
    (p >>= f).Quiet ↔ p.Quiet ∧ p.Ensures fun a => (f a).Quiet := by
  cases p with
  | done a => exact ⟨fun h => ⟨trivial, ensures_done.mpr h⟩, fun h => h.2 a rfl⟩
  | fail error => exact ⟨fun _ => ⟨trivial, ensures_fail⟩, fun _ => trivial⟩
  | _ => exact ⟨fun h => h.elim, fun h => h.1.elim⟩

@[simp] theorem quiet_refuseIf (broken : Bool) (fault : Fault) :
    (refuseIf broken fault).Quiet := by
  cases broken <;> trivial

@[simp] theorem quiet_ofReference (reference : Reference) (id : Nat) (found : Option α) :
    (ofReference reference id found).Quiet := by
  cases found <;> trivial

@[simp] theorem quiet_ite {c : Prop} [Decidable c] {p q : Parse α} :
    (if c then p else q).Quiet ↔ (c → p.Quiet) ∧ (¬ c → q.Quiet) := by
  split <;> simp [*]

theorem run_finish (r : BitReader) : finish.run r = match flag.run r with
    | (.ok true, r₁) =>
      match r₁.align.2.checkOverrun with
      | .ok _ => (.ok (), r₁.align.2)
      | .error e => (.error (.read e), r₁.align.2)
    | (.ok false, r₁) => (.error (.read (.outOfRange 0 1 1)), r₁)
    | (.error e, r₁) => (.error e, r₁) := by
  simp only [finish, trailingBits, run_bind]
  rcases flag.run r with ⟨e | stop, r₁⟩
  · rfl
  · cases stop <;> rfl

/-- The end of a payload is a stop bit, after which the reader goes to the next byte. -/
theorem run_finish_eq_ok {r r₂ : BitReader} (hr : r.Balanced) :
    finish.run r = (.ok (), r₂) ↔ ∃ r₁, flag.run r = (.ok true, r₁) ∧ r₁.align.2 = r₂ := by
  rw [run_finish]
  cases hflag : flag.run r with
  | mk result r₁ =>
    cases result with
    | error e => simp
    | ok stop =>
      have hr₁ := (local_of_within within_flag hr hflag).1
      have haligned := (BitReader.align_passes hr₁).1
      have hcheck : r₁.align.2.checkOverrun = .ok () :=
        haligned.checkOverrun r₁.align.2.bytes (Nat.le_add_right _ _)
      cases stop with
      | false => simp
      | true =>
        simp only [hcheck]
        simp

end Parse

end CodedVideo
