import CodedVideo.Proofs.Marking
import Mathlib.Tactic

/-!
# Runs of a picture buffer

A run does operations on a buffer one after another, in any order.  Each picture is stored
once: what is stored in a run is new and gets a number that no picture had before.

* That a picture is in use is recorded by its marking, by a flag and by the number of
  references taken.  `Picture.Balanced` says that these agree.  A new picture is balanced
  once it is stored, and no operation brings a balanced one out of balance, although an
  update changes markings in three rounds.  Hence `run_accounts`.
* The marking of a picture may fall (`Marking.Falls`), from short-term to long-term and from
  either to unused, but it never rises.  `Follows` relates a buffer to a later one of the same
  run: what has an old number has been there, and its marking has fallen since.  Lists name
  references only, so what has been retired is never listed again.  Hence `run_falls`.
-/

namespace CodedVideo

/-! ### The account of a picture -/

namespace Picture

/-- A picture that nothing refers to yet. -/
structure Fresh (p : Picture) : Prop where
  marking : p.marking = .unused
  referenced : p.referenced = false
  references : p.references = 0

/-- The flag and the references taken are those of a picture with its marking. -/
structure Balanced (p : Picture) : Prop where
  referenced : p.referenced = p.isReference
  references : p.references = p.isReference.toNat

/-- Notes whether the picture has been displayed and output. -/
def setShown (p : Picture) (displayed outputDone : Bool) : Picture :=
  { p with displayed, outputDone }

variable {p : Picture}

theorem isReference_iff : p.isReference = true ↔ p.marking ≠ .unused := bne_iff_ne

theorem referenced_mark (p : Picture) (m : Marking) : (p.mark m).referenced = p.referenced := by
  obtain ⟨k, hk⟩ := p.mark_eq m
  rw [hk]

theorem references_mark (h : p.references = p.isReference.toNat) (m : Marking) :
    (p.mark m).references = (p.mark m).isReference.toNat := by
  unfold mark
  simp only
  split
  case h_1 hbefore hafter =>
    show p.references + 1 = (p.setMarking m).isReference.toNat
    rw [h, hbefore, hafter]
    rfl
  case h_2 hbefore hafter =>
    show p.references - 1 = (p.setMarking m).isReference.toNat
    rw [h, hbefore, hafter]
    rfl
  case h_3 htake hrelease =>
    have hsame : p.isReference = (p.setMarking m).isReference := by
      cases hbefore : p.isReference <;> cases hafter : (p.setMarking m).isReference
      · rfl
      · exact absurd hafter (htake hbefore)
      · exact absurd hafter (hrelease hbefore)
      · rfl
    rw [← hsame]
    exact h

theorem Fresh.balanced_asDecoded (h : p.Fresh) : (PictureBuffer.asDecoded p).Balanced := by
  have href : p.isReference = false := by
    rw [isReference, h.marking]
    rfl
  have hmarked : (p.mark .shortTerm).isReference = true := by
    rw [isReference, marking_mark]
    rfl
  constructor
  · exact hmarked.symm
  · apply references_mark
    rw [href, h.references]
    rfl

theorem Balanced.retire (h : p.Balanced) : p.retire.Balanced where
  referenced := p.isReference_retire.symm
  references := references_mark h.references .unused

theorem Balanced.mark_longTerm (h : p.Balanced) (href : p.isReference = true) :
    (p.mark .longTerm).Balanced := by
  constructor
  · rw [referenced_mark, h.referenced, href, isReference_mark_longTerm]
  · exact references_mark h.references .longTerm

theorem Balanced.isDisposable_iff (h : p.Balanced) :
    p.isDisposable = true ↔ p.marking = .unused ∧ p.displayed = true ∧ p.outputDone = true := by
  unfold isDisposable
  rw [h.references]
  by_cases hm : p.marking = .unused
  · simp [isReference, hm]
  · simp [isReference, hm]

end Picture

namespace PictureBuffer

/-! ### Operations -/

inductive Operation where
  /-- Stores a new picture, if there is a place for it. -/
  | store (p : Picture)
  /-- Resolves the lists of a slice. -/
  | resolve (q : RefQuery)
  /-- Resolves the lists of a picture and marks the pictures of the buffer accordingly. -/
  | update (flushing : Bool) (q : RefQuery)
  | retireAll
  | removeDisposable
  | clear
  | setCapacity (capacity : Nat)
  | setShown (number : Nat) (displayed outputDone : Bool)

/-- The buffer after an operation.  One that has no place for a new picture stays as it is. -/
def apply (b : PictureBuffer) : Operation → PictureBuffer
  | .store p =>
    match b.store p with
    | .ok b => b
    | .error _ => b
  | .resolve q => (b.resolve q).2
  | .update flushing q => (b.update flushing q).2
  | .retireAll => b.retireAll
  | .removeDisposable => b.removeDisposable
  | .clear => b.clear
  | .setCapacity capacity => { b with capacity }
  | .setShown number displayed outputDone =>
    b.modify [number] (·.setShown displayed outputDone)

/-- The buffer after some operations. -/
def run (b : PictureBuffer) (operations : List Operation) : PictureBuffer :=
  operations.foldl apply b

namespace Operation

/-- What is stored, if anything is, is fresh. -/
def StoresFresh : Operation → Prop
  | store p => p.Fresh
  | _ => True

/-- The buffers whose pictures an operation marks, in the order in which it does so. -/
def rounds (b : PictureBuffer) : Operation → List PictureBuffer
  | update flushing q => [b, b.beforeLists flushing, (b.beforeLists flushing).promote q]
  | _ => [b]

/-- What the lists name that an operation yields. -/
def lists (b : PictureBuffer) : Operation → RefList
  | resolve q => (b.resolve q).1.list0 ++ (b.resolve q).1.list1
  | update flushing q => (b.update flushing q).1.list0 ++ (b.update flushing q).1.list1
  | _ => []

end Operation

variable {b b' b'' : PictureBuffer}

theorem apply_store (b : PictureBuffer) (p : Picture) :
    b.store p = .ok (b.apply (.store p)) ∨ b.apply (.store p) = b := by
  simp only [apply]
  cases hstore : b.store p with
  | ok b' => exact .inl rfl
  | error e => exact .inr rfl

theorem eq_of_store {p : Picture} (hstore : b.store p = .ok b') :
    b.entries.length < b.capacity ∧
      b' = { b with
        entries := b.entries ++ [⟨b.nextNumber, asDecoded p⟩], nextNumber := b.nextNumber + 1 } := by
  unfold store at hstore
  split at hstore
  case isFalse => cases hstore
  case isTrue hplace => exact ⟨hplace, (Except.ok.inj hstore).symm⟩

theorem apply_setShown (b : PictureBuffer) (number : Nat) (displayed outputDone : Bool) :
    b.apply (.setShown number displayed outputDone) = b.mapEntries fun n p =>
      if n ∈ [number] then p.setShown displayed outputDone else p :=
  modify_eq b [number] (·.setShown displayed outputDone)

theorem Sound.beforeLists (hb : b.Sound) (flushing : Bool) : (b.beforeLists flushing).Sound := by
  rw [beforeLists_eq]
  exact hb.mapEntries _

theorem Sound.apply (hb : b.Sound) (operation : Operation) : (b.apply operation).Sound := by
  cases operation with
  | store p =>
    rcases b.apply_store p with hstore | hsame
    · exact hb.store hstore
    · rw [hsame]
      exact hb
  | resolve q =>
    show (b.promote q).Sound
    rw [promote_eq]
    exact hb.mapEntries _
  | update flushing q => exact hb.update flushing q
  | retireAll => exact hb.mapEntries fun _ p => p.retire
  | removeDisposable => exact hb.removeDisposable
  | clear => exact hb.clear
  | setCapacity capacity => exact ⟨hb.coherent, hb.fresh⟩
  | setShown number displayed outputDone =>
    rw [apply_setShown]
    exact hb.mapEntries _

theorem Sound.run (hb : b.Sound) (operations : List Operation) : (b.run operations).Sound := by
  induction operations generalizing b with
  | nil => exact hb
  | cons operation rest ih => exact ih (hb.apply operation)

/-! ### Pictures in balance -/

/-- Every picture of the buffer satisfies `P`. -/
def All (b : PictureBuffer) (P : Picture → Prop) : Prop := ∀ e ∈ b.entries, P e.picture

theorem All.mapEntries {P Q : Picture → Prop} (h : b.All P) {f : Nat → Picture → Picture}
    (hf : ∀ e ∈ b.entries, P e.picture → Q (f e.number e.picture)) : (b.mapEntries f).All Q := by
  intro e' he'
  obtain ⟨e, he, rfl⟩ := mem_mapEntries.mp he'
  exact hf e he (h e he)

theorem All.append_singleton {P : Picture → Prop} (h : b.All P) {e : StoredPicture}
    (he : P e.picture) (hentries : b'.entries = b.entries ++ [e]) : b'.All P := by
  intro e' he'
  rw [hentries] at he'
  rcases List.mem_append.mp he' with hold | hnew
  · exact h e' hold
  · rw [List.mem_singleton.mp hnew]
    exact he

theorem balanced_beforeLists (h : b.All Picture.Balanced) (flushing : Bool) :
    (b.beforeLists flushing).All Picture.Balanced := by
  rw [beforeLists_eq]
  refine h.mapEntries (Q := Picture.Balanced) ?_
  intro e _ hp
  cases flushing with
  | false => exact hp
  | true => exact ⟨hp.retire.referenced, hp.retire.references⟩

theorem Coherent.balanced_promote (hb : b.Coherent) (h : b.All Picture.Balanced) (q : RefQuery) :
    (b.promote q).All Picture.Balanced := by
  rw [promote_eq]
  refine h.mapEntries (Q := Picture.Balanced) ?_
  intro e he hp
  unfold afterPromote
  by_cases hmem : e.number ∈ b.promoted q
  · rw [if_pos hmem]
    exact hp.mark_longTerm (hb.of_mem_promoted he hmem).1
  · rw [if_neg hmem]
    exact hp

theorem balanced_retireUnlisted (h : b.All Picture.Balanced) (q : RefQuery)
    (lists : ResolvedLists) : (b.retireUnlisted q lists).All Picture.Balanced := by
  rw [retireUnlisted_eq]
  refine h.mapEntries (Q := Picture.Balanced) ?_
  intro e _ hp
  unfold afterRetire
  split
  · exact hp
  · exact hp.retire

/-- Pictures are in balance in each round of an operation. -/
theorem Sound.balanced_rounds (hb : b.Sound) (h : b.All Picture.Balanced) (operation : Operation) :
    ∀ round ∈ operation.rounds b, round.All Picture.Balanced := by
  cases operation with
  | update flushing q =>
    intro round hround
    have hflushed := balanced_beforeLists h flushing
    rcases List.mem_cons.mp hround with rfl | hround
    · exact h
    rcases List.mem_cons.mp hround with rfl | hround
    · exact hflushed
    rw [List.mem_singleton.mp hround]
    exact (hb.beforeLists flushing).coherent.balanced_promote hflushed q
  | _ => exact List.forall_mem_singleton.mpr h

theorem Sound.balanced_update (hb : b.Sound) (h : b.All Picture.Balanced) (flushing : Bool)
    (q : RefQuery) : (b.update flushing q).2.All Picture.Balanced := by
  apply balanced_retireUnlisted
  apply (hb.beforeLists flushing).coherent.balanced_promote
  exact balanced_beforeLists h flushing

theorem balanced_store {p : Picture} (h : b.All Picture.Balanced) (hp : p.Fresh)
    (hstore : b.store p = .ok b') : b'.All Picture.Balanced := by
  obtain ⟨-, rfl⟩ := eq_of_store hstore
  exact h.append_singleton (e := ⟨b.nextNumber, asDecoded p⟩) hp.balanced_asDecoded rfl

theorem Sound.balanced_apply (hb : b.Sound) (h : b.All Picture.Balanced) {operation : Operation}
    (hfresh : operation.StoresFresh) : (b.apply operation).All Picture.Balanced := by
  cases operation with
  | store p =>
    rcases b.apply_store p with hstore | hsame
    · exact balanced_store h hfresh hstore
    · rw [hsame]
      exact h
  | resolve q => exact hb.coherent.balanced_promote h q
  | update flushing q => exact hb.balanced_update h flushing q
  | retireAll => exact h.mapEntries (f := fun _ p => p.retire) fun _ _ hp => hp.retire
  | removeDisposable => exact fun e he => h e (List.mem_of_mem_filter he)
  | clear => exact fun e he => absurd he List.not_mem_nil
  | setCapacity capacity => exact h
  | setShown number displayed outputDone =>
    rw [apply_setShown]
    refine h.mapEntries (Q := Picture.Balanced) ?_
    intro e _ hp
    split
    · exact ⟨hp.referenced, hp.references⟩
    · exact hp

theorem Sound.balanced_run (hb : b.Sound) (h : b.All Picture.Balanced) {operations : List Operation}
    (hfresh : ∀ operation ∈ operations, operation.StoresFresh) :
    (b.run operations).All Picture.Balanced := by
  induction operations generalizing b with
  | nil => exact h
  | cons operation rest ih =>
    obtain ⟨hfirst, hrest⟩ := List.forall_mem_cons.mp hfresh
    exact ih (hb.apply operation) (hb.balanced_apply h hfirst) hrest

/-- **The reference bookkeeping of a run is consistent.**  Marking, flag and count of every
picture agree, and a reference that is released has been taken, whatever is done next. -/
theorem run_accounts (capacity : Nat) (operations : List Operation)
    (hfresh : ∀ operation ∈ operations, operation.StoresFresh) :
    let b := run { capacity } operations
    (∀ e ∈ b.entries,
      (e.picture.marking ≠ .unused ↔ e.picture.referenced = true) ∧
      (e.picture.referenced = true ↔ e.picture.references = 1) ∧
      (e.picture.references ≠ 1 → e.picture.references = 0) ∧
      (e.picture.isDisposable = true ↔
        e.picture.marking = .unused ∧ e.picture.displayed = true ∧ e.picture.outputDone = true)) ∧
    ∀ operation : Operation, ∀ round ∈ operation.rounds b, ∀ e ∈ round.entries,
      e.picture.marking ≠ .unused → 0 < e.picture.references := by
  intro b
  have hempty := sound_empty capacity
  have hsound : b.Sound := hempty.run operations
  have hbalanced : b.All Picture.Balanced :=
    hempty.balanced_run (fun e he => absurd he List.not_mem_nil) hfresh
  constructor
  · intro e he
    obtain ⟨hflag, hcount⟩ := hbalanced e he
    rw [← Picture.isReference_iff, hflag, hcount]
    refine ⟨Iff.rfl, ?_, ?_, (hbalanced e he).isDisposable_iff⟩
    · cases e.picture.isReference <;> decide
    · cases e.picture.isReference <;> decide
  · intro operation round hround e he hmarked
    rw [(hsound.balanced_rounds hbalanced operation round hround e he).references,
      Picture.isReference_iff.mpr hmarked]
    exact Nat.one_pos

/-- A third picture names the first of two that have been stored, for the long term. -/
def promotingRun : List Operation := [
  .store {}, .store { orderCount := 4 },
  .update false {
    orderCount := 8, layer := 0, maxLsb := 16, layers := none
    list0 := { entries := [.longTerm 0 none], active := 1 }, list1 := {} },
  .setShown 1 true true]

/-- The second picture has been retired. -/
theorem run_accounts_promoting :
    (∀ operation ∈ promotingRun, operation.StoresFresh) ∧
    (run { capacity := 2 } promotingRun).pictures.map
        (fun p => (p.marking, p.referenced, p.references, p.isDisposable)) =
      [(.longTerm, true, 1, false), (.unused, false, 0, true)] ∧
    ∀ e ∈ (run { capacity := 2 } promotingRun).entries,
      (e.picture.marking ≠ .unused ↔ e.picture.referenced = true) ∧
      (e.picture.referenced = true ↔ e.picture.references = 1) ∧
      (e.picture.references ≠ 1 → e.picture.references = 0) ∧
      (e.picture.isDisposable = true ↔
        e.picture.marking = .unused ∧ e.picture.displayed = true ∧
          e.picture.outputDone = true) := by
  have hfresh : ∀ operation ∈ promotingRun, operation.StoresFresh := by
    intro operation hmem
    fin_cases hmem
    · exact ⟨rfl, rfl, rfl⟩
    · exact ⟨rfl, rfl, rfl⟩
    · trivial
    · trivial
  exact ⟨hfresh, by decide, (run_accounts 2 promotingRun hfresh).1⟩

end PictureBuffer

/-! ### Markings fall -/

/-- A picture may do no more with the second marking than with the first. -/
inductive Marking.Falls : Marking → Marking → Prop where
  | same (m : Marking) : Falls m m
  | promoted : Falls shortTerm longTerm
  | retired (m : Marking) : Falls m unused

theorem Marking.Falls.trans {m m' m'' : Marking} (h : m.Falls m') (h' : m'.Falls m'') :
    m.Falls m'' := by
  cases h' with
  | same => exact h
  | retired => exact retired m
  | promoted =>
    -- Nothing but short-term pictures falls to a short-term one.
    cases h with
    | same => exact promoted

theorem Marking.Falls.eq_unused {m : Marking} (h : unused.Falls m) : m = unused := by
  cases h with
  | same => rfl
  | retired => rfl

namespace Picture

theorem falls_retire (p : Picture) : p.marking.Falls p.retire.marking := by
  have hunused : p.retire.marking = .unused := marking_mark p .unused
  rw [hunused]
  exact .retired _

theorem falls_mark_longTerm {p : Picture} (h : p.isReference = true) :
    p.marking.Falls (p.mark .longTerm).marking := by
  rw [marking_mark]
  cases hm : p.marking with
  | unused => exact absurd hm (isReference_iff.mp h)
  | shortTerm => exact .promoted
  | longTerm => exact .same _

end Picture

namespace PictureBuffer

/-- A buffer comes later than another: what has an old number has been there, and its
marking has fallen since. -/
structure Follows (b b' : PictureBuffer) : Prop where
  nextNumber_le : b.nextNumber ≤ b'.nextNumber
  origin : ∀ e' ∈ b'.entries, e'.number < b.nextNumber →
    ∃ e ∈ b.entries, e.number = e'.number ∧ e.picture.marking.Falls e'.picture.marking

variable {b b' b'' : PictureBuffer}

theorem follows_of_subset {entries : List StoredPicture} (h : entries ⊆ b.entries) :
    b.Follows { b with entries } where
  nextNumber_le := le_rfl
  origin e he _ := ⟨e, h he, rfl, .same _⟩

theorem Follows.refl (b : PictureBuffer) : b.Follows b := follows_of_subset (List.Subset.refl _)

theorem Follows.trans (h : b.Follows b') (h' : b'.Follows b'') : b.Follows b'' := by
  refine ⟨h.nextNumber_le.trans h'.nextNumber_le, ?_⟩
  intro e'' he'' hold
  obtain ⟨e', he', hnumber', hfalls'⟩ := h'.origin e'' he'' (hold.trans_le h.nextNumber_le)
  obtain ⟨e, he, hnumber, hfalls⟩ := h.origin e' he' (hnumber' ▸ hold)
  exact ⟨e, he, hnumber.trans hnumber', hfalls.trans hfalls'⟩

theorem follows_mapEntries {f : Nat → Picture → Picture}
    (hf : ∀ e ∈ b.entries, e.picture.marking.Falls (f e.number e.picture).marking) :
    b.Follows (b.mapEntries f) := by
  refine ⟨le_rfl, ?_⟩
  intro e' he' _
  obtain ⟨e, he, rfl⟩ := mem_mapEntries.mp he'
  exact ⟨e, he, rfl, hf e he⟩

theorem follows_store {p : Picture} (hstore : b.store p = .ok b') : b.Follows b' := by
  obtain ⟨-, rfl⟩ := eq_of_store hstore
  refine ⟨Nat.le_succ _, ?_⟩
  intro e he hold
  rcases List.mem_append.mp he with he | he
  · exact ⟨e, he, rfl, .same _⟩
  · -- The picture stored has a new number.
    rw [List.mem_singleton.mp he] at hold
    exact absurd hold (Nat.lt_irrefl _)

theorem follows_beforeLists (b : PictureBuffer) (flushing : Bool) :
    b.Follows (b.beforeLists flushing) := by
  rw [beforeLists_eq]
  apply follows_mapEntries
  intro e _
  cases flushing with
  | false => exact .same _
  | true => exact e.picture.falls_retire

theorem Coherent.follows_promote (hb : b.Coherent) (q : RefQuery) : b.Follows (b.promote q) := by
  rw [promote_eq]
  apply follows_mapEntries
  intro e he
  unfold afterPromote
  by_cases hmem : e.number ∈ b.promoted q
  · rw [if_pos hmem]
    exact Picture.falls_mark_longTerm (hb.of_mem_promoted he hmem).1
  · rw [if_neg hmem]
    exact .same _

theorem follows_retireUnlisted (b : PictureBuffer) (q : RefQuery) (lists : ResolvedLists) :
    b.Follows (b.retireUnlisted q lists) := by
  rw [retireUnlisted_eq]
  apply follows_mapEntries
  intro e _
  unfold afterRetire
  split
  · exact .same _
  · exact e.picture.falls_retire

theorem Sound.follows_apply (hb : b.Sound) (operation : Operation) :
    b.Follows (b.apply operation) := by
  cases operation with
  | store p =>
    rcases b.apply_store p with hstore | hsame
    · exact follows_store hstore
    · rw [hsame]
      exact .refl b
  | resolve q => exact hb.coherent.follows_promote q
  | update flushing q =>
    have hflush := b.follows_beforeLists flushing
    have hpromote := (hb.beforeLists flushing).coherent.follows_promote q
    exact (hflush.trans hpromote).trans (follows_retireUnlisted _ q _)
  | retireAll => exact follows_mapEntries (f := fun _ p => p.retire) fun e _ => e.picture.falls_retire
  | removeDisposable => exact follows_of_subset (List.filter_subset_self _)
  | clear => exact follows_of_subset (List.nil_subset _)
  | setCapacity capacity => exact ⟨le_rfl, (Follows.refl b).origin⟩
  | setShown number displayed outputDone =>
    rw [apply_setShown]
    apply follows_mapEntries
    intro e _
    split
    · exact .same _
    · exact .same _

theorem Sound.follows_run (hb : b.Sound) (operations : List Operation) :
    b.Follows (b.run operations) := by
  induction operations generalizing b with
  | nil => exact .refl b
  | cons operation rest ih => exact (hb.follows_apply operation).trans (ih (hb.apply operation))

/-- What a list names is a reference of the buffer that the operation finds. -/
theorem Sound.exists_of_mem_lists (hb : b.Sound) {operation : Operation} {n : Nat}
    (h : some n ∈ operation.lists b) :
    ∃ e ∈ b.entries, e.number = n ∧ e.picture.isReference = true := by
  have hresolve : ∀ {b : PictureBuffer}, b.Sound → ∀ q : RefQuery,
      some n ∈ (b.resolve q).1.list0 ++ (b.resolve q).1.list1 →
      ∃ e ∈ b.entries, e.number = n ∧ e.picture.isReference = true := by
    intro b hb q h
    obtain ⟨e', he', hnumber, href⟩ := exists_of_mem_resolve h
    rw [promote_eq] at he'
    obtain ⟨e, he, rfl⟩ := mem_mapEntries.mp he'
    refine ⟨e, he, hnumber, ?_⟩
    rw [← hb.coherent.isReference_afterPromote q he]
    exact href
  cases operation with
  | resolve q => exact hresolve hb q h
  | update flushing q =>
    obtain ⟨e', he', hnumber, href⟩ := hresolve (hb.beforeLists flushing) q h
    rw [beforeLists_eq] at he'
    obtain ⟨e, he, rfl⟩ := mem_mapEntries.mp he'
    cases flushing with
    | false => exact ⟨e, he, hnumber, href⟩
    | true => exact absurd href (Bool.not_eq_true _ ▸ e.picture.isReference_retire)
  | _ => exact absurd h List.not_mem_nil

/-- **Markings never rise.**  From one point of a run to any later one the marking of a picture
falls, and one that has been retired stays so and is not listed any more. -/
theorem run_falls (capacity : Nat) (before after : List Operation) :
    let b := run { capacity } before
    let b' := run b after
    (∀ e ∈ b.entries, ∀ e' ∈ b'.entries, e'.number = e.number →
      e.picture.marking.Falls e'.picture.marking) ∧
    ∀ e ∈ b.entries, e.picture.marking = .unused →
      (∀ e' ∈ b'.entries, e'.number = e.number → e'.picture.marking = .unused) ∧
      ∀ operation : Operation, some e.number ∉ operation.lists b' := by
  intro b b'
  have hb : b.Sound := (sound_empty capacity).run before
  have hfalls : ∀ e ∈ b.entries, ∀ e' ∈ b'.entries, e'.number = e.number →
      e.picture.marking.Falls e'.picture.marking := by
    intro e he e' he' hnumber
    obtain ⟨e₀, he₀, hnumber₀, hfalls⟩ :=
      (hb.follows_run after).origin e' he' (hnumber ▸ hb.fresh e he)
    rw [hb.coherent e he e₀ he₀ (hnumber₀.trans hnumber).symm]
    exact hfalls
  refine ⟨hfalls, ?_⟩
  intro e he hunused
  have hstays : ∀ e' ∈ b'.entries, e'.number = e.number → e'.picture.marking = .unused := by
    intro e' he' hnumber
    have hfall := hfalls e he e' he' hnumber
    rw [hunused] at hfall
    exact hfall.eq_unused
  refine ⟨hstays, ?_⟩
  intro operation hlisted
  obtain ⟨e', he', hnumber, href⟩ := (hb.run after).exists_of_mem_lists hlisted
  exact Picture.isReference_iff.mp href (hstays e' he' hnumber)

/-- The second picture stays retired when the first one is retired as well. -/
theorem run_falls_promoting :
    ∃ e ∈ (run { capacity := 2 } promotingRun).entries, e.picture.marking = .unused ∧
      (∃ e' ∈ (run { capacity := 2 } promotingRun |>.run [.retireAll]).entries,
        e'.number = e.number ∧ e'.picture.marking = .unused) ∧
      ∀ operation : Operation,
        some e.number ∉ operation.lists (run { capacity := 2 } promotingRun |>.run [.retireAll]) := by
  have hfound : ∃ e ∈ (run { capacity := 2 } promotingRun).entries, e.picture.marking = .unused ∧
      ∃ e' ∈ (run { capacity := 2 } promotingRun |>.run [.retireAll]).entries,
        e'.number = e.number := by
    decide
  obtain ⟨e, he, hunused, e', he', hnumber⟩ := hfound
  have hfalls := (run_falls 2 promotingRun [.retireAll]).2 e he hunused
  exact ⟨e, he, hunused, ⟨e', he', hnumber, hfalls.1 e' he' hnumber⟩, hfalls.2⟩

end PictureBuffer

end CodedVideo
