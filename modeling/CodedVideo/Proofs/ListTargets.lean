import CodedVideo.Proofs.ListCoding
import CodedVideo.Proofs.Marking
import CodedVideo.Proofs.Outcome
import Mathlib.Tactic

/-!
# Naming pictures by reference lists

A list of targets is coded by the steps from one to the next: short-term ones by the
distance of the order counts, the first one from the current picture, and long-term ones by
the low part of the order count and by how far the high part lies back beyond the long-term
target before (`RefTarget.ownList`).  The reader adds the steps up again, separately for
either kind, and finds for each entry a count and a place to look for it
(`RefTarget.completeEntries_eq`).

The buffer then finds the targets.  Marking the long-term ones first does not keep a
long-term entry from finding its picture (`findLongTerm_promote`), and a short-term entry
finds its own as long as no entry names that picture for the long term.  Together:
`RefTarget.read_resolve`.
-/

namespace CodedVideo

/-! ### Looking for a picture -/

namespace PictureBuffer

variable {b : PictureBuffer} {q : RefQuery}

/-- A picture is found if it is the only one with the property. -/
theorem findNumber_eq_of_unique {p : Picture → Bool} {e : StoredPicture} (he : e ∈ b.entries)
    (hp : p e.picture) (hunique : ∀ e' ∈ b.entries, p e'.picture → e'.number = e.number) :
    b.findNumber p = some e.number := by
  cases hfind : b.entries.find? (fun e => p e.picture) with
  | none => exact absurd hp (List.find?_eq_none.mp hfind e he)
  | some e' =>
    have hp' := List.find?_some (p := fun e : StoredPicture => p e.picture) hfind
    rw [findNumber, hfind, Option.map_some, hunique e' (List.mem_of_find?_eq_some hfind) hp']

/-- A search after all pictures have been changed. -/
theorem findNumber_mapEntries_eq (b : PictureBuffer) (f : Nat → Picture → Picture)
    (p : Picture → Bool) : (b.mapEntries f).findNumber p =
      (b.entries.find? fun e => p (f e.number e.picture)).map (·.number) := by
  unfold findNumber mapEntries
  rw [List.find?_map, Option.map_map]
  rfl

theorem findNumber_mapEntries {f : Nat → Picture → Picture} {p : Picture → Bool}
    (h : ∀ e ∈ b.entries, p (f e.number e.picture) = p e.picture) :
    (b.mapEntries f).findNumber p = b.findNumber p := by
  rw [findNumber_mapEntries_eq, List.find?_congr h, findNumber]

theorem layer_afterPromote (b : PictureBuffer) (q : RefQuery) (n : Nat) (p : Picture) :
    (b.afterPromote q n p).layer = p.layer :=
  Picture.layer_eq_of_core (core_afterPromote b q n p)

theorem orderCount_afterPromote (b : PictureBuffer) (q : RefQuery) (n : Nat) (p : Picture) :
    (b.afterPromote q n p).orderCount = p.orderCount :=
  Picture.orderCount_eq_of_core (core_afterPromote b q n p)

/-- The buffer after some pictures have been marked for the long term. -/
def markLongTerm (b : PictureBuffer) (numbers : List Nat) : PictureBuffer :=
  b.modify numbers (·.mark .longTerm)

/-- The pictures with these numbers are references. -/
def References (b : PictureBuffer) (numbers : List Nat) : Prop :=
  ∀ e ∈ b.entries, e.number ∈ numbers → e.picture.isReference

/-- A long-term entry finds the same picture before and after references are marked. -/
theorem References.findLongTerm_markLongTerm {numbers : List Nat} (h : b.References numbers)
    (q : RefQuery) (lsb : Nat) (msbCycle : Option Nat) :
    (b.markLongTerm numbers).findLongTerm q lsb msbCycle = b.findLongTerm q lsb msbCycle := by
  have hmarked : ∀ e ∈ b.entries, ∀ p,
      p = (if e.number ∈ numbers then e.picture.mark .longTerm else e.picture) →
        p.isReference = e.picture.isReference ∧ p.core = e.picture.core := by
    rintro e he p rfl
    by_cases hmem : e.number ∈ numbers
    · rw [if_pos hmem, Picture.isReference_mark_longTerm, h e he hmem]
      exact ⟨rfl, Picture.core_mark _ _⟩
    · rw [if_neg hmem]
      exact ⟨rfl, rfl⟩
  rw [markLongTerm, modify_eq]
  unfold findLongTerm findReference findByLsb
  cases msbCycle with
  | some cycle =>
    refine findNumber_mapEntries fun e he => ?_
    obtain ⟨href, hcore⟩ := hmarked e he _ rfl
    rw [href, Picture.layer_eq_of_core hcore, Picture.orderCount_eq_of_core hcore]
  | none =>
    refine findNumber_mapEntries fun e he => ?_
    obtain ⟨href, hcore⟩ := hmarked e he _ rfl
    rw [href, Picture.layer_eq_of_core hcore, Picture.orderCount_eq_of_core hcore]

/-- **A long-term entry finds the same picture before and after all of them are marked.** -/
theorem Coherent.findLongTerm_promote (hb : b.Coherent) (q q' : RefQuery) (lsb : Nat)
    (msbCycle : Option Nat) :
    (b.promote q).findLongTerm q' lsb msbCycle = b.findLongTerm q' lsb msbCycle :=
  References.findLongTerm_markLongTerm (fun _ he hmem => (hb.of_mem_promoted he hmem).1) q' lsb
    msbCycle

/-- Reference pictures of a layer have different order counts. -/
def CountsDistinct (b : PictureBuffer) (layer : Nat) : Prop :=
  ∀ e ∈ b.entries, ∀ e' ∈ b.entries, e.picture.isReference → e'.picture.isReference →
    e.picture.layer = layer → e'.picture.layer = layer →
      e.picture.orderCount = e'.picture.orderCount → e.number = e'.number

instance (b : PictureBuffer) (layer : Nat) : Decidable (b.CountsDistinct layer) :=
  inferInstanceAs (Decidable (∀ e ∈ b.entries, ∀ e' ∈ b.entries, e.picture.isReference →
    e'.picture.isReference → e.picture.layer = layer → e'.picture.layer = layer →
      e.picture.orderCount = e'.picture.orderCount → e.number = e'.number))

theorem CountsDistinct.findReference_eq {layer : Nat} (h : b.CountsDistinct layer)
    {e : StoredPicture} (he : e ∈ b.entries) (href : e.picture.isReference)
    (hlayer : e.picture.layer = layer) :
    b.findReference e.picture.orderCount layer = some e.number := by
  refine findNumber_eq_of_unique he (by simp [href, hlayer]) fun e' he' hp => ?_
  simp only [Bool.and_eq_true, beq_iff_eq] at hp
  exact h e' he' e he hp.1.1 href hp.1.2 hlayer hp.2

/-- **A short-term entry finds its picture among the promoted ones**, unless that has been
promoted itself. -/
theorem CountsDistinct.findShortTerm_promote {layer : Nat} (h : b.CountsDistinct layer)
    {e : StoredPicture} (he : e ∈ b.entries) (hmarking : e.picture.marking = .shortTerm)
    (hlayer : e.picture.layer = layer) (hapart : e.number ∉ b.promoted q) :
    (b.promote q).findShortTerm e.picture.orderCount layer = some e.number := by
  have hsame : ∀ p, b.afterPromote q e.number p = p := fun p => if_neg hapart
  rw [promote_eq]
  have hmem : e ∈ (b.mapEntries (b.afterPromote q)).entries :=
    mem_mapEntries.mpr ⟨e, he, by rw [hsame]⟩
  refine findNumber_eq_of_unique hmem (by simp [hmarking, hlayer]) fun e₁ he₁ hp => ?_
  obtain ⟨e', he', rfl⟩ := mem_mapEntries.mp he₁
  simp only [Bool.and_eq_true, beq_iff_eq, layer_afterPromote, orderCount_afterPromote] at hp
  -- What has been promoted is no short-term picture, so the other one is as it was.
  have hnot : e'.number ∉ b.promoted q := by
    intro hmem'
    rw [afterPromote, if_pos hmem', Picture.marking_mark] at hp
    exact absurd hp.1.1 (by decide)
  rw [afterPromote, if_neg hnot] at hp
  refine h e' he' e he ?_ ?_ hp.1.2 hlayer hp.2
  · rw [Picture.isReference, hp.1.1]
    rfl
  · rw [Picture.isReference, hmarking]
    rfl

end PictureBuffer

/-! ### Targets -/

/-- A picture of the buffer that an entry of a list is to name. -/
inductive RefTarget where
  | shortTerm (stored : StoredPicture)
  | longTerm (stored : StoredPicture)
  deriving DecidableEq, Repr

namespace RefTarget

def stored : RefTarget → StoredPicture
  | shortTerm e => e
  | longTerm e => e

/-- Whether the picture is to be named for the long term. -/
def isLongTerm : RefTarget → Bool
  | shortTerm _ => false
  | longTerm _ => true

/-- The numbers of the pictures. -/
def numbers (targets : List RefTarget) : RefList := targets.map fun t => some t.stored.number

/-- The order counts of the short-term targets. -/
def shortTermCounts : List RefTarget → List Int
  | [] => []
  | shortTerm e :: rest => e.picture.orderCount :: shortTermCounts rest
  | longTerm _ :: rest => shortTermCounts rest

/-- How many ranges of the low part a picture lies back. -/
def cycleOf (maxLsb : Nat) (current : Int) (e : StoredPicture) : Int :=
  current / maxLsb - e.picture.orderCount / maxLsb

/-- How many ranges of the low part the long-term targets lie back. -/
def cycles (maxLsb : Nat) (current : Int) : List RefTarget → List Int
  | [] => []
  | shortTerm _ :: rest => cycles maxLsb current rest
  | longTerm e :: rest => cycleOf maxLsb current e :: cycles maxLsb current rest

/-- The low part of the order count of a picture. -/
def lsbOf (maxLsb : Nat) (e : StoredPicture) : Nat := (e.picture.orderCount % maxLsb).toNat

/-! ### Coding targets -/

/-- The entries for targets after a short-term one with the order count `base`. -/
def entriesFrom : (base : Int) → List RefTarget → List ListEntry
  | _, [] => []
  | base, shortTerm e :: rest =>
    let distance := e.picture.orderCount - base
    .shortTerm (distance.natAbs - 1) distance :: entriesFrom e.picture.orderCount rest
  | base, longTerm _ :: rest => .longTerm none :: entriesFrom base rest

/-- What a header adds for the long-term targets, those before lying `previous` ranges back. -/
def stepsFrom (maxLsb : Nat) (current : Int) :
    (previous : Int) → List RefTarget → List (Nat × Option Nat)
  | _, [] => []
  | previous, shortTerm _ :: rest => stepsFrom maxLsb current previous rest
  | previous, longTerm e :: rest =>
    let cycle := cycleOf maxLsb current e
    (lsbOf maxLsb e, some (cycle - previous).toNat) :: stepsFrom maxLsb current cycle rest

/-- The list that names the targets. -/
def ownList (maxLsb : Nat) (current : Int) (targets : List RefTarget) : OwnList where
  entries := entriesFrom current targets
  steps := stepsFrom maxLsb current 0 targets

/-- The entries as the buffer has to look for them. -/
def requestsFrom (maxLsb : Nat) (current : Int) : (base : Int) → List RefTarget → List RefEntry
  | _, [] => []
  | base, shortTerm e :: rest =>
    .shortTerm (e.picture.orderCount - base) ::
      requestsFrom maxLsb current e.picture.orderCount rest
  | base, longTerm e :: rest =>
    .longTerm (lsbOf maxLsb e) (some (cycleOf maxLsb current e).toNat) ::
      requestsFrom maxLsb current base rest

/-- An order count that fits in 32 bits. -/
def CountFits (count : Int) : Prop := -(pow2 31 : Int) ≤ count ∧ count < pow2 31

instance (count : Int) : Decidable (CountFits count) :=
  inferInstanceAs (Decidable (_ ∧ _))

theorem countFits_iff {count : Int} : CountFits count ↔ -2 ^ 31 ≤ count ∧ count < 2 ^ 31 := by
  have h31 : ((pow2 31 : Nat) : Int) = 2 ^ 31 := by norm_num [pow2]
  rw [CountFits, h31]

/-- The order count of every picture fits. -/
theorem countFits_of_orderCount {lsb maxLsb : Nat} {msbCycle : Option Nat} {previous : Option Int}
    {count : Int} (h : orderCount lsb maxLsb msbCycle previous = .ok count) : CountFits count := by
  unfold orderCount at h
  extract_lets high value at h
  split at h
  case isTrue hfits =>
    obtain rfl := Except.ok.inj h
    exact hfits
  case isFalse => cases h

/-- A list of targets whose steps can be coded. -/
structure Codable (maxLsb : Nat) (current : Int) (targets : List RefTarget) : Prop where
  length_le : targets.length ≤ ListStructure.maxEntries
  fits : ∀ t ∈ targets, CountFits t.stored.picture.orderCount
  /-- Each short-term target lies 1 to 2^15 from the one before. -/
  shortTermSteps : (current :: shortTermCounts targets).IsChain fun x y =>
    1 ≤ (y - x).natAbs ∧ (y - x).natAbs ≤ 2 ^ 15
  /-- Long-term targets lie no less far back than those before. -/
  longTermSteps : (0 :: cycles maxLsb current targets).IsChain (· ≤ ·)

variable {rules : ListRules} {current base previous : Int} {targets : List RefTarget}

theorem length_entriesFrom (base : Int) (targets : List RefTarget) :
    (entriesFrom base targets).length = targets.length := by
  induction targets generalizing base with
  | nil => rfl
  | cons t rest ih =>
    cases t with
    | shortTerm e => exact congrArg (· + 1) (ih _)
    | longTerm e => exact congrArg (· + 1) (ih _)

theorem length_stepsFrom (maxLsb : Nat) (current previous base : Int) (targets : List RefTarget) :
    (stepsFrom maxLsb current previous targets).length =
      ListStructure.longTermCount { lsbInHeader := true, entries := entriesFrom base targets } := by
  induction targets generalizing previous base with
  | nil => rfl
  | cons t rest ih =>
    cases t with
    | shortTerm e => exact ih previous e.picture.orderCount
    | longTerm e => exact congrArg (· + 1) (ih (cycleOf maxLsb current e) base)

theorem codable_entriesFrom (hlong : rules.longTerm = true) (hweighted : rules.weighted = false)
    (hchain : (base :: shortTermCounts targets).IsChain fun x y =>
      1 ≤ (y - x).natAbs ∧ (y - x).natAbs ≤ 2 ^ 15)
    (references index : Nat) :
    ∀ entry ∈ entriesFrom base targets, entry.Codable rules references true index := by
  induction targets generalizing base with
  | nil => exact fun _ h => absurd h List.not_mem_nil
  | cons t rest ih =>
    cases t with
    | shortTerm e =>
      obtain ⟨hdistance, hrest⟩ := List.isChain_cons_cons.mp hchain
      refine List.forall_mem_cons.mpr ⟨?_, ih hrest⟩
      rw [ListEntry.Codable, hweighted, Bool.false_and, if_neg Bool.false_ne_true]
      omega
    | longTerm e =>
      refine List.forall_mem_cons.mpr ⟨?_, ih hchain⟩
      exact ⟨hlong, rfl, fun _ h => by cases h⟩

/-! ### Long-term targets -/

theorem lsbOf_lt {maxLsb : Nat} (hpos : 0 < maxLsb) (e : StoredPicture) :
    lsbOf maxLsb e < maxLsb := by
  have hlt := Int.emod_lt_of_pos e.picture.orderCount (Int.natCast_pos.mpr hpos)
  unfold lsbOf
  omega

/-- The high and the low part make up the order count. -/
theorem count_eq {maxLsb : Nat} (hpos : 0 < maxLsb) {e : StoredPicture}
    (hcycle : 0 ≤ cycleOf maxLsb current e) :
    current - current % maxLsb - (cycleOf maxLsb current e).toNat * maxLsb +
      (lsbOf maxLsb e % maxLsb : Nat) = e.picture.orderCount := by
  have hlow : (lsbOf maxLsb e : Int) = e.picture.orderCount % maxLsb :=
    Int.toNat_of_nonneg (Int.emod_nonneg _ (Int.natCast_pos.mpr hpos).ne')
  have hcurrent := Int.mul_ediv_add_emod current maxLsb
  have hcount := Int.mul_ediv_add_emod e.picture.orderCount maxLsb
  rw [Nat.mod_eq_of_lt (lsbOf_lt hpos e), hlow, Int.toNat_of_nonneg hcycle, cycleOf, sub_mul]
  linarith

/-- A picture lies back by no more ranges than 32 bits have. -/
theorem cycleOf_le {lsbBits : Nat} (hlsb32 : lsbBits ≤ 32) {e : StoredPicture}
    (hcurrent : CountFits current) (he : CountFits e.picture.orderCount) :
    cycleOf (pow2 lsbBits) current e ≤ (2 ^ (32 - lsbBits) : Nat) := by
  have hranges : pow2 lsbBits * 2 ^ (32 - lsbBits) = 2 ^ 32 := by
    rw [pow2_eq, ← Nat.pow_add, Nat.add_sub_cancel' hlsb32]
  have hpos : 0 < pow2 lsbBits := Nat.two_pow_pos lsbBits
  generalize pow2 lsbBits = maxLsb at *
  generalize 2 ^ (32 - lsbBits) = ranges at *
  have hcur := Int.mul_ediv_add_emod current maxLsb
  have hcount := Int.mul_ediv_add_emod e.picture.orderCount maxLsb
  have hcurlow := Int.emod_nonneg current (Int.natCast_pos.mpr hpos).ne'
  have hlow := Int.emod_lt_of_pos e.picture.orderCount (Int.natCast_pos.mpr hpos)
  have hproduct : (maxLsb : Int) * ranges = 2 ^ 32 := by exact_mod_cast hranges
  rw [countFits_iff] at hcurrent he
  by_contra hlt
  -- One range more than there are would take the order counts apart by more than 2^32.
  have hstep : (ranges : Int) + 1 ≤ cycleOf maxLsb current e := by omega
  have hmul := mul_le_mul_of_nonneg_left hstep (Int.natCast_nonneg maxLsb)
  rw [cycleOf, mul_sub, mul_add, hproduct] at hmul
  linarith [hcurrent.1, hcurrent.2, he.1, he.2]

theorem mem_cycles {maxLsb : Nat} {e : StoredPicture} (h : longTerm e ∈ targets) :
    cycleOf maxLsb current e ∈ cycles maxLsb current targets := by
  induction targets with
  | nil => exact absurd h List.not_mem_nil
  | cons t rest ih =>
    rcases List.mem_cons.mp h with rfl | hrest
    · exact List.mem_cons_self
    · cases t with
      | shortTerm => exact ih hrest
      | longTerm => exact List.mem_cons_of_mem _ (ih hrest)

theorem Codable.cycleOf_nonneg {maxLsb : Nat} (h : Codable maxLsb current targets)
    {e : StoredPicture} (he : longTerm e ∈ targets) : 0 ≤ cycleOf maxLsb current e := by
  have hpairwise := List.isChain_iff_pairwise.mp h.longTermSteps
  exact (List.pairwise_cons.mp hpairwise).1 _ (mem_cycles he)

theorem codable_stepsFrom {lsbBits : Nat} (hlsb32 : lsbBits ≤ 32) (hcurrent : CountFits current)
    (hfits : ∀ t ∈ targets, CountFits t.stored.picture.orderCount) (hprevious : 0 ≤ previous)
    (hchain : (previous :: cycles (pow2 lsbBits) current targets).IsChain (· ≤ ·)) :
    ∀ added ∈ stepsFrom (pow2 lsbBits) current previous targets,
      LongTermCount.Codable lsbBits added := by
  induction targets generalizing previous with
  | nil => exact fun _ h => absurd h List.not_mem_nil
  | cons t rest ih =>
    obtain ⟨ht, hrest⟩ := List.forall_mem_cons.mp hfits
    cases t with
    | shortTerm e => exact ih hrest hprevious hchain
    | longTerm e =>
      obtain ⟨hle, hchain⟩ := List.isChain_cons_cons.mp hchain
      refine List.forall_mem_cons.mpr ⟨?_, ih hrest (hprevious.trans hle) hchain⟩
      have hcycle := cycleOf_le hlsb32 hcurrent ht
      refine ⟨lsbOf_lt (Nat.two_pow_pos _) e, fun step hstep => ?_⟩
      obtain rfl := Option.some.inj hstep
      exact Int.toNat_le.mpr ((Int.sub_le_self _ hprevious).trans hcycle)

theorem Codable.ownList (hlsb32 : rules.lsbBits ≤ 32) (hlong : rules.longTerm = true)
    (hweighted : rules.weighted = false) (hcurrent : CountFits current)
    (h : Codable (pow2 rules.lsbBits) current targets) (references : Nat) :
    (ownList (pow2 rules.lsbBits) current targets).Codable rules references where
  content :=
    { size_le := (length_entriesFrom current targets).trans_le h.length_le
      lsbInHeader := fun _ => rfl
      entries := fun i hi => codable_entriesFrom hlong hweighted h.shortTermSteps references i _
        (List.getElem_mem hi) }
  length_steps := length_stepsFrom _ _ _ _ _
  steps := codable_stepsFrom hlsb32 hcurrent h.fits le_rfl h.longTermSteps

/-! ### Adding up the steps -/

/-- **The steps add up to the targets**, those of either kind for themselves. -/
theorem completeEntries_eq {lsbBits : Nat} (hlsb : 0 < lsbBits) (hlsb32 : lsbBits ≤ 32)
    (hcurrent : CountFits current) (hfits : ∀ t ∈ targets, CountFits t.stored.picture.orderCount)
    (base : Int) (hprevious : 0 ≤ previous)
    (hchain : (previous :: cycles (pow2 lsbBits) current targets).IsChain (· ≤ ·)) :
    HeaderList.completeEntries
        (LongTermCount.accumulate previous.toNat (stepsFrom (pow2 lsbBits) current previous targets))
        (entriesFrom base targets) =
      requestsFrom (pow2 lsbBits) current base targets := by
  have hfew : 2 ^ (32 - lsbBits) < 2 ^ 32 := Nat.pow_lt_pow_right (by omega) (by omega)
  induction targets generalizing previous base with
  | nil => rfl
  | cons t rest ih =>
    obtain ⟨ht, hrest⟩ := List.forall_mem_cons.mp hfits
    cases t with
    | shortTerm e =>
      exact congrArg (_ :: ·) (ih hrest _ hprevious hchain)
    | longTerm e =>
      obtain ⟨hle, hchain⟩ := List.isChain_cons_cons.mp hchain
      have hcycle := cycleOf_le hlsb32 hcurrent ht
      -- The step leads from the distance before to that of the target, below the limit.
      have hsum : min ((cycleOf (pow2 lsbBits) current e - previous).toNat + previous.toNat)
          (pow2 32 - 1) = (cycleOf (pow2 lsbBits) current e).toNat := by
        have hlimit : (cycleOf (pow2 lsbBits) current e).toNat ≤ pow2 32 - 1 := by
          have hbound := Int.toNat_le.mpr hcycle
          rw [pow2_eq 32]
          exact hbound.trans (Nat.le_sub_one_of_lt hfew)
        rw [← Int.toNat_add (by omega) hprevious, Int.sub_add_cancel, Nat.min_eq_left hlimit]
      have hrest := ih hrest base (hprevious.trans hle) hchain
      rw [stepsFrom, entriesFrom, LongTermCount.accumulate, HeaderList.completeEntries,
        requestsFrom]
      dsimp only [Option.getD_some, Option.map_some]
      rw [hsum, hrest]

theorem refEntries_headerList {lsbBits : Nat} (hlsb : 0 < lsbBits) (hlsb32 : lsbBits ≤ 32)
    (hcurrent : CountFits current) (h : Codable (pow2 lsbBits) current targets)
    (candidates : Nat) :
    ((ownList (pow2 lsbBits) current targets).headerList candidates).refEntries =
      requestsFrom (pow2 lsbBits) current current targets :=
  completeEntries_eq hlsb hlsb32 hcurrent h.fits current le_rfl h.longTermSteps

/-! ### Finding the targets -/

/-- What a buffer holds of the targets of both lists. -/
structure Named (b : PictureBuffer) (layer : Nat) (targets : List RefTarget) : Prop where
  mem : ∀ t ∈ targets, t.stored ∈ b.entries
  isReference : ∀ t ∈ targets, t.stored.picture.isReference
  layer : ∀ t ∈ targets, t.stored.picture.layer = layer
  marking : ∀ t ∈ targets, ¬ t.isLongTerm → t.stored.picture.marking = .shortTerm
  /-- No picture is named for the short term and for the long term. -/
  apart : ∀ t ∈ targets, ∀ t' ∈ targets, ¬ t.isLongTerm → t'.isLongTerm →
    t'.stored.number ≠ t.stored.number

theorem wrapCount_eq {count : Int} (h : CountFits count) : wrapCount count = count := by
  rw [countFits_iff] at h
  rw [wrapCount, pow2_eq]
  exact Int.bmod_eq_of_le (by omega) (by omega)

theorem pickFrom_requestsFrom {b : PictureBuffer} {q : RefQuery} (base : Int)
    (hfits : ∀ t ∈ targets, CountFits t.stored.picture.orderCount)
    (hshort : ∀ e, shortTerm e ∈ targets →
      b.findShortTerm e.picture.orderCount q.layer = some e.number)
    (hlong : ∀ e, longTerm e ∈ targets →
      b.findLongTerm q (lsbOf q.maxLsb e) (some (cycleOf q.maxLsb current e).toNat) =
        some e.number) :
    b.pickFrom q base (requestsFrom q.maxLsb current base targets) = numbers targets := by
  induction targets generalizing base with
  | nil => rfl
  | cons t rest ih =>
    obtain ⟨ht, hrest⟩ := List.forall_mem_cons.mp hfits
    have ih := fun base => ih base hrest
      (fun e he => hshort e (List.mem_cons_of_mem _ he))
      (fun e he => hlong e (List.mem_cons_of_mem _ he))
    cases t with
    | shortTerm e =>
      have hcount : wrapCount (base + (e.picture.orderCount - base)) = e.picture.orderCount := by
        rw [add_sub_cancel]
        exact wrapCount_eq ht
      rw [requestsFrom, PictureBuffer.pickFrom, hcount, hshort e List.mem_cons_self, ih]
      rfl
    | longTerm e =>
      rw [requestsFrom, PictureBuffer.pickFrom, hlong e List.mem_cons_self, ih]
      rfl

theorem exists_of_longTerm_mem {maxLsb lsb : Nat} {msbCycle : Option Nat}
    (h : .longTerm lsb msbCycle ∈ requestsFrom maxLsb current base targets) :
    ∃ e, longTerm e ∈ targets ∧ lsb = lsbOf maxLsb e ∧
      msbCycle = some (cycleOf maxLsb current e).toNat := by
  induction targets generalizing base with
  | nil => exact absurd h List.not_mem_nil
  | cons t rest ih =>
    cases t with
    | shortTerm e =>
      rcases List.mem_cons.mp h with h | h
      · cases h
      · obtain ⟨e', he', heq⟩ := ih h
        exact ⟨e', List.mem_cons_of_mem _ he', heq⟩
    | longTerm e =>
      rcases List.mem_cons.mp h with h | h
      · obtain ⟨rfl, rfl⟩ := RefEntry.longTerm.inj h
        exact ⟨e, List.mem_cons_self, rfl, rfl⟩
      · obtain ⟨e', he', heq⟩ := ih h
        exact ⟨e', List.mem_cons_of_mem _ he', heq⟩

theorem lacksActive_numbers (request : RefRequest) (targets : List RefTarget) :
    PictureBuffer.lacksActive request (numbers targets) = false := by
  rw [PictureBuffer.lacksActive, List.any_eq_false]
  intro number hmem
  obtain ⟨t, -, rfl⟩ := List.mem_map.mp (List.mem_of_mem_take hmem)
  exact Bool.false_ne_true

/-- A query whose lists ask for targets. -/
structure Asks (q : RefQuery) (targets0 targets1 : List RefTarget) : Prop where
  codable0 : Codable q.maxLsb q.orderCount targets0
  codable1 : Codable q.maxLsb q.orderCount targets1
  list0 : q.list0.entries = requestsFrom q.maxLsb q.orderCount q.orderCount targets0
  list1 : q.list1.entries = requestsFrom q.maxLsb q.orderCount q.orderCount targets1

section Resolve

variable {b : PictureBuffer} {q : RefQuery} {targets0 targets1 : List RefTarget}

theorem Asks.cycleOf_nonneg (h : Asks q targets0 targets1) {e : StoredPicture}
    (he : longTerm e ∈ targets0 ++ targets1) : 0 ≤ cycleOf q.maxLsb q.orderCount e := by
  rcases List.mem_append.mp he with he | he
  · exact h.codable0.cycleOf_nonneg he
  · exact h.codable1.cycleOf_nonneg he

theorem Asks.exists_of_longTerm_mem (h : Asks q targets0 targets1) {lsb : Nat}
    {msbCycle : Option Nat}
    (hmem : .longTerm lsb msbCycle ∈ q.list0.entries ++ q.list1.entries) :
    ∃ e, longTerm e ∈ targets0 ++ targets1 ∧ lsb = lsbOf q.maxLsb e ∧
      msbCycle = some (cycleOf q.maxLsb q.orderCount e).toNat := by
  rw [h.list0, h.list1] at hmem
  rcases List.mem_append.mp hmem with hmem | hmem
  · obtain ⟨e, he, heq⟩ := RefTarget.exists_of_longTerm_mem hmem
    exact ⟨e, List.mem_append_left _ he, heq⟩
  · obtain ⟨e, he, heq⟩ := RefTarget.exists_of_longTerm_mem hmem
    exact ⟨e, List.mem_append_right _ he, heq⟩

/-- A long-term entry finds its target before the marking. -/
theorem Asks.findLongTerm_eq (h : Asks q targets0 targets1) (hpos : 0 < q.maxLsb)
    (hdistinct : b.CountsDistinct q.layer) (hnamed : Named b q.layer (targets0 ++ targets1))
    {e : StoredPicture} (he : longTerm e ∈ targets0 ++ targets1) :
    b.findLongTerm q (lsbOf q.maxLsb e) (some (cycleOf q.maxLsb q.orderCount e).toNat) =
      some e.number := by
  unfold PictureBuffer.findLongTerm
  dsimp only
  rw [count_eq hpos (h.cycleOf_nonneg he)]
  exact hdistinct.findReference_eq (hnamed.mem _ he) (hnamed.isReference _ he) (hnamed.layer _ he)

/-- Only long-term targets are promoted. -/
theorem Asks.notMem_promoted (h : Asks q targets0 targets1) (hpos : 0 < q.maxLsb)
    (hdistinct : b.CountsDistinct q.layer) (hnamed : Named b q.layer (targets0 ++ targets1))
    {e : StoredPicture} (he : shortTerm e ∈ targets0 ++ targets1) : e.number ∉ b.promoted q := by
  intro hmem
  obtain ⟨lsb, msbCycle, hrequest, hfind⟩ := PictureBuffer.mem_promoted.mp hmem
  obtain ⟨e', he', rfl, rfl⟩ := h.exists_of_longTerm_mem hrequest
  rw [h.findLongTerm_eq hpos hdistinct hnamed he'] at hfind
  exact hnamed.apart _ he _ he' Bool.false_ne_true rfl (Option.some.inj hfind)

/-- **Lists that ask for targets are resolved to them.** -/
theorem Asks.resolve_eq (h : Asks q targets0 targets1) (hpos : 0 < q.maxLsb) (hb : b.Coherent)
    (hdistinct : b.CountsDistinct q.layer) (hnamed : Named b q.layer (targets0 ++ targets1)) :
    (b.resolve q).1 =
      { list0 := numbers targets0, list1 := numbers targets1, missing := false } := by
  have hlong : ∀ e, longTerm e ∈ targets0 ++ targets1 →
      (b.promote q).findLongTerm q (lsbOf q.maxLsb e)
        (some (cycleOf q.maxLsb q.orderCount e).toNat) = some e.number := by
    intro e he
    rw [hb.findLongTerm_promote]
    exact h.findLongTerm_eq hpos hdistinct hnamed he
  have hshort : ∀ e, shortTerm e ∈ targets0 ++ targets1 →
      (b.promote q).findShortTerm e.picture.orderCount q.layer = some e.number := fun e he =>
    hdistinct.findShortTerm_promote (hnamed.mem _ he) (hnamed.marking _ he Bool.false_ne_true)
      (hnamed.layer _ he) (h.notMem_promoted hpos hdistinct hnamed he)
  have hpick0 : (b.promote q).pick q q.list0 = numbers targets0 := by
    rw [PictureBuffer.pick, h.list0]
    exact pickFrom_requestsFrom _ h.codable0.fits
      (fun e he => hshort e (List.mem_append_left _ he))
      fun e he => hlong e (List.mem_append_left _ he)
  have hpick1 : (b.promote q).pick q q.list1 = numbers targets1 := by
    rw [PictureBuffer.pick, h.list1]
    exact pickFrom_requestsFrom _ h.codable1.fits
      (fun e he => hshort e (List.mem_append_right _ he))
      fun e he => hlong e (List.mem_append_right _ he)
  unfold PictureBuffer.resolve
  dsimp only
  rw [hpick0, hpick1, lacksActive_numbers, lacksActive_numbers, Bool.or_false]

/-- The bits of ref_pic_lists() for the targets of both lists. -/
def listsBits (pps : Pps) (current : Int) (targets0 targets1 : List RefTarget) : List Bool :=
  RefLists.ownBits pps.sps.listRules pps.sps.references.candidates0
    pps.sps.references.candidates1 pps.references.choice1Coded
    (ownList pps.sps.maxLsb current targets0) (ownList pps.sps.maxLsb current targets1)

/-- **Lists that have been written for targets are read and resolved to these targets**, none
being missing, whatever else a slice with these lists says. -/
theorem read_resolve {pps : Pps} {current : Picture} (hb : b.Coherent)
    (hdistinct : b.CountsDistinct current.layer)
    (hnamed : Named b current.layer (targets0 ++ targets1))
    (hlsb : pps.sps.headers.lsbBits ≤ 16) (hlong : pps.sps.references.longTerm = true)
    (hweighted : pps.sps.references.weighted = false)
    (hweightedBi : pps.sps.references.weightedBi = false)
    (hcurrent : CountFits current.orderCount)
    (h0 : Codable pps.sps.maxLsb current.orderCount targets0)
    (h1 : Codable pps.sps.maxLsb current.orderCount targets1) (references : Nat)
    {r : BitReader} {rest : List Bool}
    (hr : r.unread = listsBits pps current.orderCount targets0 targets1 ++ rest) :
    ∃ lists r',
      (RefLists.read pps.sps.listRules pps.sps.references.candidates0
        pps.sps.references.candidates1 pps.references.choice1Coded references).run r =
          (.ok lists, r') ∧
      r'.unread = rest ∧
      ∀ (layers : Option LayerTable) (slice : SliceHeader), slice.pps = pps →
        slice.applied.lists = lists →
          (b.resolve (Decoder.queryOf layers slice current)).1 =
            { list0 := numbers targets0, list1 := numbers targets1, missing := false } := by
  have hpositive : 0 < pps.sps.listRules.lsbBits := Nat.succ_pos _
  have hlsb32 : pps.sps.listRules.lsbBits ≤ 32 := hlsb.trans (by decide)
  have hrules : pps.sps.listRules.weighted = false := by
    rw [Sps.listRules, hweighted, hweightedBi, Bool.or_false]
  have hread := RefLists.reads_read hpositive hlsb32
    (h0.ownList hlsb32 hlong hrules hcurrent references)
    (h1.ownList hlsb32 hlong hrules hcurrent references)
    pps.sps.references.candidates0 pps.sps.references.candidates1 pps.references.choice1Coded
  obtain ⟨r', hrun, hrest, -⟩ := hread r rest hr
  refine ⟨_, r', hrun, hrest, fun layers slice hpps hlists => ?_⟩
  subst hpps
  have hlist0 := refEntries_headerList hpositive hlsb32 hcurrent h0
    slice.pps.sps.references.candidates0.length
  have hlist1 := refEntries_headerList hpositive hlsb32 hcurrent h1
    slice.pps.sps.references.candidates1.length
  have hasks : Asks (Decoder.queryOf layers slice current) targets0 targets1 :=
    { codable0 := h0
      codable1 := h1
      list0 := by
        show slice.applied.lists.list0.refEntries = _
        rw [hlists]
        exact hlist0
      list1 := by
        show slice.applied.lists.list1.refEntries = _
        rw [hlists]
        exact hlist1 }
  exact hasks.resolve_eq (Nat.two_pow_pos _) hb hdistinct hnamed

end Resolve

/-- Reference pictures, one of them of another layer, and a picture that is unused. -/
def mixedBuffer : PictureBuffer where
  entries := [
    ⟨0, marked .shortTerm 0 0⟩, ⟨1, marked .longTerm 0 16⟩, ⟨2, marked .shortTerm 0 20⟩,
    ⟨3, marked .shortTerm 0 22⟩, ⟨4, marked .unused 0 22⟩, ⟨5, marked .shortTerm 1 20⟩]
  capacity := 6
  nextNumber := 6
where
  /-- A picture with a marking. -/
  marked (marking : Marking) (layer : Nat) (orderCount : Int) : Picture :=
    { layer, orderCount, marking }

/-- A picture parameter set with long-term references and a candidate for the second list. -/
def longTermPps : Pps where
  references := { choice1Coded := true }
  sps := { references := { longTerm := true, candidates1 := [{}] } }

def laterPicture : Picture := { orderCount := 24 }

/-- Targets of either kind for the first list. -/
def mixedTargets0 : List RefTarget := [
  .shortTerm ⟨3, mixedBuffer.marked .shortTerm 0 22⟩,
  .longTerm ⟨1, mixedBuffer.marked .longTerm 0 16⟩,
  .shortTerm ⟨2, mixedBuffer.marked .shortTerm 0 20⟩,
  .longTerm ⟨0, mixedBuffer.marked .shortTerm 0 0⟩]

def mixedTargets1 : List RefTarget := [
  .longTerm ⟨0, mixedBuffer.marked .shortTerm 0 0⟩,
  .shortTerm ⟨2, mixedBuffer.marked .shortTerm 0 20⟩]

/-- Picture 0 is promoted. -/
theorem read_resolve_mixed : ∃ lists r',
    (RefLists.read longTermPps.sps.listRules [] [{}] true 0).run
        (BitReader.ofBytes false [0x2d, 0x55, 0x06, 0x14, 0x69, 0x21, 0x50]) = (.ok lists, r') ∧
      r'.unread = [true, false, false, false, false] ∧
      ∀ layers slice, slice.pps = longTermPps → slice.applied.lists = lists →
        (mixedBuffer.resolve (Decoder.queryOf layers slice laterPicture)).1 =
          { list0 := [some 3, some 1, some 2, some 0], list1 := [some 0, some 2]
            missing := false } := by
  have hcoherent : mixedBuffer.Coherent := by decide
  have hdistinct : mixedBuffer.CountsDistinct laterPicture.layer := by decide
  have hnamed : Named mixedBuffer laterPicture.layer (mixedTargets0 ++ mixedTargets1) :=
    { mem := by decide, isReference := by decide, layer := by decide, marking := by decide
      apart := by decide }
  have h0 : Codable longTermPps.sps.maxLsb laterPicture.orderCount mixedTargets0 :=
    { length_le := by decide, fits := by decide, shortTermSteps := by decide
      longTermSteps := by decide }
  have h1 : Codable longTermPps.sps.maxLsb laterPicture.orderCount mixedTargets1 :=
    { length_le := by decide, fits := by decide, shortTermSteps := by decide
      longTermSteps := by decide }
  have hlsb : longTermPps.sps.headers.lsbBits ≤ 16 := by decide
  have hcurrent : CountFits laterPicture.orderCount := by decide
  have hbits : (BitReader.ofBytes false [0x2d, 0x55, 0x06, 0x14, 0x69, 0x21, 0x50]).unread =
      listsBits longTermPps laterPicture.orderCount mixedTargets0 mixedTargets1 ++
        [true, false, false, false, false] := by
    decide +kernel
  exact read_resolve hcoherent hdistinct hnamed hlsb rfl rfl rfl hcurrent h0 h1 0 hbits

end RefTarget

end CodedVideo
