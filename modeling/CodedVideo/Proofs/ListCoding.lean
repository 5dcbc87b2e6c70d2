import CodedVideo.Proofs.Reads
import CodedVideo.RefLists
import Mathlib.Data.List.Forall2

/-!
# Coding reference lists

The bits of a reference list structure (`ListStructure.bits`), and those of ref_pic_lists()
when a header gives both lists itself (`RefLists.ownBits`).  Every structure that keeps to
the rules (`ListStructure.Codable`) is read back from its bits
(`ListStructure.reads_read`).  What a header adds to long-term entries is read back too,
whether a structure holds the low bits already or not (`HeaderList.reads_readLongTerm_held`),
and so are the lists of a header with what it adds (`RefLists.reads_read`).
-/

namespace CodedVideo

open Nal (expGolombBits)
open Parse

/-- The bits of a flag that may be absent. -/
def flagBits (present value : Bool) : List Bool := if present then [value] else []

theorem Parse.reads_flagIf {present value : Bool} (h : present = false → value = false) :
    (flagIf present).Reads (flagBits present value) value := by
  cases present with
  | true => exact reads_flag value
  | false =>
    rw [h rfl]
    exact reads_pure false

/-! ### Entries -/

namespace ListEntry

/-- The bits of an entry. -/
def bits (rules : ListRules) : ListEntry → List Bool
  | interLayer reference => flagBits rules.interLayer true ++ expGolombBits reference
  | shortTerm coded distance =>
    flagBits rules.interLayer false ++ (flagBits rules.longTerm true ++
      (expGolombBits coded ++ flagBits (distance != 0) (distance < 0)))
  | longTerm lsb =>
    flagBits rules.interLayer false ++ (flagBits rules.longTerm false ++
      lsb.elim [] (lowBits rules.lsbBits))

/-- Whether the entry can be coded at an index, the low bits of long-term entries being
left to the header or not. -/
def Codable (rules : ListRules) (references : Nat) (lsbInHeader : Bool) (index : Nat) :
    ListEntry → Prop
  | interLayer reference => rules.interLayer = true ∧ reference < references ∧ reference < 2 ^ 32
  | shortTerm coded distance =>
    coded < 2 ^ 15 ∧
      distance.natAbs = if rules.weighted && index != 0 then coded else coded + 1
  | longTerm lsb =>
    rules.longTerm = true ∧ lsb.isNone = lsbInHeader ∧ ∀ value ∈ lsb, value < 2 ^ rules.lsbBits

end ListEntry

namespace ListStructure

variable {rules : ListRules} {references index : Nat} {lsbInHeader : Bool}

theorem reads_readInterLayer {reference : Nat} (h : reference < references)
    (h32 : reference < 2 ^ 32) :
    (readInterLayer references).Reads (expGolombBits reference) (.interLayer reference) := by
  have hpresent : (references == 0) = false := beq_eq_false_iff_ne.mpr (by omega)
  refine (reads_refuseIf hpresent _).bind_left ?_
  exact (reads_ueMax (by omega) h32).bind_right (reads_pure _)

theorem reads_readShortTerm {zeroAllowed : Bool} {coded : Nat} {distance : Int}
    (hcoded : coded < 2 ^ 15)
    (hdistance : distance.natAbs = if zeroAllowed then coded else coded + 1) :
    (readShortTerm zeroAllowed).Reads
      (expGolombBits coded ++ flagBits (distance != 0) (distance < 0))
      (.shortTerm coded distance) := by
  refine (reads_ueMax (by rw [pow2_eq]; omega) (by omega)).bind ?_
  dsimp only
  rw [← hdistance]
  have hsign : (distance != 0) = decide (distance.natAbs > 0) := by
    rw [Bool.eq_iff_iff, bne_iff_ne, decide_eq_true_iff]
    omega
  rw [hsign]
  refine (reads_flagIf (by simp; omega)).bind_right ?_
  have hvalue : (if decide (distance < 0) = true then -(distance.natAbs : Int)
      else distance.natAbs) = distance := by
    simp only [decide_eq_true_eq]
    split <;> omega
  rw [hvalue]
  exact reads_pure _

theorem reads_readEntry (hlsb : rules.lsbBits ≤ 32) {entry : ListEntry}
    (h : entry.Codable rules references lsbInHeader index) :
    (readEntry rules references lsbInHeader index).Reads (entry.bits rules) entry := by
  cases entry with
  | interLayer reference =>
    obtain ⟨hlayers, hreference, h32⟩ := h
    refine (reads_flagIf (by simp [hlayers])).bind ?_
    exact reads_readInterLayer hreference h32
  | shortTerm coded distance =>
    obtain ⟨hcoded, hdistance⟩ := h
    refine (reads_flagIf (fun _ => rfl)).bind ?_
    have hterm : (if rules.longTerm then flag else pure true).Reads
        (flagBits rules.longTerm true) true := by
      cases rules.longTerm with
      | true => exact reads_flag true
      | false => exact reads_pure true
    rw [if_neg Bool.false_ne_true]
    refine hterm.ite_bind ?_
    exact reads_readShortTerm hcoded hdistance
  | longTerm lsb =>
    obtain ⟨hlong, hnone, hvalue⟩ := h
    refine (reads_flagIf (fun _ => rfl)).bind ?_
    have hterm : (if rules.longTerm then flag else pure true).Reads
        (flagBits rules.longTerm false) false := by
      rw [hlong]
      exact reads_flag false
    rw [if_neg Bool.false_ne_true]
    refine hterm.ite_bind ?_
    dsimp only
    rw [if_neg Bool.false_ne_true, ← hnone]
    cases lsb with
    | none => exact reads_pure _
    | some value => exact (reads_u hlsb (hvalue value rfl)).bind_right (reads_pure _)

/-! ### Structures -/

/-- Whether the structure says where the low bits of its long-term entries are. -/
def saysPlace (rules : ListRules) (candidate : Bool) (s : ListStructure) : Bool :=
  rules.longTerm && candidate && s.size > 0

/-- The bits of a structure. -/
def bits (rules : ListRules) (candidate : Bool) (s : ListStructure) : List Bool :=
  expGolombBits s.size ++ (flagBits (saysPlace rules candidate s) s.lsbInHeader ++
    s.entries.flatMap (ListEntry.bits rules))

/-- A structure that can be coded. -/
structure Codable (rules : ListRules) (candidate : Bool) (references : Nat) (s : ListStructure) :
    Prop where
  size_le : s.size ≤ maxEntries
  lsbInHeader : saysPlace rules candidate s = false → s.lsbInHeader = true
  entries : ∀ i (hi : i < s.entries.length),
    s.entries[i].Codable rules references s.lsbInHeader i

/-- **A structure is read back from its bits.** -/
theorem reads_read (hlsb : rules.lsbBits ≤ 32) {candidate : Bool} {s : ListStructure}
    (h : s.Codable rules candidate references) :
    (read rules candidate references).Reads (s.bits rules candidate) s := by
  have hsize := h.size_le
  have hmax : maxEntries = 28 := rfl
  refine (reads_ueMax hsize (by omega)).bind ?_
  have hplace : (if rules.longTerm && candidate && s.size > 0 then flag else pure true).Reads
      (flagBits (saysPlace rules candidate s) s.lsbInHeader) s.lsbInHeader := by
    change (if saysPlace rules candidate s then flag else pure true).Reads _ _
    cases hsays : saysPlace rules candidate s with
    | true => exact reads_flag _
    | false =>
      rw [h.lsbInHeader hsays]
      exact reads_pure true
  refine hplace.ite_bind ?_
  have hentries : (collect s.size (readEntry rules references s.lsbInHeader)).Reads
      (s.entries.flatMap (ListEntry.bits rules)) s.entries :=
    reads_collect fun i hi => reads_readEntry hlsb (h.entries i hi)
  exact hentries.bind_right (reads_pure _)

end ListStructure

/-! ### What a header adds to long-term entries -/

namespace LongTermCount

/-- What applies to long-term entries whose low bits and steps of the high part a header
gives, the distance of the high part before them being `previous`. -/
def accumulate : (previous : Nat) → List (Nat × Option Nat) → List LongTermCount
  | _, [] => []
  | previous, (lsb, step) :: rest =>
    let cycle := min (step.getD 0 + previous) (pow2 32 - 1)
    { codedLsb := some lsb, codedCycle := step, lsb, cycle } :: accumulate cycle rest

/-- The bits of low bits and a step. -/
def stepBits (lsbBits : Nat) (added : Nat × Option Nat) : List Bool :=
  lowBits lsbBits added.1 ++ (flagBits true added.2.isSome ++ added.2.elim [] expGolombBits)

/-- The same where the low bits may be held already; then they are left out. -/
def heldBits (lsbBits : Nat) (held : Option Nat) (added : Nat × Option Nat) : List Bool :=
  (if held.isSome then [] else lowBits lsbBits added.1) ++
    (flagBits true added.2.isSome ++ added.2.elim [] expGolombBits)

/-- What applies to an entry, as it is read where its low bits may be held already. -/
def withHeld (held : Option Nat) (count : LongTermCount) : LongTermCount :=
  if held.isSome then { count with codedLsb := none } else count

/-- Low bits and a step that can be coded. -/
structure Codable (lsbBits : Nat) (added : Nat × Option Nat) : Prop where
  lsb_lt : added.1 < 2 ^ lsbBits
  step_le : ∀ step ∈ added.2, step ≤ 2 ^ (32 - lsbBits)

end LongTermCount

namespace HeaderList

open LongTermCount (accumulate heldBits stepBits withHeld)

variable {lsbBits : Nat}

theorem reads_step (hlsb : 0 < lsbBits) {step : Option Nat}
    (h : ∀ value ∈ step, value ≤ 2 ^ (32 - lsbBits)) :
    (if step.isSome then some <$> ueMax (pow2 (32 - lsbBits)) else pure none).Reads
      (step.elim [] expGolombBits) step := by
  cases step with
  | none => exact reads_pure none
  | some value =>
    have hle := h value rfl
    have hlt : 2 ^ (32 - lsbBits) < 2 ^ 32 := Nat.pow_lt_pow_right (by omega) (by omega)
    exact (reads_ueMax hle (hle.trans_lt hlt)).bind_right (reads_pure (some value))

/-- What a header adds is read back, where the low bits that are held already are those that
apply. -/
theorem reads_readLongTerm_held (hlsb : 0 < lsbBits) (hlsb32 : lsbBits ≤ 32) (previous : Nat)
    {lsbs : List (Option Nat)} {steps : List (Nat × Option Nat)}
    (hheld : List.Forall₂ (fun held added => ∀ lsb ∈ held, lsb = added.1) lsbs steps)
    (h : ∀ added ∈ steps, LongTermCount.Codable lsbBits added) :
    (readLongTerm lsbBits previous lsbs).Reads (List.zipWith (heldBits lsbBits) lsbs steps).flatten
      (List.zipWith withHeld lsbs (accumulate previous steps)) := by
  induction hheld generalizing previous with
  | nil => exact reads_pure []
  | @cons held added lsbs steps hadded _ ih =>
    obtain ⟨lsb, step⟩ := added
    obtain ⟨hcodable, hsteps⟩ := List.forall_mem_cons.mp h
    rw [List.zipWith_cons_cons, List.flatten_cons, heldBits, List.append_assoc, List.append_assoc]
    cases held with
    | some value =>
      obtain rfl : value = lsb := hadded value rfl
      refine (reads_pure none).bind ((reads_flag step.isSome).bind ?_)
      refine (reads_step hlsb hcodable.step_le).ite_bind ?_
      exact (ih _ hsteps).bind_right (reads_pure _)
    | none =>
      have hread : (some <$> u lsbBits : Parse (Option Nat)).Reads (lowBits lsbBits lsb)
          (some lsb) :=
        (reads_u hlsb32 hcodable.lsb_lt).bind_right (reads_pure (some lsb))
      refine hread.bind ((reads_flag step.isSome).bind ?_)
      refine (reads_step hlsb hcodable.step_le).ite_bind ?_
      exact (ih _ hsteps).bind_right (reads_pure _)

theorem length_accumulate (previous : Nat) (steps : List (Nat × Option Nat)) :
    (accumulate previous steps).length = steps.length := by
  induction steps generalizing previous with
  | nil => rfl
  | cons added steps ih => exact congrArg (· + 1) (ih _)

/-- What a header adds is read back where it gives all low bits. -/
theorem reads_readLongTerm (hlsb : 0 < lsbBits) (hlsb32 : lsbBits ≤ 32) (previous : Nat)
    {steps : List (Nat × Option Nat)} (h : ∀ added ∈ steps, LongTermCount.Codable lsbBits added) :
    (readLongTerm lsbBits previous (List.replicate steps.length none)).Reads
      (steps.flatMap (stepBits lsbBits)) (accumulate previous steps) := by
  have hheld : List.Forall₂ (fun (held : Option Nat) (added : Nat × Option Nat) =>
      ∀ lsb ∈ held, lsb = added.1) (steps.map fun _ => none) steps :=
    List.forall₂_map_left_iff.mpr (List.forall₂_same.mpr fun _ _ _ hlsb => nomatch hlsb)
  have hread := reads_readLongTerm_held hlsb hlsb32 previous hheld h
  have hbits : List.zipWith (heldBits lsbBits) (steps.map fun _ => none) steps =
      steps.map (stepBits lsbBits) := by
    rw [List.zipWith_map_left, List.zipWith_self]
    rfl
  have hcounts : List.zipWith withHeld (steps.map fun _ => none) (accumulate previous steps) =
      accumulate previous steps := by
    rw [List.map_const', ← length_accumulate previous steps, ← List.map_const',
      List.zipWith_map_left, List.zipWith_self]
    exact List.map_id _
  rw [hbits, hcounts, List.map_const', ← List.flatMap_def] at hread
  exact hread

end HeaderList

/-! ### Lists that a header gives itself -/

/-- A reference list that a header gives itself: the entries, and what the header adds to
the long-term ones. -/
structure OwnList where
  entries : List ListEntry
  steps : List (Nat × Option Nat)

namespace OwnList

def content (l : OwnList) : ListStructure := { lsbInHeader := true, entries := l.entries }

/-- The list as it is read beside a number of candidates. -/
def headerList (candidates : Nat) (l : OwnList) : HeaderList where
  index := candidates
  content := l.content
  longTerm := LongTermCount.accumulate 0 l.steps

/-- The bits of the list.  If there is a choice, they start with the flag that no candidate
is selected. -/
def bits (rules : ListRules) (choice : Bool) (l : OwnList) : List Bool :=
  flagBits choice false ++ (l.content.bits rules false ++
    l.steps.flatMap (LongTermCount.stepBits rules.lsbBits))

/-- A list that can be coded. -/
structure Codable (rules : ListRules) (references : Nat) (l : OwnList) : Prop where
  content : l.content.Codable rules false references
  length_steps : l.steps.length = l.content.longTermCount
  steps : ∀ added ∈ l.steps, LongTermCount.Codable rules.lsbBits added

variable {rules : ListRules} {references : Nat} {l : OwnList}

/-- Such a list leaves all low bits to the header. -/
theorem Codable.longTermLsbs_eq (h : l.Codable rules references) :
    l.content.longTermLsbs = List.replicate l.steps.length none := by
  refine List.eq_replicate_iff.mpr ⟨h.length_steps.symm, ?_⟩
  intro lsb hlsb
  obtain ⟨entry, hentry, hsome⟩ := List.mem_filterMap.mp hlsb
  obtain ⟨i, hi, rfl⟩ := List.getElem_of_mem hentry
  have hcodable := h.content.entries i hi
  generalize l.content.entries[i] = entry at hsome hcodable
  cases entry with
  | longTerm lsb' =>
    obtain rfl := Option.some.inj hsome
    exact Option.isNone_iff_eq_none.mp hcodable.2.1
  | shortTerm => cases hsome
  | interLayer => cases hsome

/-- **A list is read back from its bits**, where the list before has selected no candidate. -/
theorem reads_read (hlsb : 0 < rules.lsbBits) (hlsb32 : rules.lsbBits ≤ 32)
    (h : l.Codable rules references) (candidates : List ListStructure) (list : Nat)
    (choiceCoded : Bool) {previous : HeaderList} (hprevious : previous.candidate = none) :
    (HeaderList.read rules candidates references list choiceCoded previous).Reads
      (l.bits rules (candidates.length > 0 && choiceCoded)) (l.headerList candidates.length) := by
  have hselect : (if candidates.length > 0 && choiceCoded then flag
      else pure (candidates.length > 0 && previous.candidate.isSome)).Reads
      (flagBits (candidates.length > 0 && choiceCoded) false) false := by
    rw [hprevious, Option.isSome_none, Bool.and_false]
    cases candidates.length > 0 && choiceCoded with
    | true => exact reads_flag false
    | false => exact reads_pure false
  have hsteps := HeaderList.reads_readLongTerm hlsb hlsb32 0 h.steps
  rw [← h.longTermLsbs_eq] at hsteps
  refine hselect.ite_bind ?_
  refine (ListStructure.reads_read hlsb32 h.content).bind ?_
  exact hsteps.bind_right (reads_pure _)

end OwnList

namespace RefLists

/-- The bits of ref_pic_lists() for lists that a header gives itself. -/
def ownBits (rules : ListRules) (candidates0 candidates1 : List ListStructure)
    (choice1Coded : Bool) (l0 l1 : OwnList) : List Bool :=
  l0.bits rules (candidates0.length > 0 && true) ++
    l1.bits rules (candidates1.length > 0 && choice1Coded)

/-- **Both lists of a header are read back.** -/
theorem reads_read {rules : ListRules} (hlsb : 0 < rules.lsbBits) (hlsb32 : rules.lsbBits ≤ 32)
    {references : Nat} {l0 l1 : OwnList} (h0 : l0.Codable rules references)
    (h1 : l1.Codable rules references) (candidates0 candidates1 : List ListStructure)
    (choice1Coded : Bool) :
    (read rules candidates0 candidates1 choice1Coded references).Reads
      (ownBits rules candidates0 candidates1 choice1Coded l0 l1)
      { list0 := l0.headerList candidates0.length, list1 := l1.headerList candidates1.length } := by
  refine (OwnList.reads_read hlsb hlsb32 h0 candidates0 0 true rfl).bind ?_
  exact (OwnList.reads_read hlsb hlsb32 h1 candidates1 1 choice1Coded rfl).bind_right (reads_pure _)

end RefLists

end CodedVideo
