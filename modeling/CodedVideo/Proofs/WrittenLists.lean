import CodedVideo.Proofs.ListCoding
import Mathlib.Tactic

/-!
# Writing reference list structures

`ListStructure.plainBits` writes a reference list structure for what its entries are to say
(`PlainEntry`), in the order of its syntax.  How a distance is coded depends on the index of
its entry, and whether low bits are written depends on where the structure is found; but the
bits are those of a structure that can be coded (`plainBits_eq`), and so they are read back
(`exists_read_plainBits`).
-/

namespace CodedVideo

open Nal (expGolombBits)

/-- What an entry of a reference list is to say. -/
inductive PlainEntry where
  /-- The picture of the same time in a layer that the current one refers to. -/
  | interLayer (reference : Nat)
  /-- The short-term picture at a distance of order counts. -/
  | shortTerm (delta : Int)
  /-- The long-term picture with these low bits of the order count. -/
  | longTerm (lsb : Nat)
  deriving DecidableEq, Repr

namespace PlainEntry

variable {rules : ListRules} {references index : Nat} {lsbInHeader : Bool}

/-- Whether the distance at an index may be zero. -/
def zeroAllowed (rules : ListRules) (index : Nat) : Bool := rules.weighted && index != 0

/-- The magnitude that is written for a distance. -/
def magnitude (rules : ListRules) (index : Nat) (delta : Int) : Nat :=
  if zeroAllowed rules index then delta.natAbs else delta.natAbs - 1

/-- The bits of an entry.  The flags for the kinds that cannot occur are left out. -/
def bits (rules : ListRules) (lsbInHeader : Bool) (index : Nat) : PlainEntry → List Bool
  | interLayer reference => flagBits rules.interLayer true ++ expGolombBits reference
  | shortTerm delta =>
    flagBits rules.interLayer false ++ (flagBits rules.longTerm true ++
      (expGolombBits (magnitude rules index delta) ++ flagBits (delta != 0) (delta < 0)))
  | longTerm lsb =>
    flagBits rules.interLayer false ++ (flagBits rules.longTerm false ++
      if lsbInHeader then [] else lowBits rules.lsbBits lsb)

/-- Whether the entry can be written at an index. -/
def Codable (rules : ListRules) (references index : Nat) : PlainEntry → Prop
  | interLayer reference => rules.interLayer = true ∧ reference < references ∧ reference < 2 ^ 32
  | shortTerm delta =>
    if zeroAllowed rules index then delta.natAbs ≤ 2 ^ 15 - 1
    else 1 ≤ delta.natAbs ∧ delta.natAbs ≤ 2 ^ 15
  | longTerm lsb => rules.longTerm = true ∧ lsb < 2 ^ rules.lsbBits

instance (e : PlainEntry) : Decidable (e.Codable rules references index) :=
  match e with
  | interLayer reference => inferInstanceAs
    (Decidable (rules.interLayer = true ∧ reference < references ∧ reference < 2 ^ 32))
  | shortTerm delta => inferInstanceAs (Decidable (if zeroAllowed rules index = true
    then delta.natAbs ≤ 2 ^ 15 - 1 else 1 ≤ delta.natAbs ∧ delta.natAbs ≤ 2 ^ 15))
  | longTerm lsb => inferInstanceAs (Decidable (rules.longTerm = true ∧ lsb < 2 ^ rules.lsbBits))

/-- The entry as it is read. -/
def coded (rules : ListRules) (lsbInHeader : Bool) (index : Nat) : PlainEntry → ListEntry
  | interLayer reference => .interLayer reference
  | shortTerm delta => .shortTerm (magnitude rules index delta) delta
  | longTerm lsb => .longTerm (if lsbInHeader then none else some lsb)

/-- The low bits of a long-term entry. -/
def lsb? : PlainEntry → Option Nat
  | longTerm lsb => some lsb
  | _ => none

/-- Whether the entry names a long-term picture. -/
def isLongTerm : PlainEntry → Bool
  | longTerm _ => true
  | _ => false

theorem isLongTerm_eq (e : PlainEntry) : e.isLongTerm = e.lsb?.isSome := by
  cases e <;> rfl

theorem bits_coded (e : PlainEntry) :
    (e.coded rules lsbInHeader index).bits rules = e.bits rules lsbInHeader index := by
  cases e with
  | interLayer reference => rfl
  | shortTerm delta => rfl
  | longTerm lsb => cases lsbInHeader <;> rfl

/-- The magnitude of a distance that can be written fits, and stands for it. -/
theorem Codable.magnitude {delta : Int} (h : (shortTerm delta).Codable rules references index) :
    magnitude rules index delta < 2 ^ 15 ∧
      delta.natAbs = if zeroAllowed rules index then magnitude rules index delta
        else magnitude rules index delta + 1 := by
  unfold Codable at h
  unfold PlainEntry.magnitude
  cases hzero : zeroAllowed rules index with
  | true =>
    rw [hzero] at h
    exact ⟨Nat.lt_of_le_pred (by decide) h, rfl⟩
  | false =>
    rw [hzero] at h
    obtain ⟨hlow, hhigh⟩ := h
    exact ⟨by rw [if_neg Bool.false_ne_true]; omega, (Nat.sub_add_cancel hlow).symm⟩

theorem Codable.coded {e : PlainEntry} (h : e.Codable rules references index) :
    (e.coded rules lsbInHeader index).Codable rules references lsbInHeader index := by
  cases e with
  | interLayer reference => exact h
  | shortTerm delta =>
    exact h.magnitude
  | longTerm lsb =>
    obtain ⟨hlong, hlsb⟩ := h
    cases lsbInHeader with
    | true => exact ⟨hlong, rfl, fun value hvalue => nomatch hvalue⟩
    | false =>
      refine ⟨hlong, rfl, fun value hvalue => ?_⟩
      obtain rfl := Option.some.inj hvalue
      exact hlsb

end PlainEntry

namespace ListStructure

variable {rules : ListRules} {candidate lsbInHeader : Bool} {plan : List PlainEntry}

/-- Whether a structure with entries that are to say `plan` tells where the low bits are. -/
def plainPlace (rules : ListRules) (candidate : Bool) (plan : List PlainEntry) : Bool :=
  rules.longTerm && candidate && plan.length > 0

/-- Where the low bits are found: in the header unless the structure tells otherwise. -/
def plainInHeader (rules : ListRules) (candidate lsbInHeader : Bool) (plan : List PlainEntry) :
    Bool :=
  if plainPlace rules candidate plan then lsbInHeader else true

/-- The bits of a structure with entries that are to say `plan`: their number, where the low
bits are found if that is to be told, and the entries. -/
def plainBits (rules : ListRules) (candidate lsbInHeader : Bool) (plan : List PlainEntry) :
    List Bool :=
  expGolombBits plan.length ++ (flagBits (plainPlace rules candidate plan) lsbInHeader ++
    (plan.mapIdx
      (PlainEntry.bits rules (plainInHeader rules candidate lsbInHeader plan))).flatten)

/-- The structure as it is read. -/
def ofPlan (rules : ListRules) (candidate lsbInHeader : Bool) (plan : List PlainEntry) :
    ListStructure where
  lsbInHeader := plainInHeader rules candidate lsbInHeader plan
  entries := plan.mapIdx (PlainEntry.coded rules (plainInHeader rules candidate lsbInHeader plan))

theorem size_ofPlan : (ofPlan rules candidate lsbInHeader plan).size = plan.length :=
  List.length_mapIdx

theorem saysPlace_ofPlan : saysPlace rules candidate (ofPlan rules candidate lsbInHeader plan) =
    plainPlace rules candidate plan := by
  rw [saysPlace, size_ofPlan, plainPlace]

/-- **What is written are the bits of the structure.** -/
theorem plainBits_eq (rules : ListRules) (candidate lsbInHeader : Bool)
    (plan : List PlainEntry) : plainBits rules candidate lsbInHeader plan =
      (ofPlan rules candidate lsbInHeader plan).bits rules candidate := by
  have hplace : flagBits (plainPlace rules candidate plan) lsbInHeader =
      flagBits (plainPlace rules candidate plan)
        (ofPlan rules candidate lsbInHeader plan).lsbInHeader := by
    unfold ofPlan plainInHeader
    cases plainPlace rules candidate plan <;> rfl
  have hentries : (ofPlan rules candidate lsbInHeader plan).entries.flatMap
      (ListEntry.bits rules) = (plan.mapIdx (PlainEntry.bits rules
        (plainInHeader rules candidate lsbInHeader plan))).flatten := by
    rw [List.flatMap_def, ofPlan, List.mapIdx_eq_zipIdx_map, List.mapIdx_eq_zipIdx_map,
      List.map_map]
    congr 2
    funext ⟨e, i⟩
    exact e.bits_coded
  rw [plainBits, bits, size_ofPlan, saysPlace_ofPlan, hplace, hentries]

theorem codable_ofPlan {references : Nat} (hsize : plan.length ≤ maxEntries)
    (h : ∀ i (hi : i < plan.length), plan[i].Codable rules references i) :
    (ofPlan rules candidate lsbInHeader plan).Codable rules candidate references where
  size_le := size_ofPlan.trans_le hsize
  lsbInHeader htold := by
    rw [saysPlace_ofPlan] at htold
    rw [ofPlan, plainInHeader, if_neg (by rw [htold]; decide)]
  entries i hi := by
    have hi' : i < plan.length := hi.trans_eq size_ofPlan
    have hentry : (ofPlan rules candidate lsbInHeader plan).entries[i] = plan[i].coded rules
        (plainInHeader rules candidate lsbInHeader plan) i := List.getElem_mapIdx
    rw [hentry]
    exact (h i hi').coded

/-- What a structure has to hold if its entries say what `plan` says: their number, the kind
of each, every distance and every layer, the low bits in the order of the long-term entries
unless they are left to the header, and the number of these entries. -/
structure Restates (s : ListStructure) (inHeader : Bool) (plan : List PlainEntry) : Prop where
  lsbInHeader : s.lsbInHeader = inHeader
  size : s.size = plan.length
  interLayer : ∀ (i : Nat) reference, plan[i]? = some (.interLayer reference) →
    s.entries[i]? = some (.interLayer reference)
  shortTerm : ∀ (i : Nat) delta, plan[i]? = some (.shortTerm delta) →
    ∃ coded, s.entries[i]? = some (.shortTerm coded delta)
  longTerm : ∀ (i : Nat) lsb, plan[i]? = some (.longTerm lsb) →
    ∃ held, s.entries[i]? = some (.longTerm held)
  longTermLsbs : s.longTermLsbs =
    (plan.filterMap PlainEntry.lsb?).map fun lsb => if inHeader then none else some lsb
  longTermCount : s.longTermCount = plan.countP PlainEntry.isLongTerm

theorem getElem?_ofPlan {i : Nat} {e : PlainEntry} (h : plan[i]? = some e) :
    (ofPlan rules candidate lsbInHeader plan).entries[i]? =
      some (e.coded rules (plainInHeader rules candidate lsbInHeader plan) i) := by
  rw [ofPlan, List.getElem?_mapIdx, h, Option.map_some]

theorem longTermLsbs_ofPlan : (ofPlan rules candidate lsbInHeader plan).longTermLsbs =
    (plan.filterMap PlainEntry.lsb?).map fun lsb =>
      if plainInHeader rules candidate lsbInHeader plan then none else some lsb := by
  unfold longTermLsbs ofPlan
  dsimp only
  generalize plainInHeader rules candidate lsbInHeader plan = inHeader
  rw [List.mapIdx_eq_zipIdx_map, List.filterMap_map, List.map_filterMap]
  conv_rhs => rw [← List.zipIdx_map_fst 0 plan, List.filterMap_map]
  congr 1
  funext ⟨e, i⟩
  cases e <;> rfl

theorem longTermCount_ofPlan : (ofPlan rules candidate lsbInHeader plan).longTermCount =
    plan.countP PlainEntry.isLongTerm := by
  rw [longTermCount, longTermLsbs_ofPlan, List.length_map, List.length_filterMap_eq_countP]
  congr 1
  funext e
  exact e.isLongTerm_eq.symm

theorem restates_ofPlan : (ofPlan rules candidate lsbInHeader plan).Restates
    (plainInHeader rules candidate lsbInHeader plan) plan where
  lsbInHeader := rfl
  size := size_ofPlan
  interLayer _ _ h := getElem?_ofPlan h
  shortTerm _ _ h := ⟨_, getElem?_ofPlan h⟩
  longTerm _ _ h := ⟨_, getElem?_ofPlan h⟩
  longTermLsbs := longTermLsbs_ofPlan
  longTermCount := longTermCount_ofPlan

/-- **A structure is read back from what has been written for it**: at most 28 entries that
can be coded, with the low bits in the header or not, wherever the structure is found.
Reading takes exactly the written bits. -/
theorem exists_read_plainBits (hlsb : rules.lsbBits ≤ 32) {references : Nat}
    (hsize : plan.length ≤ 28)
    (h : ∀ i (hi : i < plan.length), plan[i].Codable rules references i)
    (candidate lsbInHeader : Bool) {r : BitReader} {rest : List Bool}
    (hr : r.unread = plainBits rules candidate lsbInHeader plan ++ rest) :
    ∃ s r', (read rules candidate references).run r = (.ok s, r') ∧
      s.Restates (plainInHeader rules candidate lsbInHeader plan) plan ∧
      r'.unread = rest ∧
      r'.position = r.position + (plainBits rules candidate lsbInHeader plan).length := by
  rw [plainBits_eq] at hr ⊢
  have hcodable : (ofPlan rules candidate lsbInHeader plan).Codable rules candidate references :=
    codable_ofPlan hsize h
  obtain ⟨r', hrun, hrest, hposition⟩ := reads_read hlsb hcodable r rest hr
  exact ⟨_, r', hrun, restates_ofPlan, hrest, hposition⟩

/-- Entries of all kinds: the distance -1 at the front, the distance 0 behind it, two
long-term entries, and the second one of two layers. -/
def mixedPlan : List PlainEntry :=
  [.shortTerm (-1), .longTerm 5, .shortTerm 0, .interLayer 1, .longTerm 14]

/-- All kinds of entries, weights, and order counts with four low bits. -/
def mixedRules : ListRules where
  longTerm := true
  interLayer := true
  weighted := true
  lsbBits := 4

/-- They take 29 bits. -/
theorem exists_read_plainBits_mixed :
    (∀ i (hi : i < mixedPlan.length), mixedPlan[i].Codable mixedRules 2 i) ∧
    ∃ s r', (read mixedRules true 2).run (.ofBytes false [0x31, 0xc5, 0x74, 0x74]) =
        (.ok s, r') ∧
      s.Restates false mixedPlan ∧ r'.unread = [true, false, false] ∧ r'.position = 29 := by
  have hcodable : ∀ i (hi : i < mixedPlan.length), mixedPlan[i].Codable mixedRules 2 i := by
    decide
  have hunread : (BitReader.ofBytes false [0x31, 0xc5, 0x74, 0x74]).unread =
      plainBits mixedRules true false mixedPlan ++ [true, false, false] := by
    decide +kernel
  have hlength : (BitReader.ofBytes false [0x31, 0xc5, 0x74, 0x74]).position +
      (plainBits mixedRules true false mixedPlan).length = 29 := by
    decide +kernel
  obtain ⟨s, r', hrun, hs, hrest, hposition⟩ :=
    exists_read_plainBits (by decide) (by decide) hcodable true false hunread
  exact ⟨hcodable, s, r', hrun, hs, hrest, hposition.trans hlength⟩

end ListStructure

end CodedVideo
