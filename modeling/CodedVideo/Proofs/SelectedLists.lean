import CodedVideo.Proofs.ListResolution
import CodedVideo.Proofs.StoredCandidates

/-!
# Selected and explicit reference lists

A header gives a reference list by the index of a candidate or writes it out.  The two are
coded differently: the choice for the second list may follow that for the first one, and the
low bits of long-term entries are those of the candidate or sent along.  `SelectedList` is
a candidate with what applies to its long-term entries; its bits are read back as the
candidate (`SelectedList.reads_read`), and those of `SelectedList.own` as a list of the header
itself.  Candidates can be coded again, so both are read, and they have the same entries
(`RefLists.selected_own_agree`).
-/

namespace CodedVideo

open Parse
open LongTermCount (accumulate heldBits withHeld)

/-! ### Indices -/

theorem lt_pow_ceilLog2 {i n : Nat} (h : i < n) : i < 2 ^ ceilLog2 n := by
  unfold ceilLog2
  split
  case isTrue hle => omega
  case isFalse hle =>
    have hlog : n - 1 < 2 ^ ((n - 1).log2 + 1) := Nat.lt_log2_self
    omega

theorem ceilLog2_le {n k : Nat} (h : n ≤ 2 ^ k) : ceilLog2 n ≤ k := by
  unfold ceilLog2
  split
  case isTrue => exact Nat.zero_le k
  case isFalse hle => exact (Nat.log2_lt (by omega)).mpr (by omega)

theorem Parse.reads_uMax {n value hi : Nat} (hn : n ≤ 32) (h : value < 2 ^ n) (hle : value ≤ hi) :
    (uMax n hi).Reads (lowBits n value) value := by
  refine (reads_u hn h).bind_right ?_
  exact (reads_inRange (by omega) (by omega)).bind_left (reads_pure value)

/-! ### Entries -/

namespace ListEntry

/-- The entry without the low bits of a long-term one. -/
def withoutLsb : ListEntry → ListEntry
  | longTerm _ => longTerm none
  | entry => entry

theorem withoutLsb_withoutLsb (entry : ListEntry) :
    entry.withoutLsb.withoutLsb = entry.withoutLsb := by
  cases entry <;> rfl

/-- An entry that can be coded can be so with the low bits in the header. -/
theorem Codable.withoutLsb {rules : ListRules} {references index : Nat} {lsbInHeader : Bool}
    {entry : ListEntry} (h : entry.Codable rules references lsbInHeader index) :
    entry.withoutLsb.Codable rules references true index := by
  cases entry with
  | interLayer reference => exact h
  | shortTerm coded distance => exact h
  | longTerm lsb => exact ⟨h.1, rfl, fun _ hvalue => nomatch hvalue⟩

end ListEntry

namespace ListStructure

theorem longTermLsbs_withoutLsb (s : ListStructure) (lsbInHeader : Bool) :
    longTermLsbs { lsbInHeader, entries := s.entries.map ListEntry.withoutLsb } =
      s.longTermLsbs.map fun _ => none := by
  unfold longTermLsbs
  rw [List.filterMap_map, List.map_filterMap]
  congr 1
  funext entry
  cases entry <;> rfl

end ListStructure

/-- What counts of a long-term entry: its low bits, whether a step of the high part is given,
and the distance of the high part. -/
def LongTermCount.applied (count : LongTermCount) : Nat × Bool × Nat :=
  (count.lsb, count.codedCycle.isSome, count.cycle)

/-- Both lists have the same entries, whether they have been selected or not: as many, as many
long-term ones among them, of the same kinds with the same distances and layers, and with the
same low and high parts of long-term ones. -/
structure HeaderList.SameEntries (a b : HeaderList) : Prop where
  size : a.size = b.size
  longTermCount : a.content.longTermCount = b.content.longTermCount
  entries : a.content.entries.map ListEntry.withoutLsb = b.content.entries.map ListEntry.withoutLsb
  longTerm : a.longTerm.map LongTermCount.applied = b.longTerm.map LongTermCount.applied

namespace HeaderList

theorem completeEntries_withoutLsb (counts : List LongTermCount) (entries : List ListEntry) :
    completeEntries counts (entries.map ListEntry.withoutLsb) = completeEntries counts entries := by
  induction entries generalizing counts with
  | nil => rfl
  | cons entry rest ih =>
    cases entry with
    | interLayer reference => exact congrArg (_ :: ·) (ih counts)
    | shortTerm coded distance => exact congrArg (_ :: ·) (ih counts)
    | longTerm lsb =>
      cases counts with
      | nil => exact congrArg (_ :: ·) (ih [])
      | cons count counts => exact congrArg (_ :: ·) (ih counts)

/-- A long-term entry asks for what applies to it. -/
theorem longTerm_eq_of_applied {count count' : LongTermCount}
    (h : count.applied = count'.applied) :
    RefEntry.longTerm count.lsb (count.codedCycle.map fun _ => count.cycle) =
      RefEntry.longTerm count'.lsb (count'.codedCycle.map fun _ => count'.cycle) := by
  obtain ⟨codedLsb, step, lsb, cycle⟩ := count
  obtain ⟨codedLsb', step', lsb', cycle'⟩ := count'
  simp only [LongTermCount.applied, Prod.mk.injEq] at h
  obtain ⟨rfl, hstep, rfl⟩ := h
  cases step with
  | none =>
    cases step' with
    | none => rfl
    | some value => cases hstep
  | some value =>
    cases step' with
    | none => cases hstep
    | some value' => rfl

/-- The buffer is asked for the same entries if the same counts apply. -/
theorem completeEntries_eq_of_applied {counts counts' : List LongTermCount}
    (h : counts.map LongTermCount.applied = counts'.map LongTermCount.applied)
    (entries : List ListEntry) :
    completeEntries counts entries = completeEntries counts' entries := by
  induction entries generalizing counts counts' with
  | nil => rfl
  | cons entry rest ih =>
    cases entry with
    | interLayer reference => exact congrArg (_ :: ·) (ih h)
    | shortTerm coded distance => exact congrArg (_ :: ·) (ih h)
    | longTerm lsb =>
      cases counts with
      | nil =>
        obtain rfl := List.map_eq_nil_iff.mp h.symm
        rfl
      | cons count counts =>
        cases counts' with
        | nil => cases h
        | cons count' counts' =>
          obtain ⟨hcount, hcounts⟩ := List.cons.inj h
          rw [completeEntries, completeEntries, ih hcounts, longTerm_eq_of_applied hcount]

/-- **Lists with the same entries ask the buffer for the same pictures.** -/
theorem SameEntries.refEntries_eq {a b : HeaderList} (h : a.SameEntries b) :
    a.refEntries = b.refEntries := by
  unfold refEntries
  rw [← completeEntries_withoutLsb, h.entries, completeEntries_withoutLsb]
  exact completeEntries_eq_of_applied h.longTerm _

end HeaderList

/-! ### Candidates that are selected -/

/-- A candidate that is selected for a list, and the low bits and the step of the high part
that apply to each of its long-term entries. -/
structure SelectedList where
  index : Nat
  content : ListStructure
  steps : List (Nat × Option Nat)

namespace SelectedList

/-- The list is one of the candidates, and a header can say what applies to its long-term
entries.  Where the candidate holds low bits, these apply. -/
structure Selects (rules : ListRules) (candidates : List ListStructure) (l : SelectedList) :
    Prop where
  content : candidates[l.index]? = some l.content
  held : List.Forall₂ (fun held added => ∀ lsb ∈ held, lsb = added.1) l.content.longTermLsbs
    l.steps
  steps : ∀ added ∈ l.steps, LongTermCount.Codable rules.lsbBits added

/-- The bits that select the list: a flag and the index, where there is a choice and it is
coded, and for each long-term entry what the candidate leaves open. -/
def bits (rules : ListRules) (candidates : Nat) (choiceCoded : Bool) (l : SelectedList) :
    List Bool :=
  flagBits (candidates > 0 && choiceCoded) true ++
    ((if candidates > 1 && choiceCoded then lowBits (ceilLog2 candidates) l.index else []) ++
      (List.zipWith (heldBits rules.lsbBits) l.content.longTermLsbs l.steps).flatten)

/-- The list as it is read. -/
def headerList (l : SelectedList) : HeaderList where
  candidate := some l.index
  index := l.index
  content := l.content
  longTerm := List.zipWith withHeld l.content.longTermLsbs (accumulate 0 l.steps)

/-- The same entries, given by the header itself. -/
def own (l : SelectedList) : OwnList where
  entries := l.content.entries.map ListEntry.withoutLsb
  steps := l.steps

variable {rules : ListRules} {candidates : List ListStructure} {l : SelectedList}
  {references : Nat}

theorem reads_read (hlsb : 0 < rules.lsbBits) (hlsb32 : rules.lsbBits ≤ 32)
    (hcount : candidates.length ≤ 64) (h : l.Selects rules candidates) (list references : Nat)
    {choiceCoded : Bool} {previous : HeaderList}
    (hprevious : choiceCoded = false → previous.candidate.isSome ∧
      l.index = if candidates.length > 1 then previous.candidate.getD 0 else 0) :
    (HeaderList.read rules candidates references list choiceCoded previous).Reads
      (l.bits rules candidates.length choiceCoded) l.headerList := by
  have hindex : l.index < candidates.length := (List.getElem?_eq_some_iff.mp h.content).1
  have hpos : (candidates.length > 0) = True := eq_true (Nat.zero_lt_of_lt hindex)
  have hselect : (if candidates.length > 0 && choiceCoded then flag
      else pure (candidates.length > 0 && previous.candidate.isSome)).Reads
      (flagBits (candidates.length > 0 && choiceCoded) true) true := by
    cases choiceCoded with
    | true =>
      simp only [hpos, decide_true, Bool.and_true]
      exact reads_flag true
    | false =>
      simp only [hpos, decide_true, (hprevious rfl).1]
      exact reads_pure true
  -- The candidate and what applies to its long-term entries, once the index is known.
  have hrest : (do
      let content ← ofFault (candidates[l.index]?.elim
        (.error (.missingListCandidate list l.index)) .ok)
      let longTerm ← HeaderList.readLongTerm rules.lsbBits 0 content.longTermLsbs
      return { candidate := some l.index, index := l.index, content, longTerm : HeaderList }).Reads
        (List.zipWith (heldBits rules.lsbBits) l.content.longTermLsbs l.steps).flatten
        l.headerList := by
    rw [h.content]
    exact (HeaderList.reads_readLongTerm_held hlsb hlsb32 0 h.held h.steps).bind_right
      (reads_pure _)
  refine hselect.ite_bind ?_
  dsimp only
  rw [if_pos rfl]
  by_cases hmany : candidates.length > 1
  · simp only [hmany, decide_true, Bool.true_and]
    cases choiceCoded with
    | true =>
      have hread : (uMax (ceilLog2 candidates.length) (candidates.length - 1)).Reads
          (lowBits (ceilLog2 candidates.length) l.index) l.index :=
        reads_uMax (ceilLog2_le (hcount.trans (by decide))) (lt_pow_ceilLog2 hindex) (by omega)
      exact hread.bind hrest
    | false =>
      have hfollows := (hprevious rfl).2
      rw [if_pos hmany] at hfollows
      have hread : (pure (previous.candidate.getD 0) : Parse Nat).Reads [] l.index := by
        rw [hfollows]
        exact reads_pure _
      exact hread.bind hrest
  · have honly : l.index = 0 := by omega
    simp only [hmany, decide_false, Bool.false_and]
    have hread : (pure 0 : Parse Nat).Reads [] l.index := by
      rw [honly]
      exact reads_pure 0
    exact hread.bind hrest

theorem longTermLsbs_own : l.own.content.longTermLsbs = l.content.longTermLsbs.map fun _ => none :=
  l.content.longTermLsbs_withoutLsb true

theorem longTermCount_own : l.own.content.longTermCount = l.content.longTermCount := by
  rw [ListStructure.longTermCount, longTermLsbs_own, List.length_map, ListStructure.longTermCount]

/-- **A candidate that can be coded can be written out.** -/
theorem Selects.codable_own (h : l.Selects rules candidates)
    (hcodable : l.content.Codable rules true references) : l.own.Codable rules references where
  content :=
    { size_le := List.length_map _ |>.trans_le hcodable.size_le
      lsbInHeader := fun _ => rfl
      entries := fun i hi => by
        have hi' : i < l.content.entries.length := hi.trans_eq (List.length_map _)
        have hentry : l.own.content.entries[i] = l.content.entries[i].withoutLsb :=
          List.getElem_map _
        rw [hentry]
        exact (hcodable.entries i hi').withoutLsb }
  length_steps := h.held.length_eq.symm.trans longTermCount_own.symm
  steps := h.steps

theorem applied_withHeld (held : Option Nat) (count : LongTermCount) :
    (withHeld held count).applied = count.applied := by
  unfold withHeld
  split <;> rfl

theorem map_applied_withHeld {lsbs : List (Option Nat)} {steps : List (Nat × Option Nat)}
    (hlength : lsbs.length = steps.length) (previous : Nat) :
    (List.zipWith withHeld lsbs (accumulate previous steps)).map LongTermCount.applied =
      (accumulate previous steps).map LongTermCount.applied := by
  induction steps generalizing lsbs previous with
  | nil => rw [accumulate, List.zipWith_nil_right]
  | cons added steps ih =>
    cases lsbs with
    | nil => cases hlength
    | cons held lsbs =>
      exact congrArg₂ List.cons (applied_withHeld held _) (ih (Nat.succ.inj hlength) _)

/-- **The candidate and the list that is written out have the same entries.** -/
theorem Selects.sameEntries (h : l.Selects rules candidates) (count : Nat) :
    l.headerList.SameEntries (l.own.headerList count) where
  size := (List.length_map _).symm
  longTermCount := longTermCount_own.symm
  entries := by
    have hown : (l.own.headerList count).content.entries =
        l.content.entries.map ListEntry.withoutLsb := rfl
    rw [hown, List.map_map]
    refine List.map_congr_left fun entry _ => ?_
    exact entry.withoutLsb_withoutLsb.symm
  longTerm := map_applied_withHeld h.held.length_eq 0

end SelectedList

/-! ### Both ways to code the lists -/

namespace RefLists

/-- The bits of ref_pic_lists() that select candidates for both lists. -/
def selectingBits (rules : ListRules) (candidates0 candidates1 : List ListStructure)
    (choice1Coded : Bool) (l0 l1 : SelectedList) : List Bool :=
  l0.bits rules candidates0.length true ++ l1.bits rules candidates1.length choice1Coded

/-- **Lists that have been selected are read back.**  The choice for the second one follows that
for the first one unless it is coded. -/
theorem reads_read_selected {rules : ListRules} (hlsb : 0 < rules.lsbBits)
    (hlsb32 : rules.lsbBits ≤ 32) {candidates0 candidates1 : List ListStructure}
    (hcount0 : candidates0.length ≤ 64) (hcount1 : candidates1.length ≤ 64)
    {l0 l1 : SelectedList} (h0 : l0.Selects rules candidates0) (h1 : l1.Selects rules candidates1)
    {choice1Coded : Bool} (hfollows : choice1Coded = false →
      l1.index = if candidates1.length > 1 then l0.index else 0) (references : Nat) :
    (read rules candidates0 candidates1 choice1Coded references).Reads
      (selectingBits rules candidates0 candidates1 choice1Coded l0 l1)
      { list0 := l0.headerList, list1 := l1.headerList } := by
  have hread0 : (HeaderList.read rules candidates0 references 0 true {}).Reads
      (l0.bits rules candidates0.length true) l0.headerList :=
    l0.reads_read hlsb hlsb32 hcount0 h0 0 references fun h => nomatch h
  have hread1 : (HeaderList.read rules candidates1 references 1 choice1Coded l0.headerList).Reads
      (l1.bits rules candidates1.length choice1Coded) l1.headerList :=
    l1.reads_read hlsb hlsb32 hcount1 h1 1 references fun hnot => ⟨rfl, hfollows hnot⟩
  exact hread0.bind (hread1.bind_right (reads_pure _))

/-- Lists with the same entries ask the buffer for the same pictures. -/
theorem queryOf_eq_of_sameEntries {a b : RefLists} (h0 : a.list0.SameEntries b.list0)
    (h1 : a.list1.SameEntries b.list1) (layers : Option LayerTable) (slice : SliceHeader)
    (current : Picture) :
    Decoder.queryOf layers { slice with applied := { slice.applied with lists := a } } current =
      Decoder.queryOf layers { slice with applied := { slice.applied with lists := b } }
        current := by
  unfold Decoder.queryOf
  dsimp only
  rw [h0.refEntries_eq, h1.refEntries_eq]

/-- **Selected and explicit lists agree.**  For candidates of an accepted sequence parameter set,
one for each list, the bits that select them and those that write them out are both read, to
lists with the same entries.  So pictures with these lists ask the buffer for the same. -/
theorem selected_own_agree {vpsOf : Nat → Option Vps} {layer : Nat} {payload : BitReader}
    {pps : Pps} (hsps : ((Sps.read vpsOf layer).run payload).1 = .ok pps.sps) {references : Nat}
    (hreferences : pps.sps.headerReferences vpsOf layer = pure references) {l0 l1 : SelectedList}
    (h0 : l0.Selects pps.sps.listRules pps.sps.references.candidates0)
    (h1 : l1.Selects pps.sps.listRules pps.sps.references.candidates1)
    (hfollows : pps.references.choice1Coded = false →
      l1.index = if pps.sps.references.candidates1.length > 1 then l0.index else 0)
    {selecting explicit : BitReader} {rest rest' : List Bool}
    (hselecting : selecting.unread = selectingBits pps.sps.listRules
      pps.sps.references.candidates0 pps.sps.references.candidates1
      pps.references.choice1Coded l0 l1 ++ rest)
    (hexplicit : explicit.unread = ownBits pps.sps.listRules pps.sps.references.candidates0
      pps.sps.references.candidates1 pps.references.choice1Coded l0.own l1.own ++ rest') :
    let readLists := read pps.sps.listRules pps.sps.references.candidates0
      pps.sps.references.candidates1 pps.references.choice1Coded references
    ∃ a b selecting' explicit',
      readLists.run selecting = (.ok a, selecting') ∧ selecting'.unread = rest ∧
      readLists.run explicit = (.ok b, explicit') ∧ explicit'.unread = rest' ∧
      (a.list0.candidate = some l0.index ∧ a.list0.content = l0.content ∧
        b.list0.candidate = none ∧ a.list0.SameEntries b.list0) ∧
      (a.list1.candidate = some l1.index ∧ a.list1.content = l1.content ∧
        b.list1.candidate = none ∧ a.list1.SameEntries b.list1) ∧
      ∀ layers (slice : SliceHeader) current (buffer : PictureBuffer) flushing,
        let query := fun lists : RefLists => Decoder.queryOf layers
          { slice with applied := { slice.applied with lists } } current
        buffer.update flushing (query a) = buffer.update flushing (query b) := by
  intro readLists
  have hlimited := (Sps.read_limited vpsOf layer).of_run hsps
  have hcodable := (Sps.read_codable vpsOf layer).of_run hsps references hreferences
  have hlsb : 0 < pps.sps.listRules.lsbBits := Nat.succ_pos _
  have hlsb32 : pps.sps.listRules.lsbBits ≤ 32 := hlimited.lsbBits.trans (by decide)
  have hown0 : l0.own.Codable pps.sps.listRules references :=
    h0.codable_own (hcodable _ (List.mem_append_left _ (List.mem_of_getElem? h0.content)))
  have hown1 : l1.own.Codable pps.sps.listRules references :=
    h1.codable_own (hcodable _ (List.mem_append_right _ (List.mem_of_getElem? h1.content)))
  obtain ⟨selecting', hrun, hrest, -⟩ := reads_read_selected hlsb hlsb32 hlimited.candidates0.1
    hlimited.candidates1.1 h0 h1 hfollows references selecting rest hselecting
  obtain ⟨explicit', hrun', hrest', -⟩ := reads_read hlsb hlsb32 hown0 hown1
    pps.sps.references.candidates0 pps.sps.references.candidates1 pps.references.choice1Coded
    explicit rest' hexplicit
  have hsame0 := h0.sameEntries pps.sps.references.candidates0.length
  have hsame1 := h1.sameEntries pps.sps.references.candidates1.length
  refine ⟨_, _, selecting', explicit', hrun, hrest, hrun', hrest', ⟨rfl, rfl, rfl, hsame0⟩,
    ⟨rfl, rfl, rfl, hsame1⟩, ?_⟩
  intro layers slice current buffer flushing
  exact congrArg (buffer.update flushing) (queryOf_eq_of_sameEntries hsame0 hsame1 ..)

/-- Two layers, the second one of which refers to the first one. -/
def layeredVps : Vps where
  id := 1
  maxSublayersMinus1 := 0
  defaultMaxTid := true
  allIndependent := false
  layers := [
    { id := 0 },
    { id := 1, independent := false, references := [{ direct := true, maxTidPlus1 := 7 }] }]
  mode := .everyLayer
  sets := []
  profiles := []
  profileOfSet := []
  buffers := none
  timing := none
  extension := false

/-- A sequence parameter set of the second layer with all kinds of entries and weights: two
candidates for the first list and one for the second one. -/
def layeredSequence : BitReader := .ofBytes false [
  0x01, 0x01, 0x02, 0x33, 0x80, 0x00, 0x00, 0x82, 0x04, 0x12, 0x00, 0x3d, 0xe0, 0x5c, 0xc8, 0x71,
  0x75, 0x13, 0x8c, 0x01, 0x82, 0x00, 0x04]

/-- The first candidate for the first list, which holds the low bits of its long-term entry. -/
def heldSelection : SelectedList where
  index := 0
  content := {
    lsbInHeader := false
    entries := [.shortTerm 0 (-1), .longTerm (some 5), .interLayer 0] }
  steps := [(5, some 1)]

/-- The candidate for the second list, which leaves low bits to the header. -/
def openSelection : SelectedList where
  index := 0
  content := { lsbInHeader := true, entries := [.longTerm none, .shortTerm 0 0] }
  steps := [(14, none)]

theorem exists_layeredPps : ∃ pps : Pps,
    ((Sps.read (fun _ => some layeredVps) 1).run layeredSequence).1 = .ok pps.sps ∧
    pps.sps.headerReferences (fun _ => some layeredVps) 1 = pure 1 ∧
    pps.sps.listRules = { longTerm := true, interLayer := true, weighted := true, lsbBits := 4 } ∧
    pps.sps.references.candidates0 =
      [heldSelection.content, { lsbInHeader := true, entries := [.longTerm none] }] ∧
    pps.sps.references.candidates1 = [openSelection.content] ∧
    pps.references.choice1Coded = false := by
  have hcheck : (match ((Sps.read (fun _ => some layeredVps) 1).run layeredSequence).1 with
      | .ok sps => sps.references.interLayer && sps.vpsId == 1 &&
        (sps.listRules ==
            { longTerm := true, interLayer := true, weighted := true, lsbBits := 4 } &&
          sps.references.candidates0 ==
            [heldSelection.content, { lsbInHeader := true, entries := [.longTerm none] }] &&
          sps.references.candidates1 == [openSelection.content])
      | _ => false) = true := by
    decide +kernel
  split at hcheck
  case h_1 sps hread =>
    simp only [Bool.and_eq_true, beq_iff_eq] at hcheck
    obtain ⟨⟨hlayers, hvps⟩, ⟨hrules, h0⟩, h1⟩ := hcheck
    refine ⟨{ sps := sps }, hread, ?_, hrules, h0, h1, rfl⟩
    unfold Sps.headerReferences Sps.referenceCount
    rw [if_pos hlayers, hvps]
    rfl
  case h_2 => cases hcheck

/-- The selecting bits are eleven, and the explicit ones are thirty-five. -/
theorem selected_own_agree_layered : ∃ (pps : Pps) (a b : RefLists)
    (selecting' explicit' : BitReader),
    ((Sps.read (fun _ => some layeredVps) 1).run layeredSequence).1 = .ok pps.sps ∧
    let readLists := read pps.sps.listRules pps.sps.references.candidates0
      pps.sps.references.candidates1 pps.references.choice1Coded 1
    readLists.run (.ofBytes false [0xab, 0x80]) = (.ok a, selecting') ∧
      readLists.run (.ofBytes false [0x11, 0xcd, 0x69, 0x8f, 0x80]) = (.ok b, explicit') ∧
      a.list0.content = heldSelection.content ∧ a.list1.content = openSelection.content ∧
      a.list0.SameEntries b.list0 ∧ a.list1.SameEntries b.list1 := by
  obtain ⟨pps, hsps, hreferences, hrules, hcandidates0, hcandidates1, hchoice⟩ := exists_layeredPps
  have h0 : heldSelection.Selects pps.sps.listRules pps.sps.references.candidates0 := by
    rw [hrules, hcandidates0]
    refine ⟨rfl, .cons (fun lsb hlsb => (Option.some.inj hlsb).symm) .nil, ?_⟩
    intro added hadded
    obtain rfl := List.mem_singleton.mp hadded
    exact ⟨by decide, fun step hstep => by cases hstep; decide⟩
  have h1 : openSelection.Selects pps.sps.listRules pps.sps.references.candidates1 := by
    rw [hrules, hcandidates1]
    refine ⟨rfl, .cons (fun lsb hlsb => nomatch hlsb) .nil, ?_⟩
    intro added hadded
    obtain rfl := List.mem_singleton.mp hadded
    exact ⟨by decide, fun step hstep => nomatch hstep⟩
  have hselecting : (BitReader.ofBytes false [0xab, 0x80]).unread =
      selectingBits pps.sps.listRules pps.sps.references.candidates0
        pps.sps.references.candidates1 pps.references.choice1Coded heldSelection openSelection ++
          List.replicate 5 false := by
    rw [hrules, hcandidates0, hcandidates1, hchoice]
    decide +kernel
  have hexplicit : (BitReader.ofBytes false [0x11, 0xcd, 0x69, 0x8f, 0x80]).unread =
      ownBits pps.sps.listRules pps.sps.references.candidates0
        pps.sps.references.candidates1 pps.references.choice1Coded heldSelection.own
          openSelection.own ++ List.replicate 5 false := by
    rw [hrules, hcandidates0, hcandidates1, hchoice]
    decide +kernel
  have hfollows : pps.references.choice1Coded = false → openSelection.index =
      if pps.sps.references.candidates1.length > 1 then heldSelection.index else 0 := by
    rw [hcandidates1]
    exact fun _ => rfl
  obtain ⟨a, b, selecting', explicit', hrun, -, hrun', -, ⟨-, hcontent0, -, hsame0⟩,
    ⟨-, hcontent1, -, hsame1⟩, -⟩ :=
    selected_own_agree hsps hreferences h0 h1 hfollows hselecting hexplicit
  exact ⟨pps, a, b, selecting', explicit', hsps, hrun, hrun', hcontent0, hcontent1, hsame0, hsame1⟩

end RefLists

end CodedVideo
