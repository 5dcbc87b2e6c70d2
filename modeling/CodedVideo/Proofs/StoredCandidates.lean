import CodedVideo.Proofs.ListCoding
import CodedVideo.Proofs.SequenceLimits
import Mathlib.Tactic

/-!
# Candidates can be coded again

A reference list structure that has been read can be coded (`ListStructure.read_codable`):
what the reader accepts at an index is what an entry may be there.  So the candidates of a
sequence parameter set can be coded with the rules that its headers are read with, for the
layers that headers can refer to (`Sps.read_codable`).
-/

namespace CodedVideo

open Parse

namespace Parse

variable {α : Type} {p : Nat → Parse α} {P : Nat → α → Prop}

theorem ensures_ue : ue.Ensures (· < 2 ^ 32) := by
  unfold ue
  refine .andThen fun zeros => .andThen fun suffix => ?_
  extract_lets value
  rw [ensures_ite]
  exact ⟨fun hlt => ensures_pure.mpr hlt, fun _ => ensures_fail⟩

theorem ensures_ueMax (hi : Nat) : (ueMax hi).Ensures fun value => value ≤ hi ∧ value < 2 ^ 32 := by
  refine ensures_ue.bind fun value hvalue => ?_
  rw [ensures_bind, ensures_inRange]
  exact fun hrange => ensures_pure.mpr ⟨by omega, hvalue⟩

/-- What is found without reading is what is read. -/
theorem ensures_eq_of_pure (p : Parse α) : p.Ensures fun a => ∀ b, p = pure b → b = a := by
  intro a ha b hb
  rw [hb] at ha
  exact (Except.ok.inj ha).symm

theorem ensures_getElem_collectOnto (hp : ∀ index, (p index).Ensures (P index)) :
    ∀ {count : Nat} {done : List α},
      (∀ (i : Nat) a, done.reverse[i]? = some a → P i a) →
      (collectOnto p done done.length count).Ensures
        fun values => ∀ (i : Nat) a, values[i]? = some a → P i a := by
  intro count
  induction count with
  | zero =>
    intro done hdone
    exact ensures_done.mpr hdone
  | succ count ih =>
    intro done hdone
    refine (hp done.length).bind fun value hvalue => ?_
    have hread : ∀ (i : Nat) a, (value :: done).reverse[i]? = some a → P i a := by
      intro i a ha
      rw [List.reverse_cons] at ha
      by_cases hi : i < done.reverse.length
      · rw [List.getElem?_append_left hi] at ha
        exact hdone i a ha
      · rw [List.getElem?_append_right (not_lt.mp hi), List.getElem?_singleton] at ha
        split at ha
        case isTrue hlast =>
          obtain rfl := Option.some.inj ha
          have hi : i = done.length := by
            rw [List.length_reverse] at hi hlast
            omega
          rw [hi]
          exact hvalue
        case isFalse => cases ha
    exact ih hread

/-- What holds of the structure for each index holds of what is read for that index. -/
theorem ensures_getElem_collect (hp : ∀ index, (p index).Ensures (P index)) (count : Nat) :
    (collect count p).Ensures fun values => ∀ (i : Nat) a, values[i]? = some a → P i a :=
  have hnone : ∀ (i : Nat) a, ([] : List α).reverse[i]? = some a → P i a := fun _ _ ha => nomatch ha
  ensures_getElem_collectOnto hp hnone

end Parse

/-! ### Structures -/

namespace ListStructure

variable {rules : ListRules} {references : Nat} {lsbInHeader : Bool}

theorem readInterLayer_codable (hlayers : rules.interLayer = true) (index : Nat) :
    (readInterLayer references).Ensures
      (ListEntry.Codable rules references lsbInHeader index) := by
  unfold readInterLayer
  rw [ensures_bind, ensures_refuseIf]
  intro hpresent
  have hpos : references ≠ 0 := by simpa using hpresent
  refine (ensures_ueMax _).bind fun reference h => ensures_pure.mpr ?_
  exact ⟨hlayers, by omega, h.2⟩

theorem readShortTerm_codable (index : Nat) :
    (readShortTerm (rules.weighted && index != 0)).Ensures
      (ListEntry.Codable rules references lsbInHeader index) := by
  refine (ensures_ueMax _).bind fun coded h => ?_
  extract_lets magnitude
  refine .andThen fun negative => ensures_pure.mpr ⟨?_, ?_⟩
  · rw [pow2_eq] at h
    omega
  · show (if negative = true then -(magnitude : Int) else magnitude).natAbs = magnitude
    split <;> simp

theorem ensures_flagIf (present : Bool) : (flagIf present).Ensures (· = true → present = true) := by
  unfold flagIf
  rw [ensures_given]
  exact ⟨fun hpresent => ensures_of_forall fun _ _ => hpresent, fun _ h => nomatch h⟩

theorem readEntry_codable (index : Nat) :
    (readEntry rules references lsbInHeader index).Ensures
      (ListEntry.Codable rules references lsbInHeader index) := by
  refine (ensures_flagIf rules.interLayer).bind fun interLayer hlayers => ?_
  rw [ensures_ite]
  refine ⟨fun h => readInterLayer_codable (hlayers h) index, fun _ => ?_⟩
  extract_lets withTerm
  have hwithTerm : ∀ shortTerm, (shortTerm = false → rules.longTerm = true) →
      (withTerm shortTerm).Ensures (ListEntry.Codable rules references lsbInHeader index) := by
    intro shortTerm hlong
    cases shortTerm with
    | true => exact readShortTerm_codable index
    | false =>
      show Ensures (if lsbInHeader = true then _ else _) _
      rw [ensures_ite]
      constructor
      · intro hheader
        exact ensures_pure.mpr ⟨hlong rfl, hheader.symm, fun _ h => nomatch h⟩
      · intro hheader
        refine .bind (ensures_u.mpr fun _ h => h) fun lsb hlsb => ensures_pure.mpr ?_
        refine ⟨hlong rfl, (Bool.not_eq_true _ ▸ hheader).symm, fun value hvalue => ?_⟩
        obtain rfl := Option.some.inj hvalue
        exact hlsb
  rw [ensures_ite]
  exact ⟨fun hlong => .andThen fun shortTerm => hwithTerm shortTerm fun _ => hlong,
    fun _ => hwithTerm true fun h => nomatch h⟩

/-- **A structure that has been read can be coded.** -/
theorem read_codable (rules : ListRules) (candidate : Bool) (references : Nat) :
    (read rules candidate references).Ensures (Codable rules candidate references) := by
  refine .bind (.ueMax fun _ h => h) fun count hcount => ?_
  extract_lets withPlace
  have hwithPlace : ∀ lsbInHeader,
      ((rules.longTerm && candidate && count > 0) = false → lsbInHeader = true) →
        (withPlace lsbInHeader).Ensures (Codable rules candidate references) := by
    intro lsbInHeader hplace
    have hentries : (collect count (readEntry rules references lsbInHeader)).Ensures
        fun entries => entries.length = count ∧ ∀ (i : Nat) entry, entries[i]? = some entry →
          entry.Codable rules references lsbInHeader i := fun entries hgives =>
      ⟨ensures_collectFrom entries hgives,
        ensures_getElem_collect (fun index => readEntry_codable index) count entries hgives⟩
    refine hentries.bind fun entries ⟨hlength, hcodable⟩ => ensures_pure.mpr ?_
    subst hlength
    exact ⟨hcount, hplace, fun i hi => hcodable i _ (List.getElem?_eq_getElem hi)⟩
  rw [ensures_ite]
  refine ⟨fun htold => .andThen fun lsbInHeader => hwithPlace lsbInHeader fun h => ?_,
    fun _ => hwithPlace true fun _ => rfl⟩
  exact absurd (h.symm.trans htold) Bool.false_ne_true

end ListStructure

/-! ### Sequence parameter sets -/

namespace SequenceReferences

/-- What the coding of reference lists depends on, the number of low bits being given. -/
def rules (lsbBits : Nat) (s : SequenceReferences) : ListRules where
  longTerm := s.longTerm
  interLayer := s.interLayer
  weighted := s.weighted || s.weightedBi
  lsbBits := lsbBits

/-- The candidates can be coded for a number of layers. -/
def Codable (lsbBits references : Nat) (s : SequenceReferences) : Prop :=
  ∀ l ∈ s.candidates0 ++ s.candidates1, l.Codable (s.rules lsbBits) true references

theorem readCandidates_codable (rules : ListRules) (references : Nat) :
    (readCandidates rules references).Ensures
      fun candidates => ∀ l ∈ candidates, l.Codable rules true references :=
  .andThen fun count => ensures_forall_collect (fun _ => ListStructure.read_codable _ _ _) count

/-- The candidates can be coded for as many layers as the current one refers to. -/
theorem read_codable (lsbBits : Nat) (layered : Bool) (references : Parse Nat) :
    (read lsbBits layered references).Ensures fun s =>
      ∀ count, (if s.interLayer then references else pure 0) = pure count →
        s.Codable lsbBits count := by
  refine .andThen fun _ => .andThen fun _ => .andThen fun _ => .andThen fun interLayer => ?_
  refine .andThen fun _ => .andThen fun sameLists => ?_
  extract_lets rules withCount
  have hwithCount : ∀ count, (withCount count).Ensures fun s =>
      s.interLayer = interLayer ∧ s.Codable lsbBits count := by
    intro count
    refine (readCandidates_codable rules count).bind fun candidates0 h0 => ?_
    extract_lets withSecond
    have hwithSecond : ∀ candidates1, (∀ l ∈ candidates1, l.Codable rules true count) →
        (withSecond candidates1).Ensures fun s =>
          s.interLayer = interLayer ∧ s.Codable lsbBits count := fun candidates1 h1 =>
      ensures_pure.mpr ⟨rfl, List.forall_mem_append.mpr ⟨h0, h1⟩⟩
    rw [ensures_ite]
    exact ⟨fun _ => hwithSecond _ h0, fun _ => (readCandidates_codable rules count).bind hwithSecond⟩
  rw [ensures_ite]
  constructor
  · intro hlayers
    refine (ensures_eq_of_pure references).bind fun count hcount => ?_
    refine (hwithCount count).mono fun s ⟨hinter, hcodable⟩ n hn => ?_
    rw [hinter, if_pos hlayers] at hn
    rw [hcount n hn]
    exact hcodable
  · intro hlayers
    refine (hwithCount 0).mono fun s ⟨hinter, hcodable⟩ n hn => ?_
    rw [hinter, if_neg hlayers] at hn
    have hzero : n = 0 := ensures_eq_of_pure (pure 0) 0 rfl n hn
    rw [hzero]
    exact hcodable

end SequenceReferences

namespace Sps

variable {vpsOf : Nat → Option Vps} {layer : Nat}

/-- The candidates can be coded with the rules for headers, for as many layers as headers can
refer to. -/
def CandidatesCodable (vpsOf : Nat → Option Vps) (layer : Nat) (sps : Sps) : Prop :=
  ∀ references, sps.headerReferences vpsOf layer = pure references →
    ∀ l ∈ sps.references.candidates0 ++ sps.references.candidates1,
      l.Codable sps.listRules true references

theorem readTools_codable (sps : Sps) :
    (readTools (fun vpsId => referenceCount vpsOf vpsId layer) sps).Ensures
      (CandidatesCodable vpsOf layer) := by
  refine .andThen fun _ => .andThen fun _ => .andThen fun _ => ?_
  refine (SequenceReferences.read_codable _ _ _).bind fun references hreferences => ?_
  refine .andThen fun _ => .andThen fun _ => .andThen fun _ => ?_
  extract_lets withDeblocking
  have hwithDeblocking : ∀ deblocking,
      (withDeblocking deblocking).Ensures (CandidatesCodable vpsOf layer) := fun _ =>
    .andThen fun _ => ensures_pure.mpr hreferences
  split <;> exact .andThen hwithDeblocking

/-- **The candidates of every accepted sequence parameter set can be coded.** -/
theorem read_codable (vpsOf : Nat → Option Vps) (layer : Nat) :
    (read vpsOf layer).Ensures (CandidatesCodable vpsOf layer) := by
  refine ensures_read ?_
  refine .andThen fun _ => .andThen fun _ => .andThen fun _ => .andThen fun _ => ?_
  refine (readTools_codable _).bind fun sps h => ?_
  refine .bind (P := CandidatesCodable vpsOf layer) ?_ fun sps h => ?_
  · refine (readPresentation_frame sps).mono fun sps' hsps' => ?_
    rw [hsps']
    exact h
  · refine (readExtensions_frame sps).mono fun sps' hsps' => ?_
    rw [hsps']
    exact h

end Sps

end CodedVideo
