import CodedVideo.Proofs.LayerClosure
import CodedVideo.Proofs.ParameterSets
import CodedVideo.Proofs.QpTables

/-!
# Curves from luma to chroma QPs

A curve starts on the diagonal and passes through pivots, which never go down.  Between two
pivots it is a line whose values are rounded, and behind the last one it goes on diagonally
up to the largest QP.  `QpCurve.value` says so in one formula for each QP.

A table is filled entry by entry.  The part that has been filled is an interval that holds the
values of the curve (`QpTable.Holds`), and each loop makes it longer, until it has all of them
(`QpCurve.table_eq`).

A rounded line starts and ends at its pivots and does not fall (`rounded_mono`).  So a whole
curve does not fall, by induction on its steps (`QpCurve.climb_mono`), and as all its pivots are
in the range of QPs, so are all its values.  `Session.chromaTables_of_readSps` says this of every
sequence parameter set that is accepted.
-/

namespace CodedVideo

open Parse

/-! ### Rounded lines -/

theorem rounded_start {rise advance : Nat} (h : 0 < advance) :
    (rise * (0 : Int) + (advance / 2 : Nat)) / advance = 0 := by
  rw [Int.mul_zero, Int.zero_add]
  exact Int.ediv_eq_zero_of_lt (by omega) (by omega)

theorem rounded_end {rise advance : Nat} (h : 0 < advance) :
    (rise * (advance : Int) + (advance / 2 : Nat)) / advance = rise := by
  rw [Int.add_comm, Int.add_mul_ediv_right _ _ (by omega), Int.ediv_eq_zero_of_lt (by omega)
    (by omega), Int.zero_add]

/-- Rounding keeps the order of the points of a line that does not fall. -/
theorem rounded_mono (rise : Nat) {advance : Nat} (h : 0 < advance) {m m' : Int} (hle : m ≤ m') :
    (rise * m + (advance / 2 : Nat)) / advance ≤ (rise * m' + (advance / 2 : Nat)) / advance := by
  have hmul : (rise : Int) * m ≤ rise * m' := Int.mul_le_mul_of_nonneg_left hle (by omega)
  exact Int.ediv_le_ediv (by omega) (by omega)

namespace QpStep

theorem advance_pos (step : QpStep) : 0 < step.advance := Nat.succ_pos _

end QpStep

namespace QpCurve

variable {input output qp qp' lowest : Int} {step : QpStep} {steps : List QpStep} {c : QpCurve}

/-- The curve at or to the right of the pivot `(input, output)`. -/
def climb (input output : Int) : List QpStep → Int → Int
  | [], qp => min maxQp (output + (qp - input))
  | step :: rest, qp =>
    if qp ≤ input + step.advance then
      output + (step.rise * (qp - input) + (step.advance / 2 : Nat)) / step.advance
    else climb (input + step.advance) (output + step.rise) rest qp

/-- The chroma QP of a luma QP.  Left of the first pivot the two are equal. -/
def value (c : QpCurve) (qp : Int) : Int :=
  if qp < c.start then qp else climb c.start c.start c.steps qp

/-! ### Pivots -/

/-- The luma QP of the pivot after `n` steps. -/
def inputAt (c : QpCurve) (n : Nat) : Int := c.start + ((c.steps.take n).map QpStep.advance).sum

/-- The chroma QP of the pivot after `n` steps. -/
def outputAt (c : QpCurve) (n : Nat) : Int := c.start + ((c.steps.take n).map QpStep.rise).sum

theorem mem_pivotsFrom (input output : Int) {n : Nat} (hn : n < steps.length) :
    (input + ((steps.take (n + 1)).map QpStep.advance).sum,
      output + ((steps.take (n + 1)).map QpStep.rise).sum) ∈ pivotsFrom (input, output) steps := by
  induction steps generalizing input output n with
  | nil => cases hn
  | cons step rest ih =>
    cases n with
    | zero => simp [pivotsFrom]
    | succ n =>
      have hrest := ih (input + step.advance) (output + step.rise) (Nat.lt_of_succ_lt_succ hn)
      rw [Int.add_assoc, Int.add_assoc] at hrest
      rw [List.take_succ_cons, List.map_cons, List.map_cons, List.sum_cons, List.sum_cons,
        Nat.cast_add, Nat.cast_add]
      exact List.mem_cons_of_mem _ hrest

theorem mem_pivots (c : QpCurve) {n : Nat} (hn : n ≤ c.steps.length) :
    (c.inputAt n, c.outputAt n) ∈ c.pivots := by
  unfold inputAt outputAt pivots
  cases n with
  | zero => simp
  | succ n => exact List.mem_cons_of_mem _ (mem_pivotsFrom _ _ hn)

/-- Pivots move to the right. -/
theorem lt_of_mem_pivotsFrom {p : Int × Int} (hp : p ∈ pivotsFrom (input, output) steps) :
    input < p.1 := by
  induction steps generalizing input output with
  | nil => cases hp
  | cons step rest ih =>
    have hpos := step.advance_pos
    rcases List.mem_cons.mp hp with rfl | hp
    · dsimp only
      omega
    · have hnext := ih hp
      omega

/-! ### The curve to the right of a pivot -/

theorem climb_cons_of_le (h : qp ≤ input + step.advance) :
    climb input output (step :: steps) qp =
      output + (step.rise * (qp - input) + (step.advance / 2 : Nat)) / step.advance :=
  if_pos h

theorem climb_cons_of_lt (h : input + step.advance < qp) :
    climb input output (step :: steps) qp =
      climb (input + step.advance) (output + step.rise) steps qp :=
  if_neg (by omega)

/-- A curve starts at its first pivot. -/
theorem climb_start (h : output ≤ maxQp) (steps : List QpStep) :
    climb input output steps input = output := by
  cases steps with
  | nil =>
    unfold climb
    omega
  | cons step rest =>
    rw [climb_cons_of_le (by omega), Int.sub_self, rounded_start step.advance_pos, Int.add_zero]

/-- The first line of a curve ends at the next pivot. -/
theorem climb_next : climb input output (step :: steps) (input + step.advance) =
    output + step.rise := by
  rw [climb_cons_of_le le_rfl, add_sub_cancel_left, rounded_end step.advance_pos]

/-- A curve passes through its pivots. -/
theorem climb_of_mem {p : Int × Int} (hp : p ∈ pivotsFrom (input, output) steps) :
    climb input output steps p.1 = p.2 := by
  induction steps generalizing input output with
  | nil => cases hp
  | cons step rest ih =>
    rcases List.mem_cons.mp hp with rfl | hp
    · exact climb_next
    · rw [climb_cons_of_lt (lt_of_mem_pivotsFrom hp)]
      exact ih hp

/-- **A curve whose pivots are in range does not fall.** -/
theorem climb_mono (hpivots : ∀ p ∈ pivotsFrom (input, output) steps, p.2 ≤ maxQp)
    (hqp : input ≤ qp) (hle : qp ≤ qp') :
    climb input output steps qp ≤ climb input output steps qp' := by
  induction steps generalizing input output qp with
  | nil =>
    unfold climb
    omega
  | cons step rest ih =>
    obtain ⟨hnext, hrest⟩ := List.forall_mem_cons.mp hpivots
    have hline : ∀ {m m' : Int}, m ≤ m' → m' ≤ input + step.advance →
        climb input output (step :: rest) m ≤ climb input output (step :: rest) m' := by
      intro m m' hmm' hm'
      rw [climb_cons_of_le (hmm'.trans hm'), climb_cons_of_le hm']
      exact Int.add_le_add_left (rounded_mono step.rise step.advance_pos (by omega)) output
    rcases le_or_gt qp' (input + step.advance) with hend | hend
    · exact hline hle hend
    rw [climb_cons_of_lt hend]
    rcases le_or_gt qp (input + step.advance) with hfirst | hfirst
    · -- The pivot between the two is not above the second and not below the first.
      calc climb input output (step :: rest) qp
          ≤ climb input output (step :: rest) (input + step.advance) := hline hfirst le_rfl
        _ = climb (input + step.advance) (output + step.rise) rest (input + step.advance) := by
            rw [climb_next, climb_start hnext]
        _ ≤ climb (input + step.advance) (output + step.rise) rest qp' :=
            ih hrest le_rfl hend.le
    · rw [climb_cons_of_lt hfirst]
      exact ih hrest hfirst.le hle

theorem climb_le (hpivots : ∀ p ∈ pivotsFrom (input, output) steps, p.2 ≤ maxQp)
    (hqp : input ≤ qp) : climb input output steps qp ≤ maxQp := by
  induction steps generalizing input output with
  | nil => exact min_le_left _ _
  | cons step rest ih =>
    rcases le_or_gt qp (input + step.advance) with hfirst | hfirst
    · refine (climb_mono hpivots hqp hfirst).trans ?_
      rw [climb_next]
      exact hpivots _ List.mem_cons_self
    · rw [climb_cons_of_lt hfirst]
      exact ih (List.forall_mem_cons.mp hpivots).2 hfirst.le

/-! ### Whole curves -/

/-- All pivots of a curve that fits are in range. -/
theorem fits_iff : c.fits lowest = true ↔
    ∀ p ∈ c.pivots, p.1 ≤ maxQp ∧ lowest ≤ p.2 ∧ p.2 ≤ maxQp := by
  simp [fits, and_assoc]

theorem start_of_fits (h : c.fits lowest = true) : lowest ≤ c.start ∧ c.start ≤ maxQp :=
  (fits_iff.mp h (c.start, c.start) List.mem_cons_self).2

theorem climb_start_mono (h : c.fits lowest = true) (hqp : c.start ≤ qp) (hle : qp ≤ qp') :
    climb c.start c.start c.steps qp ≤ climb c.start c.start c.steps qp' :=
  climb_mono (fun p hp => (fits_iff.mp h p (List.mem_cons_of_mem _ hp)).2.2) hqp hle

theorem start_le_climb (h : c.fits lowest = true) (hqp : c.start ≤ qp) :
    c.start ≤ climb c.start c.start c.steps qp := by
  have hmono := climb_start_mono h le_rfl hqp
  rwa [climb_start (start_of_fits h).2] at hmono

theorem value_of_lt (h : qp < c.start) : c.value qp = qp := if_pos h

theorem value_of_le (h : c.start ≤ qp) : c.value qp = climb c.start c.start c.steps qp :=
  if_neg (by omega)

/-- A curve that fits passes through its pivots. -/
theorem value_of_mem (h : c.fits lowest = true) {p : Int × Int} (hp : p ∈ c.pivots) :
    c.value p.1 = p.2 := by
  rcases List.mem_cons.mp hp with rfl | hp
  · rw [value_of_le le_rfl, climb_start (start_of_fits h).2]
  · rw [value_of_le (lt_of_mem_pivotsFrom hp).le, climb_of_mem hp]

theorem value_mono (h : c.fits lowest = true) (hle : qp ≤ qp') : c.value qp ≤ c.value qp' := by
  rcases lt_or_ge qp' c.start with hafter | hafter
  · rwa [value_of_lt (hle.trans_lt hafter), value_of_lt hafter]
  rcases lt_or_ge qp c.start with hbefore | hbefore
  · rw [value_of_lt hbefore, value_of_le hafter]
    exact hbefore.le.trans (start_le_climb h hafter)
  · rw [value_of_le hbefore, value_of_le hafter]
    exact climb_start_mono h hbefore hle

/-- The values of a curve that fits are in range. -/
theorem value_range (h : c.fits lowest = true) (hqp : lowest ≤ qp) :
    lowest ≤ c.value qp ∧ c.value qp ≤ maxQp := by
  obtain ⟨hlow, hhigh⟩ := start_of_fits h
  rcases lt_or_ge qp c.start with hbefore | hafter
  · rw [value_of_lt hbefore]
    omega
  · rw [value_of_le hafter]
    have hpivots : ∀ p ∈ pivotsFrom (c.start, c.start) c.steps, p.2 ≤ maxQp := fun p hp =>
      (fits_iff.mp h p (List.mem_cons_of_mem _ hp)).2.2
    exact ⟨hlow.trans (start_le_climb h hafter), climb_le hpivots hafter⟩

/-! ### The table of a curve -/

theorem value_start (h : c.fits lowest = true) : c.value c.start = c.start := by
  rw [value_of_le le_rfl, climb_start (start_of_fits h).2]

/-- To the left of the first pivot the table is filled with the QPs themselves. -/
theorem value_pred (h : c.fits lowest = true) (hlow : lowest < qp) (hqp : qp ≤ c.start) :
    c.value (qp - 1) = QpTable.clip lowest (c.value qp - 1) := by
  have hstart := (start_of_fits h).2
  have hvalue : c.value qp = qp := by
    rcases hqp.eq_or_lt with rfl | hlt
    · exact value_start h
    · exact value_of_lt hlt
  rw [value_of_lt (by omega), hvalue, QpTable.clip]
  omega

/-- **Steps fill in the curve.**  The steps left start at a pivot that has been filled. -/
theorem holds_fillSteps {f : Int → Int} {first : Int} {table : List Int}
    (htable : QpTable.Holds lowest f first input table) (hlow : lowest ≤ first)
    (hle : first ≤ input) (hinput : input ≤ maxQp) (houtput : lowest ≤ output ∧ output ≤ maxQp)
    (hpivots : ∀ p ∈ pivotsFrom (input, output) steps,
      p.1 ≤ maxQp ∧ lowest ≤ p.2 ∧ p.2 ≤ maxQp)
    (hf : ∀ qp, input ≤ qp → f qp = climb input output steps qp) :
    QpTable.Holds lowest f first maxQp (QpTable.fillSteps lowest input steps table) := by
  induction steps generalizing input output table with
  | nil =>
    refine htable.fillRight hlow hle hinput fun qp hqp hlt => ?_
    rw [hf qp hqp, hf (qp + 1) (by omega), climb, climb, QpTable.clip]
    omega
  | cons step rest ih =>
    obtain ⟨hnext, hrest⟩ := List.forall_mem_cons.mp hpivots
    refine ih (htable.fillLine hlow hle hnext.1 fun m hm => ?_) (by omega) hnext.1 hnext.2 hrest ?_
    · have hm' : input + 1 + (m : Int) - input = m + 1 := by omega
      rw [hf input le_rfl, climb_start houtput.2, hf _ (by omega), climb_cons_of_le (by omega), hm']
      push_cast
      rfl
    · intro qp hqp
      rcases hqp.eq_or_lt with rfl | hlt
      · rw [hf _ (by omega), climb_next, climb_start hnext.2.2]
      · rw [hf qp (by omega), climb_cons_of_lt hlt]

/-- **A table that has been filled has the values of the curve.** -/
theorem table_eq (h : c.fits lowest = true) : c.table lowest = (qpRange lowest).map c.value := by
  obtain ⟨hlow, hhigh⟩ := start_of_fits h
  have hfirst := QpTable.Holds.start c.value hlow hhigh
  rw [value_start h] at hfirst
  have hleft := hfirst.fillLeft hlow le_rfl hhigh fun qp hlow hqp => value_pred h hlow hqp
  have hsteps := holds_fillSteps hleft le_rfl hlow hhigh ⟨hlow, hhigh⟩
    (fun p hp => fits_iff.mp h p (List.mem_cons_of_mem _ hp)) fun qp hqp => value_of_le hqp
  exact hsteps.eq_map

/-! ### Reading -/

/-- The pivots of a curve are in the range that its table has values for. -/
theorem inputAt_range (h : c.fits lowest = true) {n : Nat} (hn : n ≤ c.steps.length) :
    lowest ≤ c.inputAt n ∧ c.inputAt n ≤ maxQp := by
  have hstart := (start_of_fits h).1
  refine ⟨?_, (fits_iff.mp h _ (c.mem_pivots hn)).1⟩
  unfold inputAt
  omega

theorem readAll_fits (lowest : Int) (count : Nat) :
    (readAll lowest count).Ensures fun curves =>
      curves.length = count ∧ ∀ c ∈ curves, c.fits lowest = true := by
  refine ensures_collectFrom.bind fun curves hlength => ?_
  rw [ensures_ofFault]
  intro curves' hfit
  cases hunfit : findUnfit lowest curves with
  | some index =>
    rw [hunfit] at hfit
    cases hfit
  | none =>
    rw [hunfit] at hfit
    cases hfit
    refine ⟨hlength, fun c hc => ?_⟩
    simpa using List.findIdx?_eq_none_iff.mp hunfit c hc

end QpCurve

namespace ChromaQp

variable {lowest qp qp' value value' : Int} {m : ChromaQp} {kind : Nat}

/-- The number of coded curves. -/
def codedCount (m : ChromaQp) : Nat := if m.same then 1 else if m.joint then 3 else 2

/-- All curves fit into the range of QPs. -/
def Fits (lowest : Int) (m : ChromaQp) : Prop := ∀ c ∈ m.curves, c.fits lowest = true

theorem read_fits (lowest : Int) :
    (read lowest).Ensures fun m => m.curves.length = m.codedCount ∧ m.Fits lowest :=
  .andThen fun _ => .andThen fun _ => (QpCurve.readAll_fits lowest _).bind fun _ h =>
    ensures_pure.mpr h

theorem mem_curves_of_curve? {c : QpCurve} (h : m.curve? kind = some c) : c ∈ m.curves :=
  List.mem_of_getElem? h

theorem curve?_of_coded {c : QpCurve} (h : m.curves[kind]? = some c) : m.curve? kind = some c := by
  have hlt := (List.getElem?_eq_some_iff.mp h).1
  rw [curve?, Nat.min_eq_left (by omega), h]

theorem getElem?_qpRange (hqp : lowest ≤ qp) :
    (qpRange lowest)[(qp - lowest).toNat]? = if qp ≤ maxQp then some qp else none := by
  have hnat : lowest + ((qp - lowest).toNat : Int) = qp := by omega
  rw [qpRange, List.getElem?_map]
  split
  case isTrue hle => rw [List.getElem?_range (by omega), Option.map_some, hnat]
  case isFalse hgt =>
    rw [List.getElem?_eq_none (by rw [List.length_range]; omega), Option.map_none]

/-- A chroma QP is looked up in the table of its kind. -/
theorem value?_eq_getElem? (hkind : kind < kinds) (hqp : lowest ≤ qp) :
    m.value? lowest kind qp = (m.table lowest kind)[(qp - lowest).toNat]? :=
  if_pos ⟨hkind, hqp⟩

theorem isSome_value? (hkind : kind < kinds) :
    (m.value? lowest kind qp).isSome ↔ lowest ≤ qp ∧ qp ≤ maxQp := by
  by_cases hqp : lowest ≤ qp
  · rw [value?_eq_getElem? hkind hqp, Option.isSome_iff_ne_none, Ne, List.getElem?_eq_none_iff,
      length_table]
    omega
  · rw [value?, if_neg fun h => hqp h.2]
    simp [hqp]

/-- The tables of curves that fit have the values of the curves, and without a curve the QPs. -/
theorem Fits.table_eq (hfits : m.Fits lowest) (kind : Nat) :
    m.table lowest kind =
      (qpRange lowest).map fun qp => ((m.curve? kind).map (·.value qp)).getD qp := by
  unfold table
  cases hcurve : m.curve? kind with
  | none => exact (List.map_id' _).symm
  | some c => exact QpCurve.table_eq (hfits c (mem_curves_of_curve? hcurve))

/-- What a chroma QP is: a value of a curve, or the luma QP without a curve. -/
theorem Fits.value?_eq (hfits : m.Fits lowest) (hkind : kind < kinds) (hqp : lowest ≤ qp) :
    m.value? lowest kind qp =
      if qp ≤ maxQp then some (((m.curve? kind).map (·.value qp)).getD qp) else none := by
  rw [value?_eq_getElem? hkind hqp, hfits.table_eq, List.getElem?_map, getElem?_qpRange hqp]
  split <;> rfl

theorem Fits.value?_eq_some (hfits : m.Fits lowest) (h : m.value? lowest kind qp = some value) :
    lowest ≤ qp ∧ qp ≤ maxQp ∧ value = ((m.curve? kind).map (·.value qp)).getD qp := by
  obtain ⟨⟨hkind, hqp⟩, -⟩ := Option.ite_none_right_eq_some.mp h
  rw [hfits.value?_eq hkind hqp, Option.ite_none_right_eq_some] at h
  exact ⟨hqp, h.1, (Option.some.inj h.2).symm⟩

theorem Fits.range (hfits : m.Fits lowest) (h : m.value? lowest kind qp = some value) :
    lowest ≤ value ∧ value ≤ maxQp := by
  obtain ⟨hlow, hhigh, rfl⟩ := hfits.value?_eq_some h
  cases hcurve : m.curve? kind with
  | none => exact ⟨hlow, hhigh⟩
  | some c => exact QpCurve.value_range (hfits c (mem_curves_of_curve? hcurve)) hlow

theorem Fits.mono (hfits : m.Fits lowest) (hle : qp ≤ qp')
    (h : m.value? lowest kind qp = some value) (h' : m.value? lowest kind qp' = some value') :
    value ≤ value' := by
  obtain ⟨-, -, rfl⟩ := hfits.value?_eq_some h
  obtain ⟨-, -, rfl⟩ := hfits.value?_eq_some h'
  cases hcurve : m.curve? kind with
  | none => exact hle
  | some c => exact QpCurve.value_mono (hfits c (mem_curves_of_curve? hcurve)) hle

theorem Fits.pivot (hfits : m.Fits lowest) {c : QpCurve} (hkind : kind < kinds)
    (hcurve : m.curve? kind = some c) {n : Nat} (hn : n ≤ c.steps.length) :
    m.value? lowest kind (c.inputAt n) = some (c.outputAt n) := by
  have hc := hfits c (mem_curves_of_curve? hcurve)
  have hvalue : c.value (c.inputAt n) = c.outputAt n := QpCurve.value_of_mem hc (c.mem_pivots hn)
  obtain ⟨hlow, hhigh⟩ := QpCurve.inputAt_range hc hn
  rw [hfits.value?_eq hkind hlow, if_pos hhigh, hcurve, Option.map_some, Option.getD_some, hvalue]

end ChromaQp

namespace Sps

/-- The coded curves fit, and there are none without chroma. -/
structure ChromaCoded (sps : Sps) : Prop where
  fits : sps.chromaQp.Fits sps.lowestQp
  coded : sps.hasChroma = true → sps.chromaQp.curves.length = sps.chromaQp.codedCount
  absent : sps.hasChroma = false → sps.chromaQp.curves = []

/-- What has been read of the curves fits the bit depth. -/
theorem given_chromaQp (sps : Sps) :
    (given sps.hasChroma (ChromaQp.read sps.lowestQp)).Ensures fun chromaQp =>
      ChromaCoded { sps with chromaQp } := by
  rw [ensures_given]
  constructor
  · intro hchroma
    refine (ChromaQp.read_fits sps.lowestQp).mono fun m ⟨hlength, hfits⟩ => ?_
    refine ⟨hfits, fun _ => hlength, fun hnone => ?_⟩
    cases hchroma.symm.trans hnone
  · intro hnone
    refine ⟨fun c hc => ?_, fun hchroma => ?_, fun _ => rfl⟩
    · cases hc
    · cases hnone.symm.trans hchroma

theorem readTools_chromaCoded (references : Nat → Parse Nat) (sps : Sps) :
    (readTools references sps).Ensures ChromaCoded := by
  refine .andThen fun transforms => (given_chromaQp sps).bind fun chromaQp h => ?_
  refine .andThen fun _ => .andThen fun _ => .andThen fun _ => .andThen fun _ => ?_
  extract_lets withDeblocking
  have hwithDeblocking : ∀ deblocking, (withDeblocking deblocking).Ensures ChromaCoded := fun _ =>
    .andThen fun _ => ensures_pure.mpr { h with }
  refine .andThen fun _ => ?_
  split <;> exact .andThen hwithDeblocking

theorem read_chromaCoded (vpsOf : Nat → Option Vps) (layer : Nat) :
    (read vpsOf layer).Ensures ChromaCoded := by
  refine ensures_read ?_
  refine .andThen fun _ => .andThen fun _ => .andThen fun _ => .andThen fun _ => ?_
  refine (readTools_chromaCoded _ _).bind fun sps h => ?_
  refine .bind (P := ChromaCoded) ?_ fun sps h => ?_
  · refine (readPresentation_frame sps).mono fun sps' hsps' => ?_
    rw [hsps']
    exact { h with }
  · refine (readExtensions_frame sps).mono fun sps' hsps' => ?_
    rw [hsps']
    exact { h with }

/-- The tables of chroma QPs are well formed. -/
structure ChromaTables (sps : Sps) : Prop where
  /-- A chroma QP is an entry of the table of its kind. -/
  lookup : ∀ kind < 3, ∀ qp, -(sps.qpOffset : Int) ≤ qp → sps.chromaQp? kind qp =
    (sps.chromaQp.table sps.lowestQp kind)[(qp + sps.qpOffset).toNat]?
  present : ∀ kind < 3, ∀ qp,
    (sps.chromaQp? kind qp).isSome ↔ -(sps.qpOffset : Int) ≤ qp ∧ qp ≤ 63
  range : ∀ kind qp value, sps.chromaQp? kind qp = some value →
    -(sps.qpOffset : Int) ≤ value ∧ value ≤ 63
  mono : ∀ kind qp qp' value value', qp ≤ qp' → sps.chromaQp? kind qp = some value →
    sps.chromaQp? kind qp' = some value' → value ≤ value'
  /-- The tables that have been filled have the values of the curves. -/
  filled : ∀ kind, sps.chromaQp.table sps.lowestQp kind = (qpRange sps.lowestQp).map fun qp =>
    ((sps.chromaQp.curve? kind).map (·.value qp)).getD qp
  /-- There are as many coded curves as the flags say. -/
  coded : sps.hasChroma = true → sps.chromaQp.curves.length = sps.chromaQp.codedCount
  /-- The table of a coded curve has the pivots of the curve. -/
  pivots : ∀ (kind : Nat) curve, sps.chromaQp.curves[kind]? = some curve →
    ∀ n ≤ curve.steps.length, sps.chromaQp? kind (curve.inputAt n) = some (curve.outputAt n)
  /-- Without chroma the QPs are equal. -/
  monochrome : sps.hasChroma = false → ∀ kind < 3, ∀ qp, -(sps.qpOffset : Int) ≤ qp → qp ≤ 63 →
    sps.chromaQp? kind qp = some qp

theorem ChromaCoded.kind_lt {sps : Sps} (h : sps.ChromaCoded) {kind : Nat} {curve : QpCurve}
    (hcurve : sps.chromaQp.curves[kind]? = some curve) : kind < ChromaQp.kinds := by
  have hlt := (List.getElem?_eq_some_iff.mp hcurve).1
  have hle : sps.chromaQp.codedCount ≤ 3 := by
    unfold ChromaQp.codedCount
    split_ifs <;> decide
  cases hchroma : sps.hasChroma with
  | true =>
    rw [h.coded hchroma] at hlt
    exact hlt.trans_le hle
  | false =>
    rw [h.absent hchroma] at hlt
    cases hlt

theorem ChromaCoded.chromaTables {sps : Sps} (h : sps.ChromaCoded) : sps.ChromaTables where
  lookup kind hkind qp hqp := by
    have hindex : qp + sps.qpOffset = qp - sps.lowestQp := by
      unfold lowestQp
      omega
    rw [hindex]
    exact ChromaQp.value?_eq_getElem? hkind hqp
  present kind hkind qp := ChromaQp.isSome_value? hkind
  range kind qp value hvalue := h.fits.range hvalue
  mono kind qp qp' value value' hle hvalue hvalue' := h.fits.mono hle hvalue hvalue'
  filled := h.fits.table_eq
  coded := h.coded
  pivots kind curve hcurve n hn :=
    h.fits.pivot (h.kind_lt hcurve) (ChromaQp.curve?_of_coded hcurve) hn
  monochrome hnone kind hkind qp hlow hhigh := by
    have hcurve : sps.chromaQp.curve? kind = none := by
      rw [ChromaQp.curve?, h.absent hnone]
      rfl
    rw [chromaQp?, h.fits.value?_eq hkind hlow, hcurve]
    exact if_pos hhigh

end Sps

namespace Session

variable {s s' : Session} {nal : Nal}

/-- **The tables of chroma QPs of an accepted sequence parameter set are well formed.** -/
theorem chromaTables_of_readSps {sps : Sps} (h : s.readSps nal = (.ok sps, s')) :
    sps.ChromaTables := by
  have hrun := run_of_register (congrArg Prod.fst h)
  exact ((Sps.read_chromaCoded _ _).of_run hrun).chromaTables

/-- A sequence parameter set with three curves.  The second one rises by 45 over 41 luma QPs. -/
def threeCurves : Nal where
  header := { kind := .sps, temporalIdPlus1 := 1 }
  bytes := [0x00, 0x79, 0x00, 0x09, 0x02, 0x33, 0x00, 0x00, 0x00, 0x82, 0x04, 0x11, 0x88, 0x0f,
    0x6c, 0x42, 0xc8, 0x45, 0x47, 0x23, 0x60, 0xd6, 0x0a, 0x4c, 0x0f, 0x12, 0xd0, 0x0c, 0x04,
    0x10, 0x00, 0x04]

theorem chromaTables_threeCurves : ∃ sps s', (start false).readSps threeCurves = (.ok sps, s') ∧
    sps.ChromaTables ∧ sps.chromaQp.curves.length = 3 ∧ sps.chromaQp? 1 41 = some 45 := by
  have hcheck : (match (start false).readSps threeCurves with
    | (.ok sps, _) => sps.chromaQp.curves.length == 3 &&
        sps.chromaQp.curves[1]? == some { startMinus26 := -26, steps := [⟨40, 5⟩] }
    | _ => false) = true := by
    decide +kernel
  split at hcheck
  · rename_i sps s' hread
    simp only [Bool.and_eq_true, beq_iff_eq] at hcheck
    obtain ⟨hlength, hcurve⟩ := hcheck
    have htables := chromaTables_of_readSps hread
    exact ⟨sps, s', hread, htables, hlength, htables.pivots 1 _ hcurve 1 le_rfl⟩
  · cases hcheck

end Session

end CodedVideo
