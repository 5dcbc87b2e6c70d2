import CodedVideo.Proofs.Reads
import CodedVideo.Proofs.ScalingMatrices

/-!
# Coding scaling matrices

A `PlainMatrix` holds what a scaling matrix is to be: coefficients that are positive and fit in
a byte, except in the quadrant that has none, and a DC coefficient.  Its bits are those of a
matrix that is neither copied nor predicted (`PlainMatrix.bits`).

The reader adds up the differences without reducing them and reduces only the sum with the
prediction, so what it has added up is known modulo 256 (`exists_reads_readDeltas`).  That is
enough for the coefficients to come out (`Reaches.reconstruct`), and so every choice of all
28 matrices is read back from its bits (`ScalingLists.matrices_transmitted`).
-/

namespace CodedVideo

open Nal (expGolombBits signedCode)
open Parse

namespace ScalingList

/-- Values for the coefficients that matrix `id` has, and for its DC coefficient. -/
structure PlainMatrix (id : Nat) where
  /-- The coefficient in column `x` and row `y`. -/
  coefficient : Nat → Nat → Nat
  /-- The DC coefficient, if it is separate. -/
  dc : Nat
  coefficient_range : ∀ x < size id, ∀ y < size id,
    if isZeroed id x y then coefficient x y = 0
    else 1 ≤ coefficient x y ∧ coefficient x y ≤ 255
  dc_range : firstDc ≤ id → 1 ≤ dc ∧ dc ≤ 255

/-- The differences between values that follow one another, modulo 256 and close to zero. -/
def differences : (previous : Int) → List Nat → List Int
  | _, [] => []
  | previous, value :: rest => (value - previous).bmod 256 :: differences value rest

/-- The codeword of a signed number. -/
def seBits (value : Int) : List Bool := expGolombBits (signedCode value)

namespace PlainMatrix

variable {id : Nat} (m : PlainMatrix id)

/-- The coefficients at the positions that have one, in order. -/
def along (positions : List (Nat × Nat)) : List Nat :=
  (positions.filter fun p => !isZeroed id p.1 p.2).map fun p => m.coefficient p.1 p.2

/-- The coded difference of the DC coefficient. -/
def dcDelta : Int := if id < firstDc then 0 else m.dc - 8

/-- What the first coefficient is coded relative to. -/
def start : Int := if id < firstDc then 8 else m.dc

/-- The bits of a matrix that is neither copied nor predicted: the DC coefficient relative to
eight and the coefficients along the diagonals, each relative to the one before. -/
def bits : List Bool :=
  [false, false] ++ ((if id < firstDc then [] else seBits (m.dc - 8)) ++
    (differences m.start (m.along (diagonals (size id)))).flatMap seBits)

/-- The matrix as it is read. -/
def list : ScalingList where
  dcDelta := m.dcDelta
  coefficients := ((List.range (size id * size id)).map fun place =>
    m.coefficient (place % size id) (place / size id)).toArray
  dc := if id < firstDc then none else some m.dc

theorem coefficient_le {x y : Nat} (hx : x < size id) (hy : y < size id) :
    m.coefficient x y ≤ 255 := by
  have hrange := m.coefficient_range x hx y hy
  split at hrange <;> omega

theorem size_list : m.list.coefficients.size = size id * size id := by
  simp [list]

theorem coefficient_list {x y : Nat} (hx : x < size id) (hy : y < size id) :
    m.list.coefficient id x y = m.coefficient x y := by
  obtain ⟨hcolumn, hrow⟩ := column_and_row hx y
  rw [ScalingList.coefficient, list, Array.getD_eq_getD_getElem?, List.getElem?_toArray,
    List.getElem?_map, List.getElem?_range (place_lt hx hy), Option.map_some, Option.getD_some,
    hcolumn, hrow]

/-! ### Differences -/

/-- What has been read adds up to the coefficients modulo 256. -/
def Reaches (deltas : List Int) (positions : List (Nat × Nat)) : Prop :=
  List.Forall₂ (fun p delta => isZeroed id p.1 p.2 = false →
    (8 + delta) % 256 = (m.coefficient p.1 p.2 : Int)) positions deltas

theorem reads_step {last : Int} (value : Nat) :
    (seBetween (-128) 127).Reads (seBits ((value - last).bmod 256)) ((value - last).bmod 256) := by
  have hlow : -(256 / 2 : Int) ≤ ((value : Int) - last).bmod 256 := Int.le_bmod (by decide)
  have hhigh : ((value : Int) - last).bmod 256 < (256 + 1) / 2 := Int.bmod_lt (by decide)
  exact reads_seBetween (by omega) (by omega) (by omega) (by omega)

/-- **The differences are read back.**  The sum of those read so far stays in step with the
coefficient coded last. -/
theorem exists_reads_readDeltas {positions : List (Nat × Nat)} {previous last : Int}
    (hpositions : ∀ p ∈ positions, p.1 < size id ∧ p.2 < size id)
    (hstep : (8 + previous) % 256 = last % 256) :
    ∃ deltas, m.Reaches deltas positions ∧ (readDeltas id positions previous).Reads
      ((differences last (m.along positions)).flatMap seBits) deltas := by
  induction positions generalizing previous last with
  | nil => exact ⟨[], .nil, reads_pure []⟩
  | cons position rest ih =>
    obtain ⟨x, y⟩ := position
    obtain ⟨⟨hx, hy⟩, hrest⟩ := List.forall_mem_cons.mp hpositions
    cases hzeroed : isZeroed id x y with
    | true =>
      have hstep' : (8 + (previous + 0)) % 256 = last % 256 := by rwa [Int.add_zero]
      obtain ⟨deltas, hreaches, hreads⟩ := ih hrest hstep'
      have halong : m.along ((x, y) :: rest) = m.along rest := by
        simp [along, hzeroed]
      refine ⟨(previous + 0) :: deltas, .cons (fun h => ?_) hreaches, ?_⟩
      · cases hzeroed.symm.trans h
      · rw [halong, readDeltas, hzeroed]
        exact (reads_pure (0 : Int)).bind_left (hreads.bind_right (reads_pure _))
    | false =>
      have hmod : ((m.coefficient x y : Int) - last).bmod 256 % 256 =
          ((m.coefficient x y : Int) - last) % 256 := Int.bmod_emod
      have hle : m.coefficient x y ≤ 255 := m.coefficient_le hx hy
      have hsum : (8 + (previous + ((m.coefficient x y : Int) - last).bmod 256)) % 256 =
          (m.coefficient x y : Int) % 256 := by omega
      obtain ⟨deltas, hreaches, hreads⟩ := ih hrest hsum
      have halong : m.along ((x, y) :: rest) = m.coefficient x y :: m.along rest := by
        simp [along, hzeroed]
      refine ⟨(previous + ((m.coefficient x y : Int) - last).bmod 256) :: deltas,
        .cons (fun _ => ?_) hreaches, ?_⟩
      · exact hsum.trans (Int.emod_eq_of_lt (by omega) (by omega))
      · rw [halong, readDeltas, hzeroed, differences, List.flatMap_cons]
        exact (reads_step _).bind (hreads.bind_right (reads_pure _))

/-! ### The matrix that they make -/

theorem prediction_plain (earlier : ScalingLists) : prediction id false false 0 earlier =
    { coefficients := Array.replicate (size id * size id) 8, dc := 8 } := by
  simp [prediction]

theorem exists_addDeltas {base : Prediction} {steps : List ((Nat × Nat) × Int)}
    (h : ∀ x y delta, ((x, y), delta) ∈ steps → isZeroed id x y = false →
      base.shift (y * size id + x) delta ≠ 0) (matrix : Array Nat) :
    ∃ result, addDeltas id base matrix steps = .ok result := by
  induction steps generalizing matrix with
  | nil => exact ⟨matrix, rfl⟩
  | cons step rest ih =>
    obtain ⟨⟨x, y⟩, delta⟩ := step
    have hrest := ih fun x y delta hstep => h x y delta (List.mem_cons_of_mem _ hstep)
    rw [addDeltas]
    split
    case isTrue => exact hrest matrix
    case isFalse hcoded =>
      have hne := h x y delta List.mem_cons_self (Bool.eq_false_iff.mpr hcoded)
      exact (hrest _).imp fun result hresult => (if_neg hne).trans hresult

/-- A difference leads from eight to the coefficient. -/
theorem Reaches.shift_eq {m : PlainMatrix id} {deltas : List Int}
    (h : m.Reaches deltas (diagonals (size id))) {x y : Nat} {delta : Int}
    (hstep : ((x, y), delta) ∈ (diagonals (size id)).zip deltas)
    (hcoded : isZeroed id x y = false) (earlier : ScalingLists) :
    (prediction id false false 0 earlier).shift (y * size id + x) delta = m.coefficient x y := by
  obtain ⟨hx, hy⟩ := mem_diagonals.mp (List.of_mem_zip hstep).1
  have hsum : (8 + delta) % 256 = (m.coefficient x y : Int) :=
    List.forall₂_zip h hstep hcoded
  have height : (Array.replicate (size id * size id) 8).getD (y * size id + x) 0 = 8 := by
    rw [Array.getD_eq_getD_getElem?, Array.getElem?_replicate, if_pos (place_lt hx hy),
      Option.getD_some]
  rw [prediction_plain, Prediction.shift, height]
  omega

theorem addDc_plain (earlier : ScalingLists) :
    addDc id (prediction id false false 0 earlier) m.dcDelta = .ok m.list.dc := by
  rw [prediction_plain, addDc, list, dcDelta]
  split
  case isTrue => rfl
  case isFalse hfirst =>
    have hrange := m.dc_range (not_lt.mp hfirst)
    have hvalue : (((8 : Nat) + ((m.dc : Int) - 8)) % 256).toNat = m.dc := by omega
    dsimp only
    rw [hvalue, if_neg (by omega)]

theorem Reaches.shift_ne_zero {m : PlainMatrix id} {deltas : List Int}
    (h : m.Reaches deltas (diagonals (size id))) {x y : Nat} {delta : Int}
    (hstep : ((x, y), delta) ∈ (diagonals (size id)).zip deltas)
    (hcoded : isZeroed id x y = false) (earlier : ScalingLists) :
    (prediction id false false 0 earlier).shift (y * size id + x) delta ≠ 0 := by
  obtain ⟨hx, hy⟩ := mem_diagonals.mp (List.of_mem_zip hstep).1
  have hrange := m.coefficient_range x hx y hy
  rw [hcoded, if_neg Bool.false_ne_true] at hrange
  rw [h.shift_eq hstep hcoded]
  omega

/-- A matrix is known by its coefficients. -/
theorem eq_coefficients_list {coefficients : Array Nat}
    (hsize : coefficients.size = size id * size id)
    (h : ∀ x < size id, ∀ y < size id,
      coefficients.getD (y * size id + x) 0 = m.coefficient x y) :
    coefficients = m.list.coefficients := by
  refine Array.ext (hsize.trans m.size_list.symm) fun place hplace _ => ?_
  have hlt : place < size id * size id := hplace.trans_eq hsize
  have hvalue := h (place % size id) (Nat.mod_lt _ (size_pos id)) (place / size id)
    (Nat.div_lt_of_lt_mul hlt)
  rw [Nat.div_add_mod', Array.getD_eq_getD_getElem?, Array.getElem?_eq_getElem hplace,
    Option.getD_some] at hvalue
  rw [hvalue]
  simp [list]

/-- **The differences make the matrix.** -/
theorem Reaches.reconstruct {m : PlainMatrix id} {deltas : List Int}
    (h : m.Reaches deltas (diagonals (size id))) (earlier : ScalingLists) :
    ScalingList.reconstruct id false false 0 m.dcDelta deltas earlier = .ok m.list := by
  obtain ⟨coefficients, hcoefficients⟩ :=
    exists_addDeltas (fun _ _ _ hstep hcoded => h.shift_ne_zero hstep hcoded earlier)
      (Array.replicate (size id * size id) 0)
  have hmade := reconstruct_eq_ok.mpr ⟨coefficients, _, hcoefficients, m.addDc_plain earlier, rfl⟩
  obtain ⟨hsize, hvalues⟩ := coefficient_of_reconstruct h.length_eq.symm hmade
  have hsame : coefficients = m.list.coefficients := by
    refine m.eq_coefficients_list hsize fun x hx y hy => ?_
    obtain ⟨hzero, hsum⟩ := hvalues x hx y hy
    cases hzeroed : isZeroed id x y with
    | true =>
      have hrange := m.coefficient_range x hx y hy
      rw [if_pos hzeroed] at hrange
      exact (hzero hzeroed).trans hrange.symm
    | false =>
      obtain ⟨delta, hstep, -, hvalue⟩ := hsum hzeroed
      exact hvalue.trans (h.shift_eq hstep hzeroed earlier)
  rw [hmade, hsame]
  rfl

/-! ### One matrix -/

/-- **A matrix is read back from its bits.** -/
theorem reads_read (earlier : ScalingLists) : (read true id earlier).Reads m.bits m.list := by
  have hstart : (8 + m.dcDelta) % 256 = m.start % 256 := by
    unfold dcDelta start
    split <;> omega
  obtain ⟨deltas, hreaches, hdeltas⟩ := m.exists_reads_readDeltas
    (fun p hp => mem_diagonals.mp hp) hstart
  have hdc : (given (!false && id ≥ firstDc) (seBetween (-254) 254)).Reads
      (if id < firstDc then [] else seBits (m.dc - 8)) m.dcDelta := by
    unfold dcDelta
    split
    case isTrue hfirst =>
      rw [given, if_neg (by simpa using hfirst)]
      exact reads_pure 0
    case isFalse hfirst =>
      have hrange := m.dc_range (not_lt.mp hfirst)
      rw [given, if_pos (by simpa using hfirst)]
      exact reads_seBetween (by omega) (by omega) (by omega) (by omega)
  refine (reads_flag false).bind ((reads_flag false).bind ?_)
  refine (reads_pure (0 : Nat)).bind_left (hdc.bind ?_)
  refine hdeltas.bind_right ?_
  dsimp only
  rw [hreaches.reconstruct]
  exact reads_pure _

/-- A matrix in which all coefficients are the same. -/
def level (id value : Nat) (h : 1 ≤ value ∧ value ≤ 255) : PlainMatrix id where
  coefficient x y := if isZeroed id x y then 0 else value
  dc := value
  coefficient_range x _ y _ := by
    split
    · rfl
    · exact h
  dc_range _ := h

/-- Four is added to eight once. -/
example : (level 0 12 (by decide)).bits = [false, false] ++ seBits 4 ++ [true, true, true] := by
  decide

end PlainMatrix

end ScalingList

/-! ### All matrices -/

namespace ScalingLists

open ScalingList

variable (plan : ∀ id, PlainMatrix id)

/-- The bits of all matrices. -/
def plainBits : List Bool := (List.range 28).flatMap fun id => (plan id).bits

/-- The matrices below `n` as they are read. -/
def planned (n : Nat) : ScalingLists := ⟨((List.range n).map fun id => (plan id).list).toArray⟩

theorem size_planned (n : Nat) : (planned plan n).matrices.size = n := by
  simp [planned]

theorem push_planned (n : Nat) :
    (⟨(planned plan n).matrices.push (plan n).list⟩ : ScalingLists) = planned plan (n + 1) := by
  simp [planned, List.range_succ]

theorem reads_readMore (remaining n : Nat) : (readMore true remaining (planned plan n)).Reads
    ((List.range' n remaining).flatMap fun id => (plan id).bits) (planned plan (n + remaining)) := by
  induction remaining generalizing n with
  | zero => exact reads_pure _
  | succ remaining ih =>
    have hfirst : (ScalingList.read true (planned plan n).matrices.size (planned plan n)).Reads
        (plan n).bits (plan n).list := by
      rw [size_planned]
      exact (plan n).reads_read _
    have hrest := ih (n + 1)
    rw [← push_planned, Nat.add_right_comm] at hrest
    rw [List.range'_succ, List.flatMap_cons]
    exact hfirst.bind hrest

/-- What all matrices hold if they are those of a plan. -/
structure Shows (lists : ScalingLists) (plan : ∀ id, PlainMatrix id) : Prop where
  size_eq : lists.matrices.size = 28
  sizes : ∀ (id : Nat) list, lists.matrices[id]? = some list →
    list.coefficients.size = size id * size id
  coefficient : ∀ id < 28, ∀ x < size id, ∀ y < size id,
    lists.coefficient id x y = (plan id).coefficient x y
  dc : ∀ id < 28, lists.dc? id = if id < 14 then none else some (plan id).dc

theorem shows_planned : (planned plan 28).Shows plan := by
  have hat : ∀ id < 28, (planned plan 28).matrices[id]? = some (plan id).list := by
    intro id hid
    rw [planned, List.getElem?_toArray, List.getElem?_map, List.getElem?_range hid,
      Option.map_some]
  constructor
  case size_eq => exact size_planned plan 28
  case sizes =>
    intro id list hlist
    have hid : id < 28 := (Array.getElem?_eq_some_iff.mp hlist).1.trans_eq (size_planned plan 28)
    cases (hat id hid).symm.trans hlist
    exact (plan id).size_list
  case coefficient =>
    intro id hid x hx y hy
    rw [ScalingLists.coefficient, hat id hid]
    exact (plan id).coefficient_list hx hy
  case dc =>
    intro id hid
    rw [dc?, hat id hid]
    rfl

/-- **Every choice of scaling matrices is read back from its bits.**  Reading takes exactly
these bits. -/
theorem matrices_transmitted : ∃ lists, (read true).Reads (plainBits plan) lists ∧
    lists.Shows plan := by
  have hreads := reads_readMore plan 28 0
  rw [Nat.zero_add, ← List.range_eq_range'] at hreads
  exact ⟨_, hreads, shows_planned plan⟩

end ScalingLists

end CodedVideo
