import CodedVideo.Proofs.Outcome
import CodedVideo.Proofs.TileGrid
import CodedVideo.ScalingList

/-!
# Scaling matrices that can be used

A scaling matrix divides, so none of its coefficients may be zero.  They are sums modulo 256 of
coded differences and of a prediction, which may be an earlier matrix, and a sum that is zero is
refused on the spot.  The diagonals pass each position of a block once (`mem_diagonals`,
`pairwise_diagonals`), so `Filled` tells for each position what has been put there.

What is known of one matrix refers to the matrices before it (`ScalingList.Usable`).  Matrices
that follow change nothing about it, so by induction it is known of all matrices that have been
read (`ScalingLists.usable_of_read`): coefficients are never zero outside the quadrant that has
none, a copy has the coefficients of the matrix it names, and a matrix that is not coded is flat.
-/

namespace CodedVideo

open Parse

namespace ScalingList

/-! ### Diagonals -/

theorem mem_diagonals {size x y : Nat} : (x, y) ∈ diagonals size ↔ x < size ∧ y < size := by
  simp only [diagonals, List.mem_flatMap, List.mem_range, List.mem_filterMap,
    Option.ite_none_right_eq_some, Option.some.injEq, Prod.mk.injEq]
  constructor
  · rintro ⟨sum, _, x', _, ⟨hx, hy⟩, rfl, rfl⟩
    exact ⟨hx, hy⟩
  · rintro ⟨hx, hy⟩
    exact ⟨x + y, by omega, x, by omega, ⟨hx, by omega⟩, rfl, by omega⟩

/-- **The order of the positions**: one diagonal after the other, and along each of them to the
right, which is upwards. -/
theorem pairwise_diagonals (size : Nat) : (diagonals size).Pairwise fun (x, y) (x', y') =>
    x + y < x' + y' ∨ (x + y = x' + y' ∧ x < x') := by
  have hdiagonal : ∀ {sum x y x'}, (if x' < size ∧ sum - x' < size then some (x', sum - x')
      else none) = some (x, y) → x' ≤ sum → x = x' ∧ x + y = sum := by
    intro sum x y x' h hsum
    rw [Option.ite_none_right_eq_some] at h
    obtain ⟨-, ⟨⟩⟩ := h
    exact ⟨rfl, by omega⟩
  refine List.pairwise_flatMap.mpr ⟨fun sum _ => ?_, ?_⟩
  · refine List.pairwise_filterMap.mpr (List.pairwise_lt_range.imp_of_mem ?_)
    rintro x₁ x₂ hx₁ hx₂ hlt ⟨x, y⟩ h ⟨x', y'⟩ h'
    obtain ⟨rfl, hsum⟩ := hdiagonal h (Nat.le_of_lt_succ (List.mem_range.mp hx₁))
    obtain ⟨rfl, hsum'⟩ := hdiagonal h' (Nat.le_of_lt_succ (List.mem_range.mp hx₂))
    exact .inr ⟨hsum.trans hsum'.symm, hlt⟩
  · refine List.pairwise_lt_range.imp ?_
    rintro sum sum' hlt ⟨x, y⟩ hp ⟨x', y'⟩ hp'
    obtain ⟨x₁, hx₁, h⟩ := List.mem_filterMap.mp hp
    obtain ⟨x₂, hx₂, h'⟩ := List.mem_filterMap.mp hp'
    obtain ⟨-, hsum⟩ := hdiagonal h (Nat.le_of_lt_succ (List.mem_range.mp hx₁))
    obtain ⟨-, hsum'⟩ := hdiagonal h' (Nat.le_of_lt_succ (List.mem_range.mp hx₂))
    exact .inl (by omega)

theorem nodup_diagonals (size : Nat) : (diagonals size).Nodup := by
  refine (pairwise_diagonals size).imp ?_
  rintro ⟨x, y⟩ _ horder rfl
  dsimp only at horder
  omega

example : (diagonals 4).take 6 = [(0, 0), (0, 1), (1, 0), (0, 2), (1, 1), (2, 0)] := by
  decide

/-- The column and the row tell where a coefficient is stored. -/
theorem place_inj {size x y x' y' : Nat} (hx : x < size) (hx' : x' < size)
    (h : y * size + x = y' * size + x') : (x, y) = (x', y') := by
  obtain ⟨hcolumn, hrow⟩ := column_and_row hx y
  obtain ⟨hcolumn', hrow'⟩ := column_and_row hx' y'
  rw [h] at hcolumn hrow
  exact Prod.ext (hcolumn.symm.trans hcolumn') (hrow.symm.trans hrow')

theorem place_lt {size x y : Nat} (hx : x < size) (hy : y < size) : y * size + x < size * size :=
  calc y * size + x < y * size + size := Nat.add_lt_add_left hx _
    _ = (y + 1) * size := (Nat.succ_mul y size).symm
    _ ≤ size * size := Nat.mul_le_mul_right size hy

/-! ### Sums of differences and predictions -/

variable {id : Nat} {base : Prediction} {steps : List ((Nat × Nat) × Int)}
  {matrix result : Array Nat}

/-- The coefficient at a place that a difference makes of the predicted one. -/
def Prediction.shift (base : Prediction) (place : Nat) (delta : Int) : Nat :=
  ((base.coefficients.getD place 0 + delta) % 256).toNat

theorem Prediction.shift_le (base : Prediction) (place : Nat) (delta : Int) :
    base.shift place delta ≤ 255 := by
  unfold shift
  omega

/-- Without a difference the predicted coefficient is taken over. -/
theorem Prediction.shift_zero {place : Nat} (h : base.coefficients.getD place 0 ≤ 255) :
    base.shift place 0 = base.coefficients.getD place 0 := by
  unfold shift
  omega

/-- The matrix that has been made by adding differences to a prediction. -/
structure Filled (id : Nat) (base : Prediction) (matrix : Array Nat)
    (steps : List ((Nat × Nat) × Int)) (result : Array Nat) : Prop where
  size_eq : result.size = matrix.size
  /-- A coefficient for which there is no difference has been left alone. -/
  kept : ∀ x < size id, ∀ y, ((x, y) ∈ steps.map Prod.fst → isZeroed id x y = true) →
    result[y * size id + x]? = matrix[y * size id + x]?
  /-- The others are the sums, none of which is zero. -/
  sum : ∀ x y delta, ((x, y), delta) ∈ steps → isZeroed id x y = false →
    base.shift (y * size id + x) delta ≠ 0 ∧ (y * size id + x < matrix.size →
      result[y * size id + x]? = some (base.shift (y * size id + x) delta))

/-- A position without a coefficient is passed over. -/
theorem Filled.skipped {x₀ y₀ : Nat} {delta₀ : Int} (h : Filled id base matrix steps result)
    (hzeroed : isZeroed id x₀ y₀ = true) :
    Filled id base matrix (((x₀, y₀), delta₀) :: steps) result where
  size_eq := h.size_eq
  kept x hx y hmem := h.kept x hx y fun hlater => hmem (List.mem_cons_of_mem _ hlater)
  sum x y delta hstep hcoded := by
    rcases List.mem_cons.mp hstep with heq | hlater
    · cases heq
      cases hcoded.symm.trans hzeroed
    · exact h.sum x y delta hlater hcoded

/-- At another position a coefficient is put into the matrix, and it stays there. -/
theorem Filled.put {x₀ y₀ : Nat} {delta₀ : Int} (hx₀ : x₀ < size id)
    (hnot : (x₀, y₀) ∉ steps.map Prod.fst) (hcoded₀ : isZeroed id x₀ y₀ = false)
    (hne : base.shift (y₀ * size id + x₀) delta₀ ≠ 0)
    (h : Filled id base (matrix.setIfInBounds (y₀ * size id + x₀)
      (base.shift (y₀ * size id + x₀) delta₀)) steps result) :
    Filled id base matrix (((x₀, y₀), delta₀) :: steps) result where
  size_eq := h.size_eq.trans Array.size_setIfInBounds
  kept x hx y hmem := by
    rw [h.kept x hx y fun hlater => hmem (List.mem_cons_of_mem _ hlater)]
    refine Array.getElem?_setIfInBounds_ne fun hplace => ?_
    obtain ⟨rfl, rfl⟩ := Prod.mk.inj (place_inj hx₀ hx hplace)
    cases hcoded₀.symm.trans (hmem List.mem_cons_self)
  sum x y delta hstep hcoded := by
    rcases List.mem_cons.mp hstep with heq | hlater
    · cases heq
      refine ⟨hne, fun hplace => ?_⟩
      rw [h.kept x₀ hx₀ y₀ fun hlater => absurd hlater hnot]
      exact Array.getElem?_setIfInBounds_self_of_lt hplace
    · obtain ⟨hpos, hvalue⟩ := h.sum x y delta hlater hcoded
      exact ⟨hpos, fun hplace => hvalue (Array.size_setIfInBounds.symm ▸ hplace)⟩

theorem addDeltas_filled (hnodup : (steps.map Prod.fst).Nodup)
    (hsteps : ∀ p ∈ steps.map Prod.fst, p.1 < size id)
    (h : addDeltas id base matrix steps = .ok result) : Filled id base matrix steps result := by
  induction steps generalizing matrix with
  | nil =>
    cases h
    exact ⟨rfl, fun _ _ _ _ => rfl, fun _ _ _ h => absurd h List.not_mem_nil⟩
  | cons step rest ih =>
    obtain ⟨⟨x, y⟩, delta⟩ := step
    obtain ⟨hnot, hnodup⟩ := List.nodup_cons.mp hnodup
    obtain ⟨hx, hsteps⟩ := List.forall_mem_cons.mp hsteps
    unfold addDeltas at h
    split at h
    case isTrue hzeroed => exact (ih hnodup hsteps h).skipped hzeroed
    case isFalse hcoded =>
      dsimp only at h
      split at h
      case isTrue => cases h
      case isFalse hne =>
        exact (ih hnodup hsteps h).put hx hnot (Bool.eq_false_iff.mpr hcoded) hne

/-! ### One matrix -/

variable {chroma copied predicted : Bool} {idDelta : Nat} {dcDelta : Int} {deltas : List Int}
  {earlier : ScalingLists} {list reference : ScalingList}

theorem reconstruct_eq_ok :
    reconstruct id copied predicted idDelta dcDelta deltas earlier = .ok list ↔
      ∃ coefficients dc,
        addDeltas id (prediction id copied predicted idDelta earlier)
          (Array.replicate (size id * size id) 0) ((diagonals (size id)).zip deltas) =
            .ok coefficients ∧
        addDc id (prediction id copied predicted idDelta earlier) dcDelta = .ok dc ∧
        list = { copied, predicted, idDelta, dcDelta, coefficients, dc } := by
  constructor
  · intro h
    obtain ⟨coefficients, hcoefficients, h⟩ := except_bind_eq_ok.mp h
    obtain ⟨dc, hdc, h⟩ := except_bind_eq_ok.mp h
    cases h
    exact ⟨coefficients, dc, hcoefficients, hdc, rfl⟩
  · rintro ⟨coefficients, dc, hcoefficients, hdc, rfl⟩
    exact except_bind_eq_ok.mpr ⟨coefficients, hcoefficients,
      except_bind_eq_ok.mpr ⟨dc, hdc, rfl⟩⟩

/-- The coefficients of a matrix that has been made of as many differences as there are
positions. -/
theorem coefficient_of_reconstruct (hlength : deltas.length = (diagonals (size id)).length)
    (h : reconstruct id copied predicted idDelta dcDelta deltas earlier = .ok list) :
    list.coefficients.size = size id * size id ∧
      ∀ x < size id, ∀ y < size id,
        (isZeroed id x y = true → list.coefficient id x y = 0) ∧
        (isZeroed id x y = false → ∃ delta, ((x, y), delta) ∈ (diagonals (size id)).zip deltas ∧
          list.coefficient id x y ≠ 0 ∧ list.coefficient id x y =
            (prediction id copied predicted idDelta earlier).shift (y * size id + x) delta) := by
  obtain ⟨coefficients, dc, hcoefficients, -, rfl⟩ := reconstruct_eq_ok.mp h
  have hsteps : ((diagonals (size id)).zip deltas).map Prod.fst = diagonals (size id) :=
    List.map_fst_zip hlength.ge
  have hfilled := addDeltas_filled (by rw [hsteps]; exact nodup_diagonals _)
    (by rw [hsteps]; exact fun p hp => (mem_diagonals.mp hp).1) hcoefficients
  have hsize : (Array.replicate (size id * size id) 0).size = size id * size id :=
    Array.size_replicate
  refine ⟨hfilled.size_eq.trans hsize, fun x hx y hy => ?_⟩
  have hplace := place_lt hx hy
  unfold coefficient
  rw [Array.getD_eq_getD_getElem?]
  constructor
  · intro hzeroed
    rw [hfilled.kept x hx y fun _ => hzeroed, Array.getElem?_replicate, if_pos hplace,
      Option.getD_some]
  · intro hcoded
    have hmem : (x, y) ∈ ((diagonals (size id)).zip deltas).map Prod.fst := by
      rw [hsteps]
      exact mem_diagonals.mpr ⟨hx, hy⟩
    obtain ⟨⟨_, delta⟩, hstep, rfl⟩ := List.mem_map.mp hmem
    obtain ⟨hne, hvalue⟩ := hfilled.sum x y delta hstep hcoded
    rw [hvalue (hsize.symm ▸ hplace), Option.getD_some]
    exact ⟨delta, hstep, hne, rfl⟩

theorem dc_of_reconstruct
    (h : reconstruct id copied predicted idDelta dcDelta deltas earlier = .ok list) :
    (id < firstDc → list.dc = none) ∧
      (firstDc ≤ id → ∃ dc, list.dc = some dc ∧ 1 ≤ dc ∧ dc ≤ 255 ∧
        dc = (((prediction id copied predicted idDelta earlier).dc + dcDelta) % 256).toNat) := by
  obtain ⟨coefficients, dc, -, hdc, rfl⟩ := reconstruct_eq_ok.mp h
  unfold addDc at hdc
  split at hdc
  case isTrue hnone =>
    cases hdc
    exact ⟨fun _ => rfl, fun hsome => absurd hnone hsome.not_gt⟩
  case isFalse hsome =>
    dsimp only at hdc
    split at hdc
    case isTrue => cases hdc
    case isFalse hne =>
      cases hdc
      exact ⟨fun hnone => absurd hnone hsome, fun _ => ⟨_, rfl, by omega, by omega, rfl⟩⟩

/-! ### Predictions -/

/-- A reference has the size of the matrix that refers to it. -/
theorem size_reference (h : idDelta ≤ maxDelta id) :
    idDelta ≤ id ∧ size (id - idDelta) = size id := by
  unfold maxDelta at h
  unfold size
  split_ifs at h ⊢ <;> omega

theorem prediction_reference (hmode : copied = true ∨ predicted = true) (hdelta : 0 < idDelta)
    (hreference : earlier.matrices[id - idDelta]? = some reference) :
    prediction id copied predicted idDelta earlier =
      { coefficients := reference.coefficients
        dc := reference.dc.getD (reference.coefficients.getD 0 0) } := by
  have hcoded : (!copied && !predicted) = false := by
    rcases hmode with rfl | rfl <;> simp
  unfold prediction
  simp [hcoded, hdelta.ne', hreference]

theorem prediction_flat (hmode : copied = true ∨ predicted = true) :
    prediction id copied predicted 0 earlier =
      { coefficients := Array.replicate (size id * size id) 16, dc := 16 } := by
  have hcoded : (!copied && !predicted) = false := by
    rcases hmode with rfl | rfl <;> simp
  unfold prediction
  simp [hcoded]

/-! ### Matrices that can be used -/

/-- What is known of matrix `id` when it has been read. -/
structure Usable (chroma : Bool) (lists : ScalingLists) (id : Nat) (list : ScalingList) :
    Prop where
  size_eq : list.coefficients.size = size id * size id
  /-- Coefficients are missing in the quadrant of high frequencies and positive elsewhere. -/
  coefficient : ∀ x < size id, ∀ y < size id,
    if isZeroed id x y then list.coefficient id x y = 0
    else 1 ≤ list.coefficient id x y ∧ list.coefficient id x y ≤ 255
  dc : if id < firstDc then list.dc = none else ∃ dc, list.dc = some dc ∧ 1 ≤ dc ∧ dc ≤ 255
  /-- A copy has the coefficients of its reference, and its DC coefficient or the one in the
  corner. -/
  copy : list.copied = true → 0 < list.idDelta → list.idDelta ≤ id ∧
    size (id - list.idDelta) = size id ∧
    ∃ reference, lists.matrices[id - list.idDelta]? = some reference ∧
      (∀ x < size id, ∀ y < size id, isZeroed id x y = false →
        list.coefficient id x y = reference.coefficient (id - list.idDelta) x y) ∧
      (firstDc ≤ id →
        list.dc = some (reference.dc.getD (reference.coefficient (id - list.idDelta) 0 0)))
  /-- A matrix that is not coded is flat. -/
  flat : chroma = false → isLuma id = false →
    (∀ x < size id, ∀ y < size id, list.coefficient id x y = 16) ∧ list.dc = flatDc id

/-- Matrices that follow leave the reference where it is. -/
theorem Usable.push {lists : ScalingLists} (h : list.Usable chroma lists id)
    (next : ScalingList) : list.Usable chroma ⟨lists.matrices.push next⟩ id where
  size_eq := h.size_eq
  coefficient := h.coefficient
  dc := h.dc
  flat := h.flat
  copy hcopied hdelta := by
    obtain ⟨hle, hsize, reference, hreference, hsame⟩ := h.copy hcopied hdelta
    obtain ⟨hlt, -⟩ := Array.getElem?_eq_some_iff.mp hreference
    refine ⟨hle, hsize, reference, ?_, hsame⟩
    rw [Array.getElem?_push, if_neg hlt.ne]
    exact hreference

theorem Usable.coefficient_le {lists : ScalingLists} (h : list.Usable chroma lists id) {x y : Nat}
    (hx : x < size id) (hy : y < size id) : list.coefficient id x y ≤ 255 := by
  have hcoefficient := h.coefficient x hx y hy
  split at hcoefficient <;> omega

theorem size_pos (id : Nat) : 0 < size id := by
  unfold size
  split
  · omega
  · split <;> omega

/-- What a usable matrix predicts for the DC coefficient can be one. -/
theorem Usable.predicted_dc {lists : ScalingLists} (h : list.Usable chroma lists id) :
    list.dc.getD (list.coefficient id 0 0) ≤ 255 := by
  have hdc := h.dc
  split at hdc
  · rw [hdc, Option.getD_none]
    exact h.coefficient_le (size_pos id) (size_pos id)
  · obtain ⟨dc, hdc, -, hle⟩ := hdc
    rwa [hdc, Option.getD_some]

/-- What has been coded of a matrix. -/
structure Coded (chroma : Bool) (id : Nat) (copied : Bool) (idDelta : Nat) (dcDelta : Int)
    (deltas : List Int) : Prop where
  idDelta_le : idDelta ≤ maxDelta id
  length_eq : deltas.length = (diagonals (size id)).length
  /-- A copy has no differences. -/
  copy : copied = true → (∀ delta ∈ deltas, delta = 0) ∧ dcDelta = 0
  absent : chroma = false → isLuma id = false → copied = true ∧ idDelta = 0

theorem Coded.delta_eq_zero (h : Coded chroma id copied idDelta dcDelta deltas)
    (hcopied : copied = true) {p : Nat × Nat} {delta : Int}
    (hstep : (p, delta) ∈ (diagonals (size id)).zip deltas) : delta = 0 :=
  (h.copy hcopied).1 delta (List.of_mem_zip hstep).2

/-- A copy is like its reference. -/
theorem copy_of_reconstruct (hcoded : Coded chroma id true idDelta dcDelta deltas)
    (hdelta : 0 < idDelta) (hreference : earlier.matrices[id - idDelta]? = some reference)
    (husable : reference.Usable chroma earlier (id - idDelta))
    (h : reconstruct id true predicted idDelta dcDelta deltas earlier = .ok list) :
    (∀ x < size id, ∀ y < size id, isZeroed id x y = false →
      list.coefficient id x y = reference.coefficient (id - idDelta) x y) ∧
    (firstDc ≤ id →
      list.dc = some (reference.dc.getD (reference.coefficient (id - idDelta) 0 0))) := by
  have hsize := (size_reference hcoded.idDelta_le).2
  have hbase : prediction id true predicted idDelta earlier = _ :=
    prediction_reference (.inl rfl) hdelta hreference
  constructor
  · intro x hx y hy hzeroed
    obtain ⟨delta, hstep, -, hvalue⟩ :=
      ((coefficient_of_reconstruct hcoded.length_eq h).2 x hx y hy).2 hzeroed
    have hle := husable.coefficient_le (hsize.symm ▸ hx) (hsize.symm ▸ hy)
    unfold ScalingList.coefficient at hle
    rw [hsize] at hle
    rw [hvalue, hcoded.delta_eq_zero rfl hstep, hbase, Prediction.shift_zero hle,
      ScalingList.coefficient, hsize]
  · intro hfirst
    obtain ⟨dc, hdc, -, -, hvalue⟩ := (dc_of_reconstruct h).2 hfirst
    have hcorner : reference.coefficient (id - idDelta) 0 0 =
        reference.coefficients.getD 0 0 := by
      rw [ScalingList.coefficient, Nat.zero_mul]
    have hle := husable.predicted_dc
    rw [hcorner] at hle ⊢
    rw [hbase, (hcoded.copy rfl).2] at hvalue
    dsimp only at hvalue
    rw [hdc, hvalue]
    congr 1
    omega

theorem flat_of_reconstruct (hcoded : Coded chroma id true 0 dcDelta deltas)
    (hid : id < count) (hluma : isLuma id = false)
    (h : reconstruct id true predicted 0 dcDelta deltas earlier = .ok list) :
    (∀ x < size id, ∀ y < size id, list.coefficient id x y = 16) ∧ list.dc = flatDc id := by
  have hbase : prediction id true predicted 0 earlier = _ := prediction_flat (.inl rfl)
  constructor
  · intro x hx y hy
    -- The matrices that lack a quadrant are luma matrices.
    have hzeroed : isZeroed id x y = false := by
      simp only [isLuma, Bool.or_eq_false_iff, beq_eq_false_iff_ne] at hluma
      unfold count at hid
      have hle : id ≤ 25 := by omega
      simp [isZeroed, hle.not_gt]
    obtain ⟨delta, hstep, -, hvalue⟩ :=
      ((coefficient_of_reconstruct hcoded.length_eq h).2 x hx y hy).2 hzeroed
    have hplace := place_lt hx hy
    have hsixteen : (Array.replicate (size id * size id) 16).getD (y * size id + x) 0 = 16 := by
      rw [Array.getD_eq_getD_getElem?, Array.getElem?_replicate, if_pos hplace, Option.getD_some]
    rw [hvalue, hcoded.delta_eq_zero rfl hstep, hbase]
    exact (Prediction.shift_zero (hsixteen.trans_le (by decide))).trans hsixteen
  · unfold flatDc
    split
    case isTrue hnone => exact (dc_of_reconstruct h).1 hnone
    case isFalse hsome =>
      obtain ⟨dc, hdc, -, -, hvalue⟩ := (dc_of_reconstruct h).2 (not_lt.mp hsome)
      rw [hbase, (hcoded.copy rfl).2] at hvalue
      rw [hdc, hvalue]
      rfl

/-- **A matrix that is made of what has been coded can be used.** -/
theorem usable_of_reconstruct (hid : id < count) (hsize : earlier.matrices.size = id)
    (hearlier : ∀ (i : Nat) list, earlier.matrices[i]? = some list → list.Usable chroma earlier i)
    (hcoded : Coded chroma id copied idDelta dcDelta deltas)
    (h : reconstruct id copied predicted idDelta dcDelta deltas earlier = .ok list) :
    list.Usable chroma earlier id := by
  obtain ⟨hlength, hcoefficients⟩ := coefficient_of_reconstruct hcoded.length_eq h
  obtain ⟨hnone, hsome⟩ := dc_of_reconstruct h
  obtain ⟨hcopied, hidDelta⟩ : list.copied = copied ∧ list.idDelta = idDelta := by
    obtain ⟨_, _, -, -, rfl⟩ := reconstruct_eq_ok.mp h
    exact ⟨rfl, rfl⟩
  constructor
  case size_eq => exact hlength
  case coefficient =>
    intro x hx y hy
    obtain ⟨hzero, hsum⟩ := hcoefficients x hx y hy
    cases hzeroed : isZeroed id x y with
    | true => exact hzero hzeroed
    | false =>
      obtain ⟨delta, -, hne, hvalue⟩ := hsum hzeroed
      have hle := (prediction id copied predicted idDelta earlier).shift_le (y * size id + x) delta
      rw [← hvalue] at hle
      exact ⟨Nat.pos_of_ne_zero hne, hle⟩
  case dc =>
    split
    case isTrue hfirst => exact hnone hfirst
    case isFalse hfirst =>
      obtain ⟨dc, hdc, hpos, hle, -⟩ := hsome (not_lt.mp hfirst)
      exact ⟨dc, hdc, hpos, hle⟩
  case copy =>
    rw [hcopied, hidDelta]
    rintro rfl hdelta
    obtain ⟨hle, hsame⟩ := size_reference hcoded.idDelta_le
    have hreference := Array.getElem?_eq_getElem (show id - idDelta < earlier.matrices.size by omega)
    exact ⟨hle, hsame, _, hreference,
      copy_of_reconstruct hcoded hdelta hreference (hearlier _ _ hreference) h⟩
  case flat =>
    intro hchroma hluma
    obtain ⟨rfl, rfl⟩ := hcoded.absent hchroma hluma
    exact flat_of_reconstruct hcoded hid hluma h

/-! ### Reading -/

theorem length_readDeltas (id : Nat) (positions : List (Nat × Nat)) (previous : Int) :
    (readDeltas id positions previous).Ensures (·.length = positions.length) := by
  induction positions generalizing previous with
  | nil => exact ensures_pure.mpr rfl
  | cons position rest ih =>
    refine .andThen fun step => (ih _).bind fun deltas hlength => ensures_pure.mpr ?_
    rw [List.length_cons, hlength, List.length_cons]

/-- Only a matrix that is coded names a reference. -/
theorem ensures_idDelta (id : Nat) (coded copied predicted : Bool) :
    (given (coded && (copied || predicted) && id != 0 && id != 2 && id != 8)
      (ueMax (maxDelta id))).Ensures
        fun idDelta => idDelta ≤ maxDelta id ∧ (coded = false → idDelta = 0) := by
  rw [ensures_given]
  constructor
  · intro hpresent
    refine .ueMax fun idDelta hle => ⟨hle, fun hno => ?_⟩
    rw [hno] at hpresent
    cases hpresent
  · exact fun _ => ⟨Nat.zero_le _, fun _ => rfl⟩

/-- A copy has no difference for the DC coefficient. -/
theorem ensures_dcDelta (id : Nat) (copied : Bool) :
    (given (!copied && id ≥ firstDc) (seBetween (-254) 254)).Ensures
      fun dcDelta => copied = true → dcDelta = 0 := by
  rw [ensures_given]
  constructor
  · intro hpresent
    refine .seBetween fun _ _ _ hcopied => ?_
    rw [hcopied] at hpresent
    cases hpresent
  · exact fun _ _ => rfl

theorem read_usable (hid : id < count) (hsize : earlier.matrices.size = id)
    (hearlier : ∀ (i : Nat) list, earlier.matrices[i]? = some list →
      list.Usable chroma earlier i) :
    (read chroma id earlier).Ensures (Usable chroma earlier id) := by
  unfold read
  extract_lets coded positions withMode
  have hwithMode : ∀ copied, (coded = false → copied = true) →
      (withMode copied).Ensures (Usable chroma earlier id) := by
    intro copied habsent
    unfold withMode
    refine .andThen fun predicted => ?_
    refine (ensures_idDelta id coded copied predicted).bind fun idDelta ⟨hle, hnoDelta⟩ => ?_
    refine (ensures_dcDelta id copied).bind fun dcDelta hnoDc => ?_
    extract_lets withDeltas
    have hwithDeltas : ∀ deltas : List Int, deltas.length = positions.length →
        (copied = true → ∀ delta ∈ deltas, delta = 0) →
        (withDeltas deltas).Ensures (Usable chroma earlier id) := by
      intro deltas hlength hzero
      refine ensures_ofFault.mpr fun list h => usable_of_reconstruct hid hsize hearlier ?_ h
      refine ⟨hle, hlength, fun hcopied => ⟨hzero hcopied, hnoDc hcopied⟩, fun hchroma hluma => ?_⟩
      have hno : coded = false := Bool.or_eq_false_iff.mpr ⟨hchroma, hluma⟩
      exact ⟨habsent hno, hnoDelta hno⟩
    rw [ensures_ite]
    constructor
    · intro hcopied
      refine Ensures.bind (ensures_pure.mpr rfl) fun deltas (hdeltas : _ = deltas) => ?_
      subst hdeltas
      refine hwithDeltas _ (List.length_map _) fun _ delta hdelta => ?_
      obtain ⟨_, -, rfl⟩ := List.mem_map.mp hdelta
      rfl
    · intro hcopied
      refine (length_readDeltas id positions dcDelta).bind fun deltas hlength => ?_
      exact hwithDeltas deltas hlength fun hyes => absurd hyes hcopied
  rw [ensures_ite]
  constructor
  · exact fun hcoded => .andThen fun copied => hwithMode copied fun hno => by
      rw [hcoded] at hno
      cases hno
  · exact fun _ => Ensures.bind (ensures_pure.mpr rfl) fun copied (hcopied : true = copied) =>
      hwithMode copied fun _ => hcopied.symm

end ScalingList

/-! ### All matrices -/

namespace ScalingLists

open ScalingList

variable {chroma : Bool} {lists : ScalingLists}

theorem readMore_usable {remaining : Nat} (hcount : lists.matrices.size + remaining = count)
    (h : ∀ (i : Nat) list, lists.matrices[i]? = some list → list.Usable chroma lists i) :
    (readMore chroma remaining lists).Ensures fun result =>
      result.matrices.size = count ∧
        ∀ (i : Nat) list, result.matrices[i]? = some list → list.Usable chroma result i := by
  induction remaining generalizing lists with
  | zero => exact ensures_pure.mpr ⟨hcount, h⟩
  | succ remaining ih =>
    refine (ScalingList.read_usable (by omega) rfl h).bind fun next hnext => ?_
    refine ih (by rw [Array.size_push]; omega) fun i list hlist => ?_
    rw [Array.getElem?_push] at hlist
    split at hlist
    case isTrue hlast =>
      cases hlist
      rw [hlast]
      exact hnext.push _
    case isFalse => exact (h i list hlist).push next

/-- **The scaling matrices of every payload that is accepted can be used.** -/
theorem usable_of_read {r r' : BitReader} (h : (read chroma).run r = (.ok lists, r')) :
    lists.matrices.size = 28 ∧
      ∀ (id : Nat) list, lists.matrices[id]? = some list → list.Usable chroma lists id := by
  have hread : (read chroma).Ensures fun result =>
      result.matrices.size = count ∧
        ∀ (i : Nat) list, result.matrices[i]? = some list → list.Usable chroma result i :=
    readMore_usable rfl fun i list hlist => by
      rw [Array.getElem?_empty] at hlist
      cases hlist
  exact hread.of_run (congrArg Prod.fst h)

/-- Matrices without chroma.  Matrices 2, 8 and 14 are coded by themselves and 26 as differences
to 14.  The others are copies, of which 20 has no separate DC coefficient to take over. -/
def lumaMatrices : List UInt8 :=
  [0x04, 0x7f, 0xff, 0x90, 0x11, 0xff, 0xff, 0xff, 0xff, 0xff, 0xff, 0xff, 0xfe, 0x40, 0x03, 0x20,
    0x01, 0x01, 0xff, 0xff, 0xff, 0xff, 0xff, 0xff, 0xff, 0xff, 0x24, 0x56, 0x8d, 0xff, 0xff, 0xff,
    0xff, 0xff, 0xff, 0xd0]

theorem usable_of_read_lumaMatrices : ∃ lists r',
    (read false).run (.ofBytes false lumaMatrices) = (.ok lists, r') ∧
      lists.coefficient 17 7 7 = 80 ∧ lists.dc? 17 = some 208 ∧ lists.dc? 20 = some 12 ∧
      lists.coefficient 27 7 7 = 0 ∧ lists.matrices.size = 28 ∧
      ∀ (id : Nat) list, lists.matrices[id]? = some list → list.Usable false lists id := by
  have hcheck : (match ((read false).run (.ofBytes false lumaMatrices)).1 with
    | .ok lists => lists.coefficient 17 7 7 == 80 && lists.dc? 17 == some 208 &&
        lists.dc? 20 == some 12 && lists.coefficient 27 7 7 == 0
    | .error _ => false) = true := by
    decide +kernel
  rcases hread : (read false).run (.ofBytes false lumaMatrices) with ⟨e | lists, r'⟩
  · rw [hread] at hcheck
    cases hcheck
  · rw [hread] at hcheck
    simp only [Bool.and_eq_true, beq_iff_eq, and_assoc] at hcheck
    obtain ⟨hcopy, hdc, hcorner, hzeroed⟩ := hcheck
    exact ⟨lists, r', rfl, hcopy, hdc, hcorner, hzeroed, usable_of_read hread⟩

end ScalingLists

end CodedVideo
