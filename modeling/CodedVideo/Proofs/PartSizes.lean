import CodedVideo.Proofs.TileGrid

/-!
# Parts of a length

Explicit sizes are completed to parts of a length, if there are none that are zero and there is
room for all (`exists_explicitSizes_iff`).  The last explicit size is put down again as long as it
fits (`repeatSize_of_le`), and a smaller part comes last, so there is only one way to do it:
`Completes` says what a completion is, and the result is the list that is one.

The even split is a list of parts to which nothing is left to add (`completes_uniformSizes`).
-/

namespace CodedVideo

/-! ### Completing sizes -/

/-- The parts of a length begin with the explicit sizes and go on with the last of these, but for
a smaller part at the end. -/
structure Completes (total : Nat) (sizes parts : List Nat) : Prop where
  sum : parts.sum = total
  positive : 0 ∉ parts
  added : ∃ count rest, parts = sizes ++ (List.replicate count (sizes.getLastD 0) ++ rest) ∧
    rest.length ≤ 1 ∧ ∀ size ∈ rest, ∀ last ∈ sizes.getLast?, size < last

variable {total : Nat} {sizes parts : List Nat}

/-- A size that fits is put down once more, and what it leaves is divided in the same way. -/
theorem repeatSize_of_le {last remaining : Nat} (hlast : 0 < last) (hfits : last ≤ remaining) :
    repeatSize last remaining = last :: repeatSize last (remaining - last) := by
  unfold repeatSize
  rw [Nat.div_eq_sub_div hlast hfits, Nat.mod_eq_sub_mod hfits, List.replicate_succ,
    List.cons_append]

/-- Where the size does not fit any more, what remains is the last part, if it is something. -/
theorem repeatSize_of_lt {last remaining : Nat} (h : remaining < last) :
    repeatSize last remaining = if remaining = 0 then [] else [remaining] := by
  unfold repeatSize
  rw [Nat.div_eq_of_lt h, Nat.mod_eq_of_lt h]
  rfl

/-- Repeated sizes and a smaller rest are what the length divides into. -/
theorem repeatSize_of_rest {last count : Nat} {rest : List Nat} (hlast : 0 < last)
    (hrest : rest.length ≤ 1) (hsmaller : ∀ size ∈ rest, 0 < size ∧ size < last) :
    repeatSize last (count * last + rest.sum) = List.replicate count last ++ rest := by
  induction count with
  | zero =>
    rw [Nat.zero_mul, Nat.zero_add, List.replicate_zero, List.nil_append]
    match rest, hrest with
    | [], _ => exact repeatSize_of_lt hlast
    | [size], _ =>
      obtain ⟨hpos, hlt⟩ := hsmaller size (List.mem_singleton.mpr rfl)
      rw [List.sum_singleton, repeatSize_of_lt hlt, if_neg hpos.ne']
  | succ count ih =>
    have hleft : (count + 1) * last + rest.sum - last = count * last + rest.sum := by
      rw [Nat.succ_mul]
      omega
    rw [repeatSize_of_le hlast (by rw [Nat.succ_mul]; omega), hleft, ih, List.replicate_succ,
      List.cons_append]

/-- Where there is no size to repeat, the whole length is the rest. -/
theorem repeatSize_zero_of_rest {rest : List Nat} (hrest : rest.length ≤ 1) (hpos : 0 ∉ rest) :
    repeatSize 0 rest.sum = rest := by
  unfold repeatSize
  match rest, hrest with
  | [], _ => rfl
  | [size], _ =>
    have hsize : size ≠ 0 := fun h => hpos (h ▸ List.mem_singleton.mpr rfl)
    simp [hsize]

/-- What is added is at most one part behind those that are repeated. -/
theorem exists_repeatSize (last remaining : Nat) :
    ∃ count rest, repeatSize last remaining = List.replicate count last ++ rest ∧
      rest.length ≤ 1 ∧ ∀ size ∈ rest, 0 < last → size < last := by
  refine ⟨remaining / last, if remaining % last = 0 then [] else [remaining % last], rfl, ?_, ?_⟩
  · split <;> simp
  · intro size hsize hlast
    split at hsize
    · cases hsize
    · rw [List.mem_singleton.mp hsize]
      exact Nat.mod_lt remaining hlast

/-- A completion adds what the rest of the length divides into. -/
theorem Completes.eq_append (h : Completes total sizes parts) :
    parts = sizes ++ repeatSize (sizes.getLastD 0) (total - sizes.sum) := by
  obtain ⟨count, rest, hparts, hrest, hsmaller⟩ := h.added
  have hpositive := h.positive
  have hsum := h.sum
  rw [hparts, List.mem_append, List.mem_append, not_or, not_or] at hpositive
  obtain ⟨hsizes, hrepeated, hpos⟩ := hpositive
  have hleft : total - sizes.sum = count * sizes.getLastD 0 + rest.sum := by
    rw [← hsum, hparts, List.sum_append, List.sum_append, List.sum_replicate, smul_eq_mul]
    omega
  rw [hparts, hleft]
  congr 1
  cases hlast : sizes.getLast? with
  | none =>
    -- There are no explicit sizes, and nothing but zeros would be repeated.
    obtain rfl := List.getLast?_eq_none_iff.mp hlast
    have hcount : count = 0 := by
      by_contra hcount
      exact hrepeated (List.mem_replicate.mpr ⟨hcount, rfl⟩)
    rw [hcount, Nat.zero_mul, Nat.zero_add]
    exact (repeatSize_zero_of_rest hrest hpos).symm
  | some last =>
    have hmem := List.mem_of_getLast? hlast
    rw [List.getLastD_eq_getLast?, hlast, Option.getD_some]
    refine (repeatSize_of_rest ?_ hrest fun size hsize => ⟨?_, hsmaller size hsize last hlast⟩).symm
    · exact Nat.pos_of_ne_zero fun hzero => hsizes (hzero ▸ hmem)
    · exact Nat.pos_of_ne_zero fun hzero => hpos (hzero ▸ hsize)

/-- **There is one way to complete sizes**, and it is taken. -/
theorem explicitSizes_eq_ok_iff_completes :
    explicitSizes total sizes = .ok parts ↔ Completes total sizes parts := by
  constructor
  · intro h
    obtain ⟨hsum, hpositive⟩ := explicitSizes_ok h
    refine ⟨hsum, hpositive, ?_⟩
    unfold explicitSizes at h
    split_ifs at h with hzero hroom
    obtain rfl := Except.ok.inj h
    obtain ⟨count, rest, hrepeat, hrest, hsmaller⟩ :=
      exists_repeatSize (sizes.getLastD 0) (total - covered sizes)
    refine ⟨count, rest, by rw [hrepeat], hrest, fun size hsize last hlast => ?_⟩
    have hlastD : sizes.getLastD 0 = last := by
      rw [List.getLastD_eq_getLast?, Option.mem_def.mp hlast, Option.getD_some]
    have hpos : 0 < last := Nat.pos_of_ne_zero fun hlast' =>
      hzero (hlast' ▸ List.mem_of_getLast? hlast)
    exact hlastD ▸ hsmaller size hsize (hlastD.symm ▸ hpos)
  · intro h
    have hparts := h.eq_append
    have hzero : 0 ∉ sizes := fun hmem =>
      h.positive (hparts ▸ List.mem_append_left _ hmem)
    have hroom : ¬ covered sizes > total := by
      rw [covered_eq_sum, ← h.sum, hparts, List.sum_append]
      omega
    rw [explicitSizes, if_neg hzero, if_neg hroom, covered_eq_sum, ← hparts]

theorem exists_explicitSizes_iff :
    (∃ parts, explicitSizes total sizes = .ok parts) ↔ 0 ∉ sizes ∧ sizes.sum ≤ total := by
  unfold explicitSizes
  rw [covered_eq_sum]
  split_ifs with hzero hroom
  · simp [hzero]
  · simp [hroom]
  · simp [hzero, Nat.le_of_not_lt hroom]

/-! ### Even splits -/

theorem length_uniformSizes (total count : Nat) : (uniformSizes total count).length = count := by
  simp [uniformSizes]

theorem sum_map_range_front (size larger count : Nat) :
    ((List.range count).map fun i => size + if i < larger then 1 else 0).sum =
      count * size + min count larger := by
  induction count with
  | zero => simp
  | succ count ih =>
    rw [List.range_succ, List.map_append, List.sum_append, ih, List.map_singleton,
      List.sum_singleton, Nat.succ_mul]
    split <;> omega

theorem sum_uniformSizes {count : Nat} (hcount : 1 ≤ count) :
    (uniformSizes total count).sum = total := by
  have hextra := Nat.mod_lt total hcount
  rw [uniformSizes, sum_map_range_front, Nat.min_eq_right hextra.le, Nat.div_add_mod]

theorem mem_uniformSizes {count size : Nat} (h : size ∈ uniformSizes total count) :
    total / count ≤ size ∧ size ≤ total / count + 1 := by
  obtain ⟨i, -, rfl⟩ := List.mem_map.mp h
  split <;> omega

/-- Larger parts come first. -/
theorem pairwise_uniformSizes (total count : Nat) :
    (uniformSizes total count).Pairwise (· ≥ ·) := by
  rw [uniformSizes, List.pairwise_map]
  refine List.pairwise_lt_range.imp fun {i j} hlt => ?_
  split_ifs <;> omega

/-- An even split is complete. -/
theorem completes_uniformSizes {count : Nat} (hcount : 1 ≤ count) (htotal : count ≤ total) :
    Completes total (uniformSizes total count) (uniformSizes total count) where
  sum := sum_uniformSizes hcount
  positive hzero := by
    have hsize := Nat.div_pos htotal hcount
    have hle := (mem_uniformSizes hzero).1
    omega
  added := ⟨0, [], by simp, by simp, by simp⟩

/-! ### Both together -/

/-- **Sizes are completed in one way, and even splits are complete.**  There are parts exactly if
no explicit size is zero and all have room, and they are the one completion.  An even split has
as many parts as it should, which cover the whole, hardly differ and do not grow, and completing
it changes nothing. -/
theorem sizes_completed (total : Nat) (sizes : List Nat) :
    ((∃ parts, explicitSizes total sizes = .ok parts) ↔ 0 ∉ sizes ∧ sizes.sum ≤ total) ∧
    (∀ parts, explicitSizes total sizes = .ok parts ↔ Completes total sizes parts) ∧
    ∀ count, 1 ≤ count → count ≤ total →
      (uniformSizes total count).length = count ∧ (uniformSizes total count).sum = total ∧
      (∀ a ∈ uniformSizes total count, ∀ b ∈ uniformSizes total count, a ≤ b + 1) ∧
      (uniformSizes total count).Pairwise (· ≥ ·) ∧
      explicitSizes total (uniformSizes total count) = .ok (uniformSizes total count) := by
  refine ⟨exists_explicitSizes_iff, fun _ => explicitSizes_eq_ok_iff_completes, ?_⟩
  intro count hcount htotal
  refine ⟨length_uniformSizes total count, sum_uniformSizes hcount, fun a ha b hb => ?_,
    pairwise_uniformSizes total count, ?_⟩
  · have hlargest := (mem_uniformSizes ha).2
    have hleast := (mem_uniformSizes hb).1
    omega
  · exact explicitSizes_eq_ok_iff_completes.mpr (completes_uniformSizes hcount htotal)

/-- A size that is repeated before a remainder, and an even split. -/
theorem sizes_completed_remainder :
    explicitSizes 17 [6, 3] = .ok [6, 3, 3, 3, 2] ∧ Completes 17 [6, 3] [6, 3, 3, 3, 2] ∧
    uniformSizes 17 4 = [5, 4, 4, 4] ∧ (uniformSizes 17 4).sum = 17 ∧
    explicitSizes 17 (uniformSizes 17 4) = .ok (uniformSizes 17 4) := by
  have hparts : explicitSizes 17 [6, 3] = .ok [6, 3, 3, 3, 2] := by decide
  obtain ⟨-, hcompletes, heven⟩ := sizes_completed 17 [6, 3]
  obtain ⟨-, hsum, -, -, hsame⟩ := heven 4 (by decide) (by decide)
  exact ⟨hparts, (hcompletes _).mp hparts, by decide, hsum, hsame⟩

end CodedVideo
