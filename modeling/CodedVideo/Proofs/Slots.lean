import CodedVideo.ParameterStore
import Mathlib.Data.List.Basic

/-!
# The slots of a store

A set goes into the slot of its id, which is there once the slots have been grown up to it
(`lt_length_grow`).  New slots are empty, so growing them shows in no lookup
(`join_getElem?_fill`).

A partial reset leaves the set in use where it was and nothing else (`get?_keepCurrent`), although
in between there are no slots at all.

A walk along the slots passes the registered sets in the order of their ids (`mem_entries`,
`pairwise_ids`), and as many slots as that are not empty (`size_eq_length_ids`).
-/

namespace CodedVideo

namespace ParameterStore

variable {α : Type} {s : ParameterStore α} {id other : Nat} {set : α} {slots : List (Option α)}

/-! ### Growing and filling -/

/-- No more slots are added than an id needs. -/
theorem length_grow (id : Nat) (slots : List (Option α)) :
    (grow id slots).length = max (id + 1) slots.length := by
  rw [grow, List.rightpad, List.length_append, List.length_replicate]
  omega

theorem lt_length_grow (id : Nat) (slots : List (Option α)) : id < (grow id slots).length := by
  rw [length_grow]
  omega

/-- New slots are empty. -/
theorem join_getElem?_grow (id : Nat) (slots : List (Option α)) (other : Nat) :
    (grow id slots)[other]?.join = slots[other]?.join := by
  rw [grow, List.rightpad, List.getElem?_append]
  split
  · rfl
  · rename_i hbeyond
    rw [List.getElem?_replicate, List.getElem?_eq_none (by omega)]
    split <;> rfl

theorem join_getElem?_fill (id : Nat) (set : α) (slots : List (Option α)) (other : Nat) :
    (fill id set slots)[other]?.join = if other = id then some set else slots[other]?.join := by
  rw [fill, List.getElem?_set]
  by_cases hsame : id = other
  · rw [if_pos hsame, if_pos hsame.symm, if_pos (hsame ▸ lt_length_grow id slots)]
    rfl
  · rw [if_neg hsame, if_neg (Ne.symm hsame), join_getElem?_grow]

theorem length_fill (id : Nat) (set : α) (slots : List (Option α)) :
    (fill id set slots).length = max (id + 1) slots.length := by
  rw [fill, List.length_set, length_grow]

/-! ### Keeping the set in use -/

/-- Without a set in use nothing is kept. -/
theorem keepCurrent_of_none (h : s.current? = none) : s.keepCurrent = s.clear := by
  unfold keepCurrent
  cases hid : s.currentId with
  | none => rfl
  | some id =>
    have hslot : s.slots[id]?.join = none := by
      rw [current?, hid] at h
      exact h
    dsimp only [take]
    rw [hslot]
    rfl

/-- The set in use is kept in the last of new slots. -/
theorem keepCurrent_of_some (hid : s.currentId = some id) (hset : s.get? id = some set) :
    s.keepCurrent = { s with slots := fill id set [] } := by
  have hslot : s.slots[id]?.join = some set := hset
  unfold keepCurrent
  rw [hid]
  dsimp only [take]
  rw [hslot]
  rfl

theorem get?_clear (s : ParameterStore α) (id : Nat) : s.clear.get? id = none := rfl

theorem get?_keepCurrent (s : ParameterStore α) (id : Nat) :
    s.keepCurrent.get? id = if s.currentId = some id then s.get? id else none := by
  cases hcurrent : s.current? with
  | none =>
    rw [keepCurrent_of_none hcurrent, get?_clear]
    split
    · rename_i hid
      rw [current?, hid] at hcurrent
      exact hcurrent.symm
    · rfl
  | some set =>
    obtain ⟨current, hid, hset⟩ := Option.bind_eq_some_iff.mp hcurrent
    rw [keepCurrent_of_some hid hset, get?, join_getElem?_fill, hid]
    by_cases hsame : id = current
    · rw [if_pos hsame, hsame, if_pos rfl, hset]
    · rw [if_neg hsame, if_neg fun h => hsame (Option.some.inj h).symm]
      rfl

theorem currentId_keepCurrent (s : ParameterStore α) :
    s.keepCurrent.currentId = if s.current?.isSome then s.currentId else none := by
  cases hcurrent : s.current? with
  | none => rw [keepCurrent_of_none hcurrent]; rfl
  | some set =>
    obtain ⟨current, hid, hset⟩ := Option.bind_eq_some_iff.mp hcurrent
    rw [keepCurrent_of_some hid hset]
    rfl

/-- What a reset leaves has been there before. -/
theorem get?_reset (keeping : Bool) (s : ParameterStore α) (id : Nat) :
    (s.reset keeping).get? id =
      if keeping = true ∧ s.currentId = some id then s.get? id else none := by
  cases keeping with
  | true => simpa [reset] using get?_keepCurrent s id
  | false => rfl

theorem capacity_reset (keeping : Bool) (s : ParameterStore α) :
    (s.reset keeping).capacity = s.capacity := by
  cases keeping with
  | false => rfl
  | true =>
    show s.keepCurrent.capacity = s.capacity
    cases hcurrent : s.current? with
    | none => rw [keepCurrent_of_none hcurrent]; rfl
    | some set =>
      obtain ⟨current, hid, hset⟩ := Option.bind_eq_some_iff.mp hcurrent
      rw [keepCurrent_of_some hid hset]

/-! ### Walking along the slots -/

/-- The sets that are met are those that are found. -/
theorem mem_entries : (id, set) ∈ s.entries ↔ s.get? id = some set := by
  rw [entries, List.mem_filterMap, get?, Option.join_eq_some_iff]
  constructor
  · rintro ⟨⟨slot, index⟩, hslot, hset⟩
    obtain ⟨held, rfl, heq⟩ := Option.map_eq_some_iff.mp hset
    obtain ⟨rfl, rfl⟩ := Prod.mk.inj heq
    exact List.mem_zipIdx_iff_getElem?.mp hslot
  · intro hslot
    exact ⟨(some set, id), List.mem_zipIdx_iff_getElem?.mpr hslot, rfl⟩

/-- Each id comes once, and smaller ones come first. -/
theorem pairwise_ids (s : ParameterStore α) : s.ids.Pairwise (· < ·) := by
  have hslots : s.slots.zipIdx.Pairwise (·.2 < ·.2) := by
    rw [← List.pairwise_map, List.zipIdx_map_snd]
    exact List.pairwise_lt_range'
  rw [ids, entries, List.pairwise_map, List.pairwise_filterMap]
  refine hslots.imp fun {a b} hlt entry hentry entry' hentry' => ?_
  obtain ⟨set, -, rfl⟩ := Option.map_eq_some_iff.mp hentry
  obtain ⟨set', -, rfl⟩ := Option.map_eq_some_iff.mp hentry'
  exact hlt

theorem size_eq_length_ids (s : ParameterStore α) : s.size = s.ids.length := by
  rw [size, ids, entries, List.length_map, List.length_filterMap_eq_countP]
  conv_lhs => rw [← List.zipIdx_map_fst 0 s.slots, List.countP_map]
  exact List.countP_congr fun ⟨slot, id⟩ _ => by simp

end ParameterStore

end CodedVideo
