import CodedVideo.Proofs.Commits
import Mathlib.Data.Set.Card

/-!
# Stores as maps

A store is meant to be a map from the ids below its capacity to sets, together with the id
that is in use.  `BoundedMap` is that map, a function, and what it answers to requests is
written down without a look at how sets are kept.

A store keeps them in slots, which are added when an id needs them, stay empty in between, and
are dropped and added anew by a reset.  `ParameterStore.Represents` relates these slots to the
map that they stand for.  One request keeps the two in step (`Represents.answer`), so any
requests do (`Represents.serve`).  What can be seen of a store follows from that alone, and
`ParameterStore.serves_as_boundedMap` says of all of it that it is what the map tells.  It also
says that nothing is left after a full reset, whatever came before.
-/

namespace CodedVideo

/-- What can be asked of a store. -/
inductive StoreRequest (α : Type) where
  | insert (id : Nat) (set : α)
  | setCurrent (id : Nat)
  | reset (keeping : Bool)

/-- Makes requests one after another, each of which `answer` meets: what they are answered,
and what is left in the end. -/
def serve {σ α : Type} (answer : σ → StoreRequest α → Except StoreError Unit × σ) :
    σ → List (StoreRequest α) → List (Except StoreError Unit) × σ
  | s, [] => ([], s)
  | s, request :: rest =>
    let (first, s) := answer s request
    let (others, s) := serve answer s rest
    (first :: others, s)

/-- A map from ids to sets and the id of the set in use. -/
structure BoundedMap (α : Type) where
  /-- Ids are below this number. -/
  bound : Nat
  sets : Nat → Option α := fun _ => none
  active : Option Nat := none

namespace BoundedMap

variable {α : Type}

/-- The set in use, if there is one with that id. -/
def current? (m : BoundedMap α) : Option α := m.active.bind m.sets

/-- Maps an id to a set. -/
def insert (m : BoundedMap α) (id : Nat) (set : α) : BoundedMap α :=
  { m with sets := fun other => if other = id then some set else m.sets other }

/-- Keeps the set in use alone. -/
def keepCurrent (m : BoundedMap α) : BoundedMap α :=
  { m with sets := fun id => if m.active = some id then m.sets id else none }

/-- Forgets all sets, or with `keeping` all but the one in use, if there is one. -/
def reset (keeping : Bool) (m : BoundedMap α) : BoundedMap α :=
  if keeping ∧ m.current?.isSome then m.keepCurrent else { bound := m.bound }

/-- The map after a request, and whether that is refused. -/
def answer (m : BoundedMap α) : StoreRequest α → Except StoreError Unit × BoundedMap α
  | .insert id set =>
    if id < m.bound then (.ok (), m.insert id set) else (.error ⟨id, m.bound - 1⟩, m)
  | .setCurrent id => (.ok (), { m with active := some id })
  | .reset keeping => (.ok (), m.reset keeping)

theorem bound_answer (m : BoundedMap α) (request : StoreRequest α) :
    (m.answer request).2.bound = m.bound := by
  cases request with
  | insert id set =>
    unfold answer
    dsimp only
    split <;> rfl
  | setCurrent id => rfl
  | reset keeping =>
    show (m.reset keeping).bound = m.bound
    unfold reset
    split <;> rfl

theorem bound_serve (requests : List (StoreRequest α)) (m : BoundedMap α) :
    (serve answer m requests).2.bound = m.bound := by
  induction requests generalizing m with
  | nil => rfl
  | cons request rest ih => exact (ih _).trans (m.bound_answer request)

end BoundedMap

namespace ParameterStore

variable {α : Type} {s : ParameterStore α} {m : BoundedMap α}

/-- The store after a request, and whether that is refused. -/
def answer (s : ParameterStore α) : StoreRequest α → Except StoreError Unit × ParameterStore α
  | .insert id set =>
    match s.insert id set with
    | .ok s' => (.ok (), s')
    | .error e => (.error e, s)
  | .setCurrent id => (.ok (), s.setCurrent id)
  | .reset keeping => (.ok (), s.reset keeping)

/-! ### Stores and the maps that they stand for -/

/-- Each slot holds what the map tells of its id, and there are no more slots than ids. -/
structure Represents (s : ParameterStore α) (m : BoundedMap α) : Prop where
  capacity : s.capacity = m.bound
  currentId : s.currentId = m.active
  get? : ∀ id, s.get? id = m.sets id
  length_le : s.slots.length ≤ m.bound

theorem represents_empty (bound : Nat) :
    ({ capacity := bound } : ParameterStore α).Represents { bound } where
  capacity := rfl
  currentId := rfl
  get? := fun _ => rfl
  length_le := Nat.zero_le bound

namespace Represents

variable (h : s.Represents m)
include h

/-- A store that has been cleared is like a new one. -/
theorem clear_eq : s.clear = { capacity := m.bound } :=
  congrArg (fun capacity => ({ capacity } : ParameterStore α)) h.capacity

theorem clear : s.clear.Represents { bound := m.bound } := h.clear_eq ▸ represents_empty m.bound

/-- Only ids below the bound have sets, since there are no other slots. -/
theorem lt_bound {id : Nat} (hid : m.sets id ≠ none) : id < m.bound := by
  rw [← h.get? id] at hid
  by_contra hbeyond
  have hnone : s.slots[id]? = none := List.getElem?_eq_none (h.length_le.trans (by omega))
  exact hid (by rw [ParameterStore.get?, hnone]; rfl)

theorem current? : s.current? = m.current? := by
  unfold ParameterStore.current? BoundedMap.current?
  rw [h.currentId]
  exact Option.bind_congr fun id _ => h.get? id

theorem insert {id : Nat} (hid : id < m.bound) (set : α) :
    ({ s with slots := fill id set s.slots } : ParameterStore α).Represents (m.insert id set) where
  capacity := h.capacity
  currentId := h.currentId
  get? := by
    intro other
    show (fill id set s.slots)[other]?.join = if other = id then _ else _
    rw [join_getElem?_fill, ← h.get? other]
    rfl
  length_le := by
    have hle := h.length_le
    show (fill id set s.slots).length ≤ m.bound
    rw [length_fill]
    omega

/-- The slots that are added anew for the set in use are no more than there have been. -/
theorem keepCurrent {id : Nat} {set : α} (hid : s.currentId = some id)
    (hset : s.get? id = some set) : s.keepCurrent.Represents m.keepCurrent where
  capacity := by
    rw [keepCurrent_of_some hid hset]
    exact h.capacity
  currentId := by
    rw [keepCurrent_of_some hid hset]
    exact h.currentId
  get? := by
    intro other
    rw [get?_keepCurrent, h.currentId, h.get? other]
    rfl
  length_le := by
    have hlt : id < m.bound := h.lt_bound (by rw [← h.get? id, hset]; exact Option.some_ne_none set)
    rw [keepCurrent_of_some hid hset]
    show (fill id set []).length ≤ m.bound
    rw [length_fill, List.length_nil]
    omega

/-- The map keeps the set in use exactly if the store does. -/
theorem reset (keeping : Bool) : (s.reset keeping).Represents (m.reset keeping) := by
  unfold ParameterStore.reset BoundedMap.reset
  rw [← h.current?]
  cases keeping with
  | false => exact h.clear
  | true =>
    cases hcurrent : s.current? with
    | none =>
      show s.keepCurrent.Represents _
      rw [keepCurrent_of_none hcurrent]
      exact h.clear
    | some set =>
      obtain ⟨id, hid, hset⟩ := Option.bind_eq_some_iff.mp hcurrent
      exact h.keepCurrent hid hset

/-- **A store and its map stay in step.** -/
theorem answer (request : StoreRequest α) :
    (s.answer request).1 = (m.answer request).1 ∧
      (s.answer request).2.Represents (m.answer request).2 := by
  cases request with
  | insert id set =>
    unfold ParameterStore.answer ParameterStore.insert BoundedMap.answer
    dsimp only
    by_cases hid : id < m.bound
    · rw [if_pos hid, if_pos (h.capacity.symm ▸ hid)]
      exact ⟨rfl, h.insert hid set⟩
    · rw [if_neg hid, if_neg (h.capacity.symm ▸ hid), ← h.capacity]
      exact ⟨rfl, h⟩
  | setCurrent id => exact ⟨rfl, { h with currentId := rfl }⟩
  | reset keeping => exact ⟨rfl, h.reset keeping⟩

theorem serve (requests : List (StoreRequest α)) :
    (CodedVideo.serve ParameterStore.answer s requests).1 =
        (CodedVideo.serve BoundedMap.answer m requests).1 ∧
      (CodedVideo.serve ParameterStore.answer s requests).2.Represents
        (CodedVideo.serve BoundedMap.answer m requests).2 := by
  induction requests generalizing s m with
  | nil => exact ⟨rfl, h⟩
  | cons request rest ih =>
    obtain ⟨hfirst, hnext⟩ := h.answer request
    obtain ⟨hothers, hlast⟩ := ih hnext
    exact ⟨congrArg₂ List.cons hfirst hothers, hlast⟩

/-- As many sets are registered as the map has. -/
theorem size : {id | m.sets id ≠ none}.encard = s.size := by
  have hids : {id | m.sets id ≠ none} = ↑s.ids.toFinset := by
    ext id
    rw [Finset.mem_coe, List.mem_toFinset, Set.mem_ofPred_eq, ← h.get? id]
    rw [Option.ne_none_iff_exists', ids, List.mem_map]
    constructor
    · rintro ⟨set, hset⟩
      exact ⟨(id, set), mem_entries.mpr hset, rfl⟩
    · rintro ⟨⟨_, set⟩, hmem, rfl⟩
      exact ⟨set, mem_entries.mp hmem⟩
  have hnodup : s.ids.Nodup := s.pairwise_ids.imp Nat.ne_of_lt
  rw [hids, Set.encard_coe_eq_coe_finsetCard, List.toFinset_card_of_nodup hnodup,
    size_eq_length_ids]

end Represents

/-- **A store is a bounded map with an id in use.**  Through any requests a new store answers
as an empty map does.  Afterwards it finds under each id what the map tells, and so for the
set in use; it has as many sets as the map, all of them below the bound, and lists them in
increasing order of their ids.  It never has more slots than ids.  A full reset makes it as good
as new. -/
theorem serves_as_boundedMap (capacity : Nat) (requests : List (StoreRequest α)) :
    let served := serve answer { capacity := capacity } requests
    let expected := serve BoundedMap.answer { bound := capacity } requests
    served.1 = expected.1 ∧
    (∀ id, served.2.get? id = expected.2.sets id) ∧
    served.2.current? = expected.2.current? ∧
    {id | expected.2.sets id ≠ none}.encard = served.2.size ∧
    (∀ id, expected.2.sets id ≠ none → id < capacity) ∧
    served.2.slots.length ≤ capacity ∧
    served.2.ids.Pairwise (· < ·) ∧
    (∀ id set, (id, set) ∈ served.2.entries ↔ expected.2.sets id = some set) ∧
    ∀ more,
      serve answer (served.2.reset false) more = serve answer { capacity := capacity } more := by
  intro served expected
  obtain ⟨hanswers, hrepresents⟩ := (represents_empty (α := α) capacity).serve requests
  have hbound : expected.2.bound = capacity := BoundedMap.bound_serve requests _
  refine ⟨hanswers, hrepresents.get?, hrepresents.current?, hrepresents.size, fun id hid => ?_, ?_,
    served.2.pairwise_ids, fun id set => ?_, fun more => ?_⟩
  · exact hbound ▸ hrepresents.lt_bound hid
  · exact hbound ▸ hrepresents.length_le
  · rw [mem_entries, ← hrepresents.get? id]
  · have hclear : served.2.reset false = { capacity := capacity } :=
      hbound ▸ hrepresents.clear_eq
    rw [hclear]

/-- The largest id is the first one to be registered, and then the slots in between are empty.
A partial reset drops all of them and adds the last one anew. -/
example :
    let filled := (serve answer { capacity := 8 } [.insert 5 50, .insert 2 20, .setCurrent 2]).2
    filled.slots = [none, none, some 20, none, none, some 50] ∧
      filled.entries = [(2, 20), (5, 50)] ∧ (filled.reset true).slots = [none, none, some 20] := by
  decide

end ParameterStore

end CodedVideo
