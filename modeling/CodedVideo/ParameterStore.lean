/-!
# Parameter sets by id

A `ParameterStore` keeps the parameter sets of one kind that have been received,
at most one for each id below its capacity, and the id of the set in use.

Each id has a slot of its own.  Slots are added as ids need them, so that there
may be empty ones in between, and a reset drops them all.  If the set in use is
kept it is taken out before that and gets the last of new slots.

A set replaced by a later one of the same id is gone from the store; whoever
holds it keeps it.
-/

namespace CodedVideo

/-- The parameter sets of one kind. -/
structure ParameterStore (α : Type) where
  /-- Ids are below this number. -/
  capacity : Nat
  /-- The slots of the first ids.  An empty one has no set. -/
  slots : List (Option α) := []
  /-- The id of the set in use. -/
  currentId : Option Nat := none
  deriving DecidableEq, Repr

/-- A parameter set whose id is not below the capacity. -/
structure StoreError where
  /-- The id of the refused set. -/
  id : Nat
  /-- The largest id the store takes. -/
  max : Nat
  deriving DecidableEq, Repr

/-- The text that reports a store error. -/
def StoreError.message (e : StoreError) : String :=
  s!"parameter set id {e.id} exceeds the maximum of {e.max}"

namespace ParameterStore

variable {α : Type}

/-! ### Slots -/

/-- Adds empty slots up to that of an id. -/
def grow (id : Nat) (slots : List (Option α)) : List (Option α) := slots.rightpad (id + 1) none

/-- Puts a set into the slot of an id, which is added if there is none. -/
def fill (id : Nat) (set : α) (slots : List (Option α)) : List (Option α) :=
  (grow id slots).set id (some set)

/-- Takes the set out of the slot of an id and leaves the slot empty. -/
def take (id : Nat) (slots : List (Option α)) : Option α × List (Option α) :=
  (slots[id]?.join, slots.set id none)

/-! ### Requests -/

/-- The set with a given id. -/
def get? (s : ParameterStore α) (id : Nat) : Option α := s.slots[id]?.join

/-- Registers a set, in place of any other of the same id. -/
def insert (s : ParameterStore α) (id : Nat) (set : α) :
    Except StoreError (ParameterStore α) :=
  if id < s.capacity then .ok { s with slots := fill id set s.slots }
  else .error ⟨id, s.capacity - 1⟩

/-- Puts the set with a given id in use, whether it is registered or not. -/
def setCurrent (s : ParameterStore α) (id : Nat) : ParameterStore α :=
  { s with currentId := some id }

/-- The set in use, if it is registered. -/
def current? (s : ParameterStore α) : Option α := s.currentId.bind s.get?

/-- Drops all slots. -/
def dropSlots (s : ParameterStore α) : ParameterStore α := { s with slots := [] }

/-- Forgets all sets. -/
def clear (s : ParameterStore α) : ParameterStore α := { s.dropSlots with currentId := none }

/-- Forgets all sets but the one in use. -/
def keepCurrent (s : ParameterStore α) : ParameterStore α :=
  match s.currentId with
  | none => s.clear
  | some id =>
    let (kept, others) := take id s.slots
    let s := { s with slots := others }.dropSlots
    match kept with
    | none => s.clear
    | some set => { s with slots := fill id set s.slots }

/-- Forgets all sets, or with `keeping` all but the one in use. -/
def reset (keeping : Bool) (s : ParameterStore α) : ParameterStore α :=
  if keeping then s.keepCurrent else s.clear

/-! ### Contents -/

/-- The registered sets with their ids, slot by slot. -/
def entries (s : ParameterStore α) : List (Nat × α) :=
  s.slots.zipIdx.filterMap fun (slot, id) => slot.map fun set => (id, set)

/-- The ids of the registered sets. -/
def ids (s : ParameterStore α) : List Nat := s.entries.map (·.1)

/-- The number of registered sets. -/
def size (s : ParameterStore α) : Nat := s.slots.countP (·.isSome)

end ParameterStore

end CodedVideo
