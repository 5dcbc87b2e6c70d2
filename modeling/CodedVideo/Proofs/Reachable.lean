import CodedVideo.Proofs.Steps

/-!
# Sessions that can be reached

A session starts empty and is changed by what it is asked to read and by resets.
`Session.Reachable` holds of the sessions that come of any sequence of these.

The sets that such a session keeps have been accepted at some time, against sets that
had been accepted before.  So all of them are sound (`Session.Reachable.sound`): a reset
only drops sets, a picture or slice header only chooses which are in use, and a new set
is read against sound ones.
-/

namespace CodedVideo

open Parse

/-! ### Sets by id -/

namespace ParameterStore

variable {α : Type} {s s' : ParameterStore α} {P : α → Prop}

theorem All.insert (h : s.All P) {id : Nat} {set : α} (hset : P set)
    (hinsert : s.insert id set = .ok s') : s'.All P := by
  unfold ParameterStore.insert at hinsert
  split at hinsert
  · cases hinsert
    intro other found hfound
    rw [get?, join_getElem?_fill] at hfound
    split at hfound
    · cases hfound
      exact hset
    · exact h other found hfound
  · cases hinsert

theorem All.reset (h : s.All P) (keeping : Bool) : (s.reset keeping).All P := by
  intro id set hset
  rw [get?_reset] at hset
  split at hset
  · exact h id set hset
  · cases hset

end ParameterStore

namespace Session

/-! ### Requests -/

/-- What can be asked of a session. -/
inductive Request where
  | operatingPoint (nal : Nal)
  | videoSet (nal : Nal)
  | sequenceSet (nal : Nal)
  | pictureSet (nal : Nal)
  | adaptationSet (nal : Nal)
  | delimiter (nal : Nal)
  | pictureHeader (nal : Nal)
  | slice (nal : Nal)
  | reset (keeping : Bool)

/-- The session after a request, whether that is refused or not. -/
def after (s : Session) : Request → Session
  | .operatingPoint nal => (s.readOperatingPoint nal).2
  | .videoSet nal => (s.readVps nal).2
  | .sequenceSet nal => (s.readSps nal).2
  | .pictureSet nal => (s.readPps nal).2
  | .adaptationSet nal => (s.readAps nal).2
  | .delimiter _ => s
  | .pictureHeader nal => (s.readPictureHeader nal).2
  | .slice nal => (s.readSlice nal).2
  | .reset keeping => s.reset keeping

/-- The sessions that come of any sequence of requests. -/
inductive Reachable : Session → Prop
  | start (escaped : Bool) : Reachable (start escaped)
  | after {s : Session} (request : Request) : Reachable s → Reachable (s.after request)

/-- All that the session keeps has been accepted for good reason. -/
structure Sound (s : Session) : Prop where
  sequenceSets : s.sequenceSets.All Sps.Divided
  pictureSets : s.pictureSets.All Pps.Sound

variable {s : Session}

theorem start_sound (escaped : Bool) : (start escaped).Sound where
  sequenceSets := fun _ _ h => by cases h
  pictureSets := fun _ _ h => by cases h

theorem Sound.reset (h : s.Sound) (keeping : Bool) : (s.reset keeping).Sound :=
  ⟨h.sequenceSets.reset keeping, h.pictureSets.reset keeping⟩

/-! ### Parameter sets -/

/-- What is registered has been read to its end. -/
theorem run_of_register {α : Type} {nal : Nal} {expected : List Nal.Kind} {content : Parse α}
    {insert : α → Except StoreError Session} {set : α}
    (h : (s.register expected content insert nal).1 = .ok set) :
    (content.run (s.readerFor nal)).1 = .ok set := by
  unfold register at h
  split at h
  · cases h
  · rename_i read hread
    split at h
    · cases h
    · cases h
      obtain ⟨_, _, hrun⟩ := except_bind_eq_ok.mp hread
      exact hrun

/-- A set is registered only if it has been accepted, and the session is left alone
otherwise. -/
theorem register_keeps {α : Type} {I : Session → Prop} {P : α → Prop} (h : I s)
    {content : Parse α} (hcontent : content.Ensures P) {insert : α → Except StoreError Session}
    (hinsert : ∀ set s', P set → insert set = .ok s' → I s') (expected : List Nal.Kind)
    (nal : Nal) : I (s.register expected content insert nal).2 := by
  unfold register
  split
  · exact h
  · rename_i set hset
    split
    · exact h
    · rename_i s' hs'
      obtain ⟨_, _, hrun⟩ := except_bind_eq_ok.mp hset
      exact hinsert set s' (hcontent.of_run hrun) hs'

/-- A set that is accepted is put into a store, and this into the session. -/
theorem register_insert_keeps {α : Type} {I : Session → Prop} {P : α → Prop} (h : I s)
    {content : Parse α} (hcontent : content.Ensures P) {id : α → Nat}
    {store : α → ParameterStore α} {put : α → ParameterStore α → Session}
    (hput : ∀ set sets, P set → (store set).insert (id set) set = .ok sets → I (put set sets))
    (expected : List Nal.Kind) (nal : Nal) :
    I (s.register expected content (fun set => do
      return put set (← (store set).insert (id set) set)) nal).2 := by
  refine register_keeps h hcontent (fun set s' hset hs' => ?_) expected nal
  obtain ⟨sets, hsets, hs'⟩ := except_bind_eq_ok.mp hs'
  cases hs'
  exact hput set sets hset hsets

theorem Sound.readOperatingPoint (h : s.Sound) (nal : Nal) :
    (s.readOperatingPoint nal).2.Sound := by
  refine register_insert_keeps h (ensures_of_forall fun _ => trivial) (fun _ _ _ _ => ?_) _ nal
  exact { h with }

theorem Sound.readVps (h : s.Sound) (nal : Nal) : (s.readVps nal).2.Sound := by
  refine register_insert_keeps h (ensures_of_forall fun _ => trivial) (fun _ _ _ _ => ?_) _ nal
  exact { h with }

theorem Sound.readSps (h : s.Sound) (nal : Nal) : (s.readSps nal).2.Sound := by
  refine register_insert_keeps h (Sps.read_ensures _ _) (fun sps _ hsps hsets => ?_) _ nal
  exact { h with sequenceSets := h.sequenceSets.insert hsps hsets }

theorem Sound.readPps (h : s.Sound) (nal : Nal) : (s.readPps nal).2.Sound := by
  refine register_insert_keeps h (Pps.read_ensures h.sequenceSets) (fun pps _ hpps hsets => ?_)
    _ nal
  exact { h with pictureSets := h.pictureSets.insert hpps hsets }

theorem Sound.readAps (h : s.Sound) (nal : Nal) : (s.readAps nal).2.Sound := by
  refine register_insert_keeps h (ensures_of_forall fun _ => trivial) (fun aps _ _ _ => ?_) _ nal
  cases aps.kind <;> exact { h with }

/-! ### Picture and slice headers -/

theorem sound_stable : Stable Sound where
  activate := fun hs _ _ => { hs with }
  setPicture := fun hs _ => { hs with }

/-- Accepted slice headers name places that exist, and none is refused for naming one
that does not. -/
theorem keeps_placed (header : Nal.Header) :
    (sliceStructure header).Keeps Sound (· ≠ .place) SliceHeader.Placed :=
  keeps_sliceStructure sound_stable (fun _ hs => hs.pictureSets) (by decide) (by decide)
    (fun _ hpps hreferences => SliceHeader.within_read_of_sound hpps hreferences)
    (fun _ hpps => SliceHeader.read_ensures hpps)
    (fun _ _ _ _ hslice => { hslice with }) header

theorem Sound.after (h : s.Sound) (request : Request) : (s.after request).Sound := by
  cases request with
  | operatingPoint nal => exact h.readOperatingPoint nal
  | videoSet nal => exact h.readVps nal
  | sequenceSet nal => exact h.readSps nal
  | pictureSet nal => exact h.readPps nal
  | adaptationSet nal => exact h.readAps nal
  | delimiter nal => exact h
  | pictureHeader nal =>
    have hkeeps : (separatePicture nal.header.layer).Keeps Sound (· ≠ .place) fun _ => True :=
      keeps_separatePicture sound_stable (by decide) (by decide) nal.header.layer
    exact (runStep_keeps hkeeps h _ nal).1
  | slice nal => exact (runStep_keeps (keeps_placed nal.header) h _ nal).1
  | reset keeping => exact h.reset keeping

/-- **All that a session can come to keep is sound.** -/
theorem Reachable.sound (h : s.Reachable) : s.Sound := by
  induction h with
  | start escaped => exact start_sound escaped
  | after request _ ih => exact ih.after request

end Session

end CodedVideo
