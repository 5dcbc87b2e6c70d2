import CodedVideo.Proofs.Commits

/-!
# The sets that a session keeps

A set is kept only if it has been accepted, and a picture parameter set is accepted only
against a sequence parameter set that is kept at that time.  So what reading ensures of sets
holds of all that are kept, in every session that can be reached:
`Session.Reachable.sequenceSets_all` and `Session.Reachable.pictureSets_all`.
-/

namespace CodedVideo

open Parse

namespace Session

variable {s : Session} {P : Sps → Prop} {Q : Pps → Prop}

/-- What holds of the sequence and the picture parameter sets that are kept. -/
structure Holding (P : Sps → Prop) (Q : Pps → Prop) (s : Session) : Prop where
  sequenceSets : s.sequenceSets.All P
  pictureSets : s.pictureSets.All Q

theorem LeavesSets.holding {α : Type} {r : Except ParseError α × Session} (hr : s.LeavesSets r)
    (h : s.Holding P Q) : r.2.Holding P Q := by
  obtain ⟨⟨_, _, _, hs'⟩, _⟩ := hr
  rw [hs']
  exact { h with }

theorem Holding.after (h : s.Holding P Q)
    (hsps : ∀ vpsOf layer, (Sps.read vpsOf layer).Ensures P)
    (hpps : ∀ spsOf, (∀ id sps, spsOf id = some sps → P sps) → (Pps.read spsOf).Ensures Q)
    (request : Request) : (s.after request).Holding P Q := by
  cases request with
  | operatingPoint nal =>
    refine register_updated_keeps h (fun _ _ _ => ?_) _ nal
    exact { h with }
  | videoSet nal =>
    refine register_updated_keeps h (fun _ _ _ => ?_) _ nal
    exact { h with }
  | sequenceSet nal =>
    refine register_insert_keeps h (hsps _ _) (fun _ _ hset hsets => ?_) _ nal
    exact { h with sequenceSets := h.sequenceSets.insert hset hsets }
  | pictureSet nal =>
    refine register_insert_keeps h (hpps _ h.sequenceSets) (fun _ _ hset hsets => ?_) _ nal
    exact { h with pictureSets := h.pictureSets.insert hset hsets }
  | adaptationSet nal =>
    refine register_updated_keeps h (fun aps _ _ => ?_) _ nal
    cases aps.kind <;> exact { h with }
  | delimiter nal => exact h
  | pictureHeader nal => exact (s.readPictureHeader_leavesSets nal).holding h
  | slice nal => exact (s.readSlice_leavesSets nal).holding h
  | reset keeping => exact ⟨h.sequenceSets.reset keeping, h.pictureSets.reset keeping⟩

theorem Reachable.holding (hs : s.Reachable)
    (hsps : ∀ vpsOf layer, (Sps.read vpsOf layer).Ensures P)
    (hpps : ∀ spsOf, (∀ id sps, spsOf id = some sps → P sps) → (Pps.read spsOf).Ensures Q) :
    s.Holding P Q := by
  induction hs with
  | start escaped =>
    constructor
    · intro _ _ h
      cases h
    · intro _ _ h
      cases h
  | after request _ ih => exact ih.after hsps hpps request

/-- What reading ensures holds of all sequence parameter sets that are kept. -/
theorem Reachable.sequenceSets_all (hs : s.Reachable)
    (hsps : ∀ vpsOf layer, (Sps.read vpsOf layer).Ensures P) : s.sequenceSets.All P :=
  (hs.holding hsps fun _ _ => ensures_of_forall fun _ => trivial).sequenceSets

/-- What reading ensures against sequence parameter sets that are kept holds of all picture
parameter sets that are. -/
theorem Reachable.pictureSets_all (hs : s.Reachable)
    (hsps : ∀ vpsOf layer, (Sps.read vpsOf layer).Ensures P)
    (hpps : ∀ spsOf, (∀ id sps, spsOf id = some sps → P sps) → (Pps.read spsOf).Ensures Q) :
    s.pictureSets.All Q :=
  (hs.holding hsps hpps).pictureSets

end Session

end CodedVideo
