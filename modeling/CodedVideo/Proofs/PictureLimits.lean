import CodedVideo.Proofs.SequenceLimits
import CodedVideo.Proofs.StoredSets

/-!
# The limits of accepted pictures

A picture parameter set brings its sequence parameter set along, limits included, and adds
its own: the size is a multiple of the smallest block, and no two subpictures share an id.
`Session.Reachable.limited` says that this holds of every picture parameter set that a
session keeps, however the sequence parameter sets have been replaced since.
-/

namespace CodedVideo

open Parse

namespace Pps

/-- What the size of a picture is limited to, besides being no larger than the sequence
allows. -/
structure LimitedSize (pps : Pps) : Prop where
  sps : pps.sps.Limited
  width : pps.sps.sizeUnit ∣ pps.width
  height : pps.sps.sizeUnit ∣ pps.height

/-- What a picture parameter set that has been accepted is limited to. -/
structure Limited (pps : Pps) : Prop extends pps.LimitedSize where
  subpictureIds : pps.subpictureIds.Nodup

theorem readSize_limited {spsOf : Nat → Option Sps}
    (hsps : ∀ id sps, spsOf id = some sps → sps.Limited) :
    (readSize spsOf).Ensures LimitedSize := by
  refine .andThen fun id => .andThen fun spsId => ?_
  rw [ensures_bind, ensures_ofReference]
  intro sps hfound
  refine .andThen fun mixedKinds => .andThen fun width => .andThen fun height => ?_
  rw [ensures_bind, ensures_refuseIf]
  intro hmultiple
  rw [Bool.or_eq_false_iff, bne_eq_false_iff_eq, bne_eq_false_iff_eq] at hmultiple
  refine .andThen fun _ => ensures_pure.mpr ?_
  exact ⟨hsps spsId sps hfound, Nat.dvd_of_mod_eq_zero hmultiple.1,
    Nat.dvd_of_mod_eq_zero hmultiple.2⟩

theorem readWindows_limited {pps : Pps} (h : pps.LimitedSize) :
    (readWindows pps).Ensures LimitedSize := by
  refine (readWindows_frame pps).mono fun pps' hpps' => ?_
  rw [hpps']
  exact { h with }

theorem readPartition_limited {pps : Pps} (h : pps.LimitedSize) :
    (readPartition pps).Ensures Limited := by
  unfold readPartition
  refine .andThen fun outputFlags => .andThen fun undivided => .andThen fun idsCoded => ?_
  extract_lets several withIds
  have hwithIds : ∀ coded, (withIds coded).Ensures Limited := by
    intro coded
    unfold withIds
    extract_lets subpictureIds
    rw [ensures_bind, ensures_refuseIf]
    intro hnodup
    rw [Bool.not_eq_false', decide_eq_true_eq] at hnodup
    exact .andThen fun _ => ensures_pure.mpr { h with subpictureIds := hnodup }
  refine .andThen fun _ => .andThen fun _ => ?_
  split <;> exact .andThen hwithIds

theorem readSettings_limited {pps : Pps} (h : pps.Limited) :
    (readSettings pps).Ensures Limited := by
  refine .andThen fun _ => .andThen fun _ => .andThen fun _ => .andThen fun _ => ?_
  exact .andThen fun _ => ensures_pure.mpr { h with }

theorem readHeaderExtensions_limited {pps : Pps} (h : pps.Limited) :
    (readHeaderExtensions pps).Ensures Limited := by
  refine (readHeaderExtensions_frame pps).mono fun pps' hpps' => ?_
  rw [hpps']
  exact { h with }

/-- **Every accepted picture parameter set is limited**, if the sequence parameter sets that it
may refer to are. -/
theorem read_limited {spsOf : Nat → Option Sps}
    (hsps : ∀ id sps, spsOf id = some sps → sps.Limited) : (read spsOf).Ensures Limited := by
  refine .withExtension ?_ fun _ _ h => { h with }
  refine (readSize_limited hsps).bind fun pps h => (readWindows_limited h).bind fun pps h => ?_
  refine (readPartition_limited h).bind fun pps h => ?_
  exact (readSettings_limited h).bind fun pps h => readHeaderExtensions_limited h

end Pps

/-- The picture parameter sets that a session keeps are limited. -/
theorem Session.Reachable.limited {s : Session} (hs : s.Reachable) :
    s.pictureSets.All Pps.Limited :=
  hs.pictureSets_all Sps.read_limited fun _ => Pps.read_limited

end CodedVideo
