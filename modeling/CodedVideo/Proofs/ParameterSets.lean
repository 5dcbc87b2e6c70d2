import CodedVideo.Pps
import CodedVideo.Proofs.PicturePartition

/-!
# What holds of accepted parameter sets

A parameter set is accepted only after its checks, and what these ensure is stated here
once, for whatever the bits are: `Sps.read_ensures` says that the subpictures of a
sequence divide its picture, and `Pps.read_ensures` that a picture parameter set fits
its sequence and partitions its pictures.  Later groups of elements do not touch what
has been established, so each group has a lemma that passes it on.
-/

namespace CodedVideo

open Parse

/-! ### Sequence parameter sets -/

/-- The subpictures divide a picture of `width` by `height` blocks among themselves. -/
structure SpsSubpictures.Divides (s : SpsSubpictures) (width height : Nat) : Prop where
  count_le : s.count ≤ unclaimed
  ids_length : ∀ ids, s.ids = some ids → ids.length = s.count
  owned : subpictureMap width height s.areas = .ok s.owners

namespace SpsSubpictures

theorem readEntries_ensures {width height count : Nat} {independent sameSize : Bool}
    (hcount : 0 < count) :
    (readEntries width height count independent sameSize).Ensures (·.length = count) := by
  unfold readEntries
  refine .andThen fun area => .andThen fun first => ensures_collectFrom.bind fun rest hrest => ?_
  rw [ensures_pure, List.length_cons, hrest]
  exact Nat.sub_add_cancel hcount

theorem readInfo_ensures {width height : Nat} : (readInfo width height).Ensures fun s =>
    s.count ≤ unclaimed ∧ ∀ ids, s.ids = some ids → ids.length = s.count := by
  unfold readInfo
  refine .bind (.ueMax fun _ h => h) fun countMinus1 hcount => ?_
  extract_lets count several withShape
  have hle : count ≤ unclaimed := by
    have : countMinus1 ≤ maxSubpictures - 1 := Nat.le_trans hcount (Nat.min_le_left _ _)
    unfold maxSubpictures at this
    unfold unclaimed
    omega
  have hwithShape : ∀ independent, (withShape independent).Ensures fun s =>
      s.count ≤ unclaimed ∧ ∀ ids, s.ids = some ids → ids.length = s.count := by
    intro independent
    refine .andThen fun sameSize => ?_
    refine (readEntries_ensures (Nat.succ_pos _)).bind fun entries hentries => ?_
    refine .andThen fun idLengthMinus1 => .andThen fun _ => .andThen fun idsSignalled => ?_
    refine .andThen fun present => ?_
    split
    · rw [ensures_bind, ensures_map]
      refine (ensures_collectFrom).mono fun ids hids => ?_
      rw [ensures_pure]
      refine ⟨le_of_eq_of_le hentries hle, fun _ h => ?_⟩
      cases h
      exact hids.trans hentries.symm
    · exact ensures_pure.mpr ⟨le_of_eq_of_le hentries hle, fun _ h => by cases h⟩
  split
  · exact .andThen hwithShape
  · exact hwithShape true

theorem read_ensures {width height : Nat} :
    (read width height).Ensures (·.Divides width height) := by
  unfold read
  refine .andThen fun signalled => ?_
  extract_lets complete
  have hcomplete : ∀ s : SpsSubpictures, s.count ≤ unclaimed →
      (∀ ids, s.ids = some ids → ids.length = s.count) →
      (complete s).Ensures (·.Divides width height) := by
    intro s hcount hids
    unfold complete
    rw [ensures_bind, ensures_ofPartition]
    intro owners howners
    exact ensures_pure.mpr ⟨hcount, hids, howners⟩
  split
  · exact readInfo_ensures.bind fun s hs => hcomplete s hs.1 hs.2
  · exact hcomplete _ (by simp [whole, count, unclaimed]) (fun _ h => by cases h)

end SpsSubpictures

/-- The subpictures of a sequence divide its largest picture. -/
def Sps.Divided (sps : Sps) : Prop :=
  sps.subpictures.Divides sps.widthInCtbs sps.heightInCtbs

namespace Sps

theorem readSize_ensures (sps : Sps) : (readSize sps).Ensures Divided := by
  unfold readSize
  refine .andThen fun gdr => .andThen fun resampling => .andThen fun sizeChange => ?_
  refine .andThen fun width => .andThen fun height => .andThen fun _ => ?_
  extract_lets unit withWindow
  have hwithWindow : ∀ window, (withWindow window).Ensures Divided := fun window =>
    SpsSubpictures.read_ensures.bind fun subpictures h => ensures_pure.mpr h
  refine .andThen fun windowCoded => ?_
  split <;> exact .andThen hwithWindow

theorem readCoding_ensures {sps : Sps} (h : sps.Divided) : (readCoding sps).Ensures Divided := by
  unfold readCoding
  refine .andThen fun _ => .andThen fun _ => .andThen fun _ => .andThen fun _ => ?_
  exact ensures_pure.mpr h

theorem readTrees_ensures {sps : Sps} (h : sps.Divided) : (readTrees sps).Ensures Divided := by
  unfold readTrees
  refine .andThen fun _ => .andThen fun _ => .andThen fun _ => .andThen fun _ => ?_
  refine .andThen fun _ => .andThen fun _ => .andThen fun _ => ?_
  exact ensures_pure.mpr h

theorem readTools_ensures {sps : Sps} (h : sps.Divided) (references : Nat → Parse Nat) :
    (readTools references sps).Ensures Divided := by
  unfold readTools
  refine .andThen fun _ => .andThen fun _ => .andThen fun _ => .andThen fun _ => ?_
  refine .andThen fun _ => .andThen fun _ => .andThen fun _ => ?_
  extract_lets next
  have hnext : ∀ deblocking, (next deblocking).Ensures Divided := fun deblocking =>
    .andThen fun _ => ensures_pure.mpr h
  split <;> exact .andThen hnext

/-- The elements of presentation leave the rest as it is. -/
theorem readPresentation_frame (sps : Sps) : (readPresentation sps).Ensures fun sps' =>
    sps' = { sps with
      virtualBoundaries := sps'.virtualBoundaries, boundaries := sps'.boundaries
      timing := sps'.timing, fieldSequence := sps'.fieldSequence
      usability := sps'.usability } := by
  simp [readPresentation]

/-- Extensions leave the rest as it is. -/
theorem readExtensions_frame (sps : Sps) : (readExtensions sps).Ensures fun sps' =>
    sps' = { sps with
      extension := sps'.extension, rangeExtension := sps'.rangeExtension
      otherExtensions := sps'.otherExtensions } := by
  simp [readExtensions]

/-- The end of the payload adds nothing to what has been read. -/
theorem ensures_read {vpsOf : Nat → Option Vps} {layer : Nat} {P : Sps → Prop}
    (h : (readElements vpsOf layer).Ensures P) : (read vpsOf layer).Ensures P :=
  h.bind fun _ hsps => .andThen fun _ => ensures_pure.mpr hsps

theorem readPresentation_ensures {sps : Sps} (h : sps.Divided) :
    (readPresentation sps).Ensures Divided := by
  refine (readPresentation_frame sps).mono fun sps' hsps' => ?_
  rw [hsps']
  exact h

theorem readExtensions_ensures {sps : Sps} (h : sps.Divided) :
    (readExtensions sps).Ensures Divided := by
  refine (readExtensions_frame sps).mono fun sps' hsps' => ?_
  rw [hsps']
  exact h

/-- **The subpictures of every accepted sequence divide its picture.** -/
theorem read_ensures (vpsOf : Nat → Option Vps) (layer : Nat) :
    (read vpsOf layer).Ensures Divided := by
  refine ensures_read ?_
  unfold readElements
  refine .andThen fun sps => (readSize_ensures sps).bind fun sps h => ?_
  refine (readCoding_ensures h).bind fun sps h => (readTrees_ensures h).bind fun sps h => ?_
  refine (readTools_ensures h _).bind fun sps h => ?_
  exact (readPresentation_ensures h).bind fun sps h => readExtensions_ensures h

end Sps

/-! ### Picture parameter sets -/

theorem ceilDiv_pos {n d : Nat} (hn : 0 < n) (hd : 0 < d) : 0 < ceilDiv n d :=
  Nat.div_pos (by omega) hd

theorem ceilDiv_mono {m n : Nat} (h : m ≤ n) (d : Nat) : ceilDiv m d ≤ ceilDiv n d :=
  Nat.div_le_div_right (by omega)

theorem Sps.ctbSize_pos (sps : Sps) : 0 < sps.ctbSize := Nat.two_pow_pos _

namespace Pps

/-- The width of the picture in coding tree blocks. -/
def widthInCtbs (pps : Pps) : Nat := ceilDiv pps.width pps.sps.ctbSize

/-- The height of the picture in coding tree blocks. -/
def heightInCtbs (pps : Pps) : Nat := ceilDiv pps.height pps.sps.ctbSize

/-- The picture has an extent that its sequence allows. -/
structure Sized (pps : Pps) : Prop where
  sps : pps.sps.Divided
  width_pos : 0 < pps.width
  height_pos : 0 < pps.height
  width_le : pps.width ≤ pps.sps.width
  height_le : pps.height ≤ pps.sps.height

/-- What is known of a picture parameter set that has been accepted. -/
structure Sound (pps : Pps) : Prop extends pps.Sized where
  /-- Only the largest pictures have several subpictures. -/
  largest : 1 < pps.sps.subpictures.count → pps.hasMaximumSize = true
  ids_length : pps.subpictureIds.length = pps.sps.subpictures.count
  partition : pps.partition.Complete pps.widthInCtbs pps.heightInCtbs pps.areas

namespace Sized

variable {pps : Pps}

theorem widthInCtbs_pos (h : pps.Sized) : 0 < pps.widthInCtbs :=
  ceilDiv_pos h.width_pos pps.sps.ctbSize_pos

theorem heightInCtbs_pos (h : pps.Sized) : 0 < pps.heightInCtbs :=
  ceilDiv_pos h.height_pos pps.sps.ctbSize_pos

theorem widthInCtbs_le (h : pps.Sized) : pps.widthInCtbs ≤ pps.sps.widthInCtbs :=
  ceilDiv_mono h.width_le _

theorem heightInCtbs_le (h : pps.Sized) : pps.heightInCtbs ≤ pps.sps.heightInCtbs :=
  ceilDiv_mono h.height_le _

end Sized

theorem readSize_ensures {spsOf : Nat → Option Sps}
    (hsps : ∀ id sps, spsOf id = some sps → sps.Divided) : (readSize spsOf).Ensures Sized := by
  unfold readSize
  refine .andThen fun id => .andThen fun spsId => ?_
  rw [ensures_bind, ensures_ofReference]
  intro sps hfound
  refine .andThen fun mixedKinds => ?_
  refine .bind (.ueBetween fun _ hlo hhi => And.intro hlo hhi) fun width hwidth => ?_
  refine .bind (.ueBetween fun _ hlo hhi => And.intro hlo hhi) fun height hheight => ?_
  refine .andThen fun _ => .andThen fun _ => ensures_pure.mpr ?_
  exact ⟨hsps spsId sps hfound, hwidth.1, hheight.1, hwidth.2, hheight.2⟩

/-- Windows leave the rest as it is. -/
theorem readWindows_frame (pps : Pps) : (readWindows pps).Ensures fun pps' =>
    pps' = { pps with
      windowCoded := pps'.windowCoded, conformanceWindow := pps'.conformanceWindow
      scalingWindowCoded := pps'.scalingWindowCoded, scalingWindow := pps'.scalingWindow } := by
  simp [readWindows]

theorem readWindows_ensures {pps : Pps} (h : pps.Sized) : (readWindows pps).Ensures Sized := by
  refine (readWindows_frame pps).mono fun pps' hpps' => ?_
  rw [hpps']
  exact { h with }

theorem readIds_ensures {undivided : Bool} {pps : Pps} :
    (readIds undivided pps).Ensures (·.length = pps.sps.subpictures.count) := by
  unfold readIds
  extract_lets subpictures readAll
  have hreadAll : ∀ checked, (readAll checked).Ensures
      (·.length = pps.sps.subpictures.count) := fun checked =>
    .andThen fun _ => .andThen fun _ => ensures_collectFrom
  refine .andThen fun _ => ?_
  split
  · exact .andThen fun _ => .andThen fun _ => .andThen hreadAll
  · exact hreadAll ()

theorem length_idsOf {subpictures : SpsSubpictures} {coded : Option (List Nat)}
    (hids : ∀ ids, subpictures.ids = some ids → ids.length = subpictures.count)
    (hcoded : ∀ ids, coded = some ids → ids.length = subpictures.count) :
    (idsOf subpictures coded).length = subpictures.count := by
  unfold idsOf
  extract_lets indices
  have hindices : indices.length = subpictures.count := List.length_range
  split
  · cases hcoded' : coded with
    | some ids => exact hcoded ids hcoded'
    | none =>
      cases hids' : subpictures.ids with
      | some ids => exact hids ids hids'
      | none => exact hindices
  · exact hindices

theorem readPartition_ensures {pps : Pps} (h : pps.Sized) :
    (readPartition pps).Ensures Sound := by
  unfold readPartition
  refine .andThen fun outputFlags => .andThen fun undivided => .andThen fun idsCoded => ?_
  extract_lets several withIds
  have hwithIds : (several → pps.hasMaximumSize = true) → ∀ coded : Option (List Nat),
      (∀ ids, coded = some ids → ids.length = pps.sps.subpictures.count) →
      (withIds coded).Ensures Sound := by
    intro hlargest coded hcoded
    refine .andThen fun _ => ?_
    refine (PicturePartition.read_ensures h.widthInCtbs_pos h.heightInCtbs_pos).bind
      fun partition hpartition => ensures_pure.mpr ?_
    exact { h with
      largest := hlargest
      ids_length := length_idsOf h.sps.ids_length hcoded
      partition := hpartition }
  refine .andThen fun _ => ?_
  rw [ensures_bind, ensures_refuseIf]
  intro haccepted
  have hlargest : several → pps.hasMaximumSize = true := by
    intro hseveral
    simpa [hseveral] using haccepted
  split
  · rw [ensures_bind, ensures_map]
    refine readIds_ensures.mono fun ids hids => hwithIds hlargest (some ids) fun _ hsome => ?_
    cases hsome
    exact hids
  · exact hwithIds hlargest none fun _ hnone => by cases hnone

theorem readSettings_ensures {pps : Pps} (h : pps.Sound) : (readSettings pps).Ensures Sound := by
  unfold readSettings
  refine .andThen fun _ => .andThen fun _ => .andThen fun _ => .andThen fun _ => ?_
  exact .andThen fun _ => ensures_pure.mpr { h with }

/-- Extensions leave the rest as it is. -/
theorem readHeaderExtensions_frame (pps : Pps) : (readHeaderExtensions pps).Ensures fun pps' =>
    pps' = { pps with
      pictureHeaderExtension := pps'.pictureHeaderExtension
      sliceHeaderExtension := pps'.sliceHeaderExtension } := by
  simp [readHeaderExtensions]

theorem readHeaderExtensions_ensures {pps : Pps} (h : pps.Sound) :
    (readHeaderExtensions pps).Ensures Sound := by
  refine (readHeaderExtensions_frame pps).mono fun pps' hpps' => ?_
  rw [hpps']
  exact { h with }

/-- **Every accepted picture parameter set is sound**, if the sequence parameter sets that
it may refer to are. -/
theorem read_ensures {spsOf : Nat → Option Sps}
    (hsps : ∀ id sps, spsOf id = some sps → sps.Divided) : (read spsOf).Ensures Sound := by
  refine .withExtension ?_ fun _ _ h => { h with }
  unfold readElements
  refine (readSize_ensures hsps).bind fun pps h => (readWindows_ensures h).bind fun pps h => ?_
  refine (readPartition_ensures h).bind fun pps h => ?_
  exact (readSettings_ensures h).bind fun pps h => readHeaderExtensions_ensures h

end Pps

end CodedVideo
