import CodedVideo.Pps.Partition
import CodedVideo.Proofs.Outcome
import CodedVideo.Proofs.SlicePartition

/-!
# Partitions that can be read

Whatever bits the partition of a picture is read from, what is accepted is a partition.
The slice loop describes exactly as many slices as it was asked for (`readAll_ensures`):
a round that cuts a tile into several slices takes that many from what is left, and the
check on their number leaves enough for the last slice to take the rest.

`PicturePartition.read_ensures` states what all later readers rely on, in whichever of
the three ways the slices are derived.
-/

namespace CodedVideo

open Parse

/-! ### The slice loop -/

namespace SliceRound

variable {grid : TileGrid} {deltas : Bool}

theorem readCuts_ensures (height : Nat) : (readCuts height).Ensures fun cuts => 0 ∉ cuts.2 := by
  unfold readCuts
  refine .andThen fun count => .andThen fun coded => ?_
  rw [ensures_bind, ensures_ofPartition]
  intro heights hheights
  rw [ensures_pure]
  dsimp only
  split
  · exact slicesInTile_ok hheights ‹_›
  · exact List.not_mem_nil

/-- No slice that a tile is cut into is empty. -/
theorem readGroup_ensures (tile previous : Nat) :
    (readGroup grid deltas tile previous).Ensures fun round => 0 ∉ round.group.sliceHeights := by
  unfold readGroup
  refine .andThen fun widthMinus1 => ?_
  extract_lets rowHeight withHeight
  have hwithHeight : ∀ heightMinus1,
      (withHeight heightMinus1).Ensures fun round => 0 ∉ round.group.sliceHeights := by
    intro heightMinus1
    unfold withHeight
    split
    · exact (readCuts_ensures rowHeight).bind fun cuts hcuts => ensures_pure.mpr hcuts
    · exact ensures_pure.mpr List.not_mem_nil
  split
  · exact hwithHeight 0
  · split
    · exact .andThen hwithHeight
    · exact hwithHeight previous

/-- What the slice loop promises: with the slices that lie in a tile cut before, the
rounds describe as many slices as are left, none of them empty. -/
structure Describes (rounds : List SliceRound) (left inTile : Nat) : Prop where
  count_eq : inTile + (rounds.map (·.group.slices)).sum = left
  heights : ∀ round ∈ rounds, 0 ∉ round.group.sliceHeights

/-- **The slice loop describes as many slices as it is asked for.** -/
theorem readAll_ensures {count : Nat} : ∀ {left inTile : Nat} {tile : Int} {previous : Nat},
    inTile ≤ left →
    (readAll grid deltas count left inTile tile previous).Ensures (Describes · left inTile) := by
  intro left
  induction left with
  | zero =>
    intro inTile tile previous hle
    rw [readAll, ensures_pure]
    exact ⟨by simpa using hle, by simp⟩
  | succ left ih =>
    intro inTile tile previous hle
    cases inTile with
    | succ inTile =>
      rw [readAll]
      exact (ih (Nat.le_of_succ_le_succ hle)).mono fun rounds h =>
        ⟨by have := h.count_eq; omega, h.heights⟩
    | zero =>
      cases left with
      | zero =>
        rw [readAll]
        exact .andThen fun tile => ensures_pure.mpr ⟨rfl, by simp [remainder]⟩
      | succ left =>
        rw [readAll]
        · refine .andThen fun tile => (readGroup_ensures tile previous).bind fun round hround => ?_
          extract_lets slices
          rw [ensures_bind, ensures_refuseIf, decide_eq_false_iff_not]
          intro hslices
          refine .andThen fun tileDelta => (ih (by omega)).bind fun rest hrest => ?_
          rw [ensures_pure]
          have hpos : 0 < slices := Nat.lt_of_lt_of_le Nat.one_pos (Nat.le_max_right _ 1)
          refine ⟨?_, ?_⟩
          · rw [List.map_cons, List.sum_cons]
            have := hrest.count_eq
            show 0 + (slices + _) = _
            omega
          · intro other hother
            rcases List.mem_cons.mp hother with rfl | hother
            · exact hround
            · exact hrest.heights other hother
        · simp

end SliceRound

/-! ### The whole partition -/

namespace PicturePartition

variable {width height : Nat}

/-- What is known of a partition before its slices are derived. -/
structure Described (p : PicturePartition) (width height subpictures : Nat) : Prop where
  proper : p.grid.Proper
  width_eq : p.grid.width = width
  height_eq : p.grid.height = height
  raster : p.rectangular = false → 1 < p.grid.tiles
  perSubpicture : p.slicePerSubpicture = true → p.slicesMinus1 = subpictures - 1
  undivided : p.undivided = true → p.slicesMinus1 = 0
  rounds : p.rectangular = true → p.slicePerSubpicture = false → p.undivided = false →
    SliceRound.Describes p.rounds (p.slicesMinus1 + 1) 0

theorem Described.size_eq {p : PicturePartition} {subpictures : Nat}
    (h : p.Described width height subpictures) : p.grid.size = width * height := by
  rw [TileGrid.size, h.width_eq, h.height_eq]

theorem readTiles_ensures : (readTiles width height).Ensures fun p =>
    p.undivided = false ∧ p.grid.Proper ∧ p.grid.width = width ∧ p.grid.height = height := by
  unfold readTiles
  refine .andThen fun _ => .andThen fun _ => .andThen fun _ => .andThen fun _ => ?_
  rw [ensures_bind, ensures_ofPartition]
  intro grid hgrid
  exact ensures_pure.mpr ⟨rfl, TileGrid.ofExplicit_ok hgrid⟩

theorem readSlices_ensures {p : PicturePartition} (subpictures : Nat)
    (hundivided : p.undivided = false) (hproper : p.grid.Proper)
    (hwidth : p.grid.width = width) (hheight : p.grid.height = height) :
    (readSlices subpictures p).Ensures (·.Described width height subpictures) := by
  unfold readSlices
  extract_lets several
  refine .andThen fun filterAcrossTiles => ?_
  extract_lets withShape
  have hwithShape : ∀ rectangular, (rectangular = false → 1 < p.grid.tiles) →
      (withShape rectangular).Ensures (·.Described width height subpictures) := by
    intro rectangular hraster
    unfold withShape
    refine .andThen fun slicePerSubpicture => ?_
    extract_lets looped
    refine .andThen fun slicesMinus1 => .andThen fun tileDeltas => ?_
    refine .bind (P := fun rounds => looped = true →
        SliceRound.Describes rounds (slicesMinus1 + 1) 0) ?_ fun rounds hrounds => ?_
    · rw [ensures_given]
      exact ⟨fun _ => (SliceRound.readAll_ensures (Nat.zero_le _)).mono fun _ h _ => h,
        fun hno hyes => absurd (hno.symm.trans hyes) (by decide)⟩
    · refine .andThen fun filterAcrossSlices => ensures_pure.mpr ?_
      exact {
        proper := hproper
        width_eq := hwidth
        height_eq := hheight
        raster := hraster
        perSubpicture := fun h => if_pos h
        undivided := fun h => absurd (hundivided.symm.trans h) (by decide)
        rounds := fun hrectangular hper _ => by
          dsimp only at hrectangular hper ⊢
          rw [hper]
          exact hrounds (by simp [looped, hrectangular, hper]) }
  split
  · exact .andThen fun rectangular => hwithShape rectangular fun _ => ‹_›
  · exact hwithShape true (fun h => absurd h (by decide))

theorem single_described {subpictures : Nat} (hwidth : 0 < width) (hheight : 0 < height) :
    Described { undivided := true, grid := .single width height } width height subpictures where
  proper := TileGrid.single_proper hwidth hheight
  width_eq := rfl
  height_eq := rfl
  raster := by simp
  perSubpicture := by simp
  undivided := fun _ => rfl
  rounds := by simp

/-- The slices that are derived partition the picture, in each of the three ways. -/
theorem deriveSlices_ok {p : PicturePartition} {areas : List SubpictureRect} {slices : SliceMap}
    (hp : p.Described width height areas.length) (hwidth : 0 < width) (hheight : 0 < height)
    (hrectangular : p.rectangular = true) (h : p.deriveSlices areas = .ok slices) :
    slices.Partitions (p.slicesMinus1 + 1) (width * height) := by
  unfold deriveSlices at h
  rw [hrectangular] at h
  rw [← hp.size_eq]
  cases hper : p.slicePerSubpicture with
  | true =>
    rw [hper] at h
    have hslices := SliceMap.ofSubpictures_ok h
    -- without subpictures nothing would be covered
    have hareas : areas ≠ [] := by
      rintro rfl
      have hempty := List.length_eq_zero_iff.mp hslices.count_eq
      have hcovers := hslices.covers
      rw [hempty, hp.size_eq, List.flatMap_nil, List.nil_perm, List.range_eq_nil] at hcovers
      exact absurd hcovers (Nat.mul_pos hwidth hheight).ne'
    rw [hp.perSubpicture hper, Nat.sub_add_cancel (List.length_pos_iff.mpr hareas)]
    exact hslices
  | false =>
    rw [hper] at h
    cases hundivided : p.undivided with
    | true =>
      rw [hundivided] at h
      rw [hp.undivided hundivided]
      exact SliceMap.ofGroups_ok hp.proper (by simp [SliceRound.remainder]) h
    | false =>
      rw [hundivided] at h
      have hrounds := hp.rounds hrectangular hper hundivided
      have hslices := SliceMap.ofGroups_ok hp.proper
        (List.forall_mem_map.mpr hrounds.heights) h
      rwa [List.map_map, Function.comp_def, ← Nat.zero_add (List.sum _), hrounds.count_eq]
        at hslices

/-- What is known of a partition that has been read. -/
structure Complete (p : PicturePartition) (width height : Nat) (areas : List SubpictureRect) :
    Prop where
  proper : p.grid.Proper
  width_eq : p.grid.width = width
  height_eq : p.grid.height = height
  derived : p.deriveSlices areas = .ok p.slices
  raster : p.rectangular = false → 1 < p.grid.tiles
  partitions : p.rectangular = true → p.slices.Partitions (p.slicesMinus1 + 1) (width * height)
  assignment : p.rectangular = true → p.assignment = .derive width areas p.slices
  owned : ∀ slices ∈ p.assignment.slicesOf, slices ≠ []

theorem complete_ensures {p : PicturePartition} {areas : List SubpictureRect}
    (hp : p.Described width height areas.length) (hwidth : 0 < width) (hheight : 0 < height) :
    (p.complete width areas).Ensures (·.Complete width height areas) := by
  unfold complete
  rw [ensures_bind, ensures_ofPartition]
  intro slices hslices
  extract_lets assignment
  split
  · exact ensures_invalid
  · rename_i howned
    have hpartitions : p.rectangular = true → _ := fun hrectangular =>
      deriveSlices_ok hp hwidth hheight hrectangular hslices
    have hnonempty : ∀ slices ∈ assignment.slicesOf, slices ≠ [] := by
      intro owned hmem hnil
      have := List.findIdx?_eq_none_iff.mp howned owned hmem
      simp [hnil] at this
    exact ensures_pure.mpr {
      proper := hp.proper
      width_eq := hp.width_eq
      height_eq := hp.height_eq
      derived := hslices
      raster := hp.raster
      partitions := hpartitions
      assignment := fun hrectangular => if_pos hrectangular
      owned := hnonempty }

/-- **A partition that is accepted is one**, whichever way its slices are derived. -/
theorem read_ensures {log2CtuSizeMinus5 : Nat} {areas : List SubpictureRect} {undivided : Bool}
    (hwidth : 0 < width) (hheight : 0 < height) :
    (read log2CtuSizeMinus5 width height areas undivided).Ensures
      (·.Complete width height areas) := by
  unfold read
  extract_lets derive
  split
  · rename_i hundivided
    rw [hundivided]
    exact complete_ensures (single_described hwidth hheight) hwidth hheight
  · refine .andThen fun _ => .andThen fun _ => readTiles_ensures.bind fun p hp => ?_
    obtain ⟨hundivided, hproper, hgridWidth, hgridHeight⟩ := hp
    exact (readSlices_ensures _ hundivided hproper hgridWidth hgridHeight).bind fun q hq =>
      complete_ensures hq hwidth hheight

end PicturePartition

end CodedVideo
