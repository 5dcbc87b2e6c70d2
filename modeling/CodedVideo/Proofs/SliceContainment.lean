import CodedVideo.Proofs.SliceCorners
import CodedVideo.Proofs.Slices

/-!
# Slices within their subpictures

A slice belongs to the subpicture in which it starts, and its other blocks are not looked at.
So one that spreads over several tiles may leave its subpicture, unless the picture has one
slice for each subpicture, where this is refused.

A subpicture is a rectangle, and so is what lies between the first and the last block of a
rectangular slice.  Hence the slice stays in its subpicture if and only if its last block does.
In raster order a slice consists of tiles, for each of which the first and the last block
decide.  `Session.Reachable.owns_iff_corners` states this for whatever a session accepts.
-/

namespace CodedVideo

/-! ### The subpicture of a block -/

theorem SpsSubpictures.lt_count {s : SpsSubpictures} {rect : SubpictureRect} {i : Nat}
    (hrect : s.areas[i]? = some rect) : i < s.count := by
  obtain ⟨hi, -⟩ := List.getElem?_eq_some_iff.mp hrect
  rwa [areas, List.length_map] at hi

namespace SpsSubpictures.Divides

variable {s : SpsSubpictures} {width height : Nat}

theorem length_areas_le (h : s.Divides width height) : s.areas.length ≤ unclaimed := by
  rw [areas, List.length_map]
  exact h.count_le

theorem owner_eq_some (h : s.Divides width height) {ctb i : Nat} :
    s.owners[ctb]? = some i ↔ ∃ rect, s.areas[i]? = some rect ∧ ctb ∈ rect.ctbs width :=
  subpictureMap_eq_some h.length_areas_le h.owned

theorem mem_ctbs (h : s.Divides width height) {rect : SubpictureRect} {i ctb : Nat}
    (hrect : s.areas[i]? = some rect) :
    ctb ∈ rect.ctbs width ↔ rect.contains (ctb % width) (ctb / width) = true :=
  SubpictureRect.mem_ctbs
    ((subpictureMap_ok h.length_areas_le h.owned).1 rect (List.mem_of_getElem? hrect))

theorem lt_of_owner (h : s.Divides width height) {ctb i : Nat} (howner : s.owners[ctb]? = some i) :
    i < s.count ∧ ctb < width * height := by
  obtain ⟨rect, hrect, hctb⟩ := h.owner_eq_some.mp howner
  have hmem : ctb ∈ s.areas.flatMap (·.ctbs width) :=
    List.mem_flatMap.mpr ⟨rect, List.mem_of_getElem? hrect, hctb⟩
  have hperm := (subpictureMap_ok h.length_areas_le h.owned).2
  exact ⟨lt_count hrect, List.mem_range.mp (hperm.mem_iff.mp hmem)⟩

/-- A single subpicture has every block. -/
theorem owner_of_single (h : s.Divides width height) (hsingle : ¬ 1 < s.count) {ctb i : Nat}
    (hctb : ctb < width * height) (hi : i < s.count) : s.owners[ctb]? = some i := by
  have hperm := (subpictureMap_ok h.length_areas_le h.owned).2
  obtain ⟨rect, hrect, hctb⟩ := List.mem_flatMap.mp (hperm.mem_iff.mpr (List.mem_range.mpr hctb))
  obtain ⟨j, hj⟩ := List.mem_iff_getElem?.mp hrect
  have hlt := lt_count hj
  obtain rfl : i = j := by omega
  exact h.owner_eq_some.mpr ⟨rect, hj, hctb⟩

end SpsSubpictures.Divides

namespace Pps.Sound

variable {pps : Pps} {ctb i : Nat}

theorem widthInCtbs_eq (h : pps.Sound) (hseveral : 1 < pps.sps.subpictures.count) :
    pps.widthInCtbs = pps.sps.widthInCtbs := by
  have hsize := h.largest hseveral
  rw [hasMaximumSize, Bool.and_eq_true, beq_iff_eq] at hsize
  rw [widthInCtbs, Sps.widthInCtbs, hsize.1]

theorem size_le (h : pps.Sound) :
    pps.widthInCtbs * pps.heightInCtbs ≤ pps.sps.widthInCtbs * pps.sps.heightInCtbs :=
  Nat.mul_le_mul h.widthInCtbs_le h.heightInCtbs_le

/-- A block has the subpicture in whose area it lies. -/
theorem owner_of_contains (h : pps.Sound) {rect : SubpictureRect}
    (hrect : pps.sps.subpictures.areas[i]? = some rect)
    (hctb : ctb < pps.widthInCtbs * pps.heightInCtbs)
    (hin : rect.contains (ctb % pps.widthInCtbs) (ctb / pps.widthInCtbs) = true) :
    pps.sps.subpictures.owners[ctb]? = some i := by
  by_cases hseveral : 1 < pps.sps.subpictures.count
  · rw [h.widthInCtbs_eq hseveral] at hin
    exact h.sps.owner_eq_some.mpr ⟨rect, hrect, (h.sps.mem_ctbs hrect).mpr hin⟩
  · exact h.sps.owner_of_single hseveral (hctb.trans_le h.size_le) (SpsSubpictures.lt_count hrect)

/-- A block between two others has their subpicture. -/
theorem owner_between (h : pps.Sound) {first last : Nat}
    (hcolumn : first % pps.widthInCtbs ≤ ctb % pps.widthInCtbs ∧
      ctb % pps.widthInCtbs ≤ last % pps.widthInCtbs)
    (hrow : first / pps.widthInCtbs ≤ ctb / pps.widthInCtbs ∧
      ctb / pps.widthInCtbs ≤ last / pps.widthInCtbs)
    (hfirst : pps.sps.subpictures.owners[first]? = some i)
    (hlast : pps.sps.subpictures.owners[last]? = some i) :
    pps.sps.subpictures.owners[ctb]? = some i := by
  by_cases hseveral : 1 < pps.sps.subpictures.count
  · rw [h.widthInCtbs_eq hseveral] at hcolumn hrow
    obtain ⟨rect, hrect, hfirst⟩ := h.sps.owner_eq_some.mp hfirst
    obtain ⟨rect', hrect', hlast⟩ := h.sps.owner_eq_some.mp hlast
    cases hrect.symm.trans hrect'
    refine h.sps.owner_eq_some.mpr ⟨rect, hrect, ?_⟩
    rw [h.sps.mem_ctbs hrect] at hfirst hlast ⊢
    simp only [SubpictureRect.contains, Bool.and_eq_true, decide_eq_true_eq] at hfirst hlast ⊢
    omega
  · -- A single subpicture has every block up to one of its own.
    have hle : ctb ≤ last := by
      rw [← Nat.div_add_mod ctb pps.widthInCtbs, ← Nat.div_add_mod last pps.widthInCtbs]
      exact Nat.add_le_add (Nat.mul_le_mul_left _ hrow.2) hcolumn.2
    obtain ⟨hi, hlt⟩ := h.sps.lt_of_owner hlast
    exact h.sps.owner_of_single hseveral (hle.trans_lt hlt) hi

theorem owned_iff_corners (h : pps.Sound) {ctbs : List Nat}
    (hcornered : Cornered pps.widthInCtbs ctbs) :
    (∀ ctb ∈ ctbs, pps.sps.subpictures.owners[ctb]? = some i) ↔
      (∀ ctb ∈ ctbs.head?, pps.sps.subpictures.owners[ctb]? = some i) ∧
        ∀ ctb ∈ ctbs.getLast?, pps.sps.subpictures.owners[ctb]? = some i := by
  constructor
  · intro hall
    exact ⟨fun ctb hctb => hall ctb (List.mem_of_mem_head? hctb),
      fun ctb hctb => hall ctb (List.mem_of_mem_getLast? hctb)⟩
  · rintro ⟨hfirst, hlast⟩ ctb hctb
    have hne : ctbs ≠ [] := List.ne_nil_of_mem hctb
    have hhead := List.head?_eq_some_head hne
    have hend := List.getLast?_eq_some_getLast hne
    obtain ⟨hcolumn, hrow⟩ := hcornered _ hhead _ hend ctb hctb
    exact h.owner_between hcolumn hrow (hfirst _ hhead) (hlast _ hend)

end Pps.Sound

/-! ### The slices of a partition -/

namespace PicturePartition.Complete

variable {p : PicturePartition} {width height : Nat} {areas : List SubpictureRect}

theorem cornered (h : p.Complete width height areas) (hrectangular : p.rectangular = true)
    (hper : p.slicePerSubpicture = false) : ∀ region ∈ p.slices.regions,
      Cornered width region.ctbs := by
  have hderived := h.derived
  unfold deriveSlices at hderived
  rw [hrectangular, hper] at hderived
  rw [← h.width_eq]
  cases hundivided : p.undivided with
  | true =>
    rw [hundivided] at hderived
    exact SliceMap.cornered_of_ofGroups h.proper hderived
  | false =>
    rw [hundivided] at hderived
    exact SliceMap.cornered_of_ofGroups h.proper hderived

theorem holds (h : p.Complete width height areas) (hrectangular : p.rectangular = true)
    (hper : p.slicePerSubpicture = true) :
    List.Forall₂ (SubpictureRect.Holds width) areas p.slices.regions := by
  have hderived := h.derived
  unfold deriveSlices at hderived
  rw [hrectangular, hper] at hderived
  rw [← h.width_eq]
  exact SliceMap.holds_of_ofSubpictures hderived

end PicturePartition.Complete

/-! ### Accepted slices -/

/-- The CTBs of a place that exists lie in the picture. -/
theorem SlicePlace.Valid.ctb_lt {pps : Pps} (h : pps.Sound) {place : SlicePlace}
    (hplace : place.Valid pps) {ctbs : List Nat}
    (hctbs : place.ctbs pps.partition = .ok ctbs) :
    ∀ ctb ∈ ctbs, ctb < pps.partition.grid.size := by
  intro ctb hctb
  cases hrectangular : pps.partition.rectangular with
  | true =>
    obtain ⟨slice, hslice⟩ := hplace.rectangular hrectangular
    have hregion := SliceAssignment.slice?_lt (h.slicesOf_perm hrectangular) hslice
    rw [ctbs_of_slice? hrectangular hslice, List.getD_eq_getElem?_getD,
      List.getElem?_eq_getElem hregion] at hctbs
    cases hctbs
    have hmem : ctb ∈ pps.partition.slices.regions.flatMap (·.ctbs) :=
      List.mem_flatMap.mpr ⟨_, List.getElem_mem hregion, hctb⟩
    rw [TileGrid.size, h.partition.width_eq, h.partition.height_eq]
    exact List.mem_range.mp ((h.partition.partitions hrectangular).covers.mem_iff.mp hmem)
  | false =>
    have hinside := hplace.raster hrectangular
    rw [hplace.ctbs_of_raster hrectangular] at hctbs
    cases hctbs
    obtain ⟨tile, htile, hctb⟩ := List.mem_flatMap.mp hctb
    rw [List.mem_range'_1] at htile
    exact TileGrid.lt_size_of_mem_ctbsOfTile (by omega) hctb

/-- The block lies in the subpicture that the slice names. -/
def SliceHeader.Owns (slice : SliceHeader) (ctb : Nat) : Prop :=
  slice.pps.sps.subpictures.owners[ctb]? = some slice.place.subpicture

instance (slice : SliceHeader) (ctb : Nat) : Decidable (slice.Owns ctb) :=
  inferInstanceAs (Decidable (_ = _))

namespace SliceHeader.Placed

variable {slice : SliceHeader}

theorem region_mem (h : slice.Placed) (hrectangular : slice.pps.partition.rectangular = true) :
    ∃ index region, slice.pps.partition.assignment.slice? slice.place.subpicture
        slice.place.address = some index ∧
      slice.pps.partition.slices.regions[index]? = some region ∧ slice.ctbs = region.ctbs := by
  obtain ⟨index, hindex, hctbs⟩ := h.exists_slice? hrectangular
  have hlt := SliceAssignment.slice?_lt (h.pps.slicesOf_perm hrectangular) hindex
  have hregion := List.getElem?_eq_getElem hlt
  rw [List.getD_eq_getElem?_getD, hregion, Option.getD_some] at hctbs
  exact ⟨index, _, hindex, hregion, hctbs⟩

theorem ctb_lt (h : slice.Placed) {ctb : Nat} (hctb : ctb ∈ slice.ctbs) :
    ctb < slice.pps.widthInCtbs * slice.pps.heightInCtbs := by
  rw [← h.pps.partition.width_eq, ← h.pps.partition.height_eq]
  exact h.place.ctb_lt h.pps h.ctbs ctb hctb

/-- A slice starts in its subpicture. -/
theorem owns_head (h : slice.Placed) (hinfo : slice.pps.sps.subpictures.infoPresent = true)
    (hrectangular : slice.pps.partition.rectangular = true) :
    ∀ ctb ∈ slice.ctbs.head?, slice.Owns ctb := by
  intro ctb hctb
  obtain ⟨index, region, hindex, hregion, hctbs⟩ := h.region_mem hrectangular
  obtain ⟨list, hlist, hat⟩ := SliceAssignment.slice?_eq_some.mp hindex
  rw [h.pps.partition.assignment hrectangular] at hlist
  obtain ⟨rect, hrect, rfl⟩ := Option.map_eq_some_iff.mp (List.getElem?_map.symm.trans hlist)
  have hstarts := (SliceAssignment.mem_slicesIn.mp (List.mem_of_getElem? hat)).2
  rw [List.getD_eq_getElem?_getD, hregion, Option.getD_some, SliceAssignment.startsIn] at hstarts
  rw [Pps.areas, if_pos hinfo] at hrect
  rw [hctbs] at hctb
  obtain ⟨rest, hrest⟩ := List.head?_eq_some_iff.mp hctb
  rw [hrest] at hstarts
  have hmem : ctb ∈ slice.ctbs := by
    rw [hctbs, hrest]
    exact List.mem_cons_self
  exact h.pps.owner_of_contains hrect (h.ctb_lt hmem) hstarts

/-- A slice made of a subpicture lies in it. -/
theorem owns_of_slicePerSubpicture (h : slice.Placed)
    (hinfo : slice.pps.sps.subpictures.infoPresent = true)
    (hrectangular : slice.pps.partition.rectangular = true)
    (hper : slice.pps.partition.slicePerSubpicture = true) :
    ∀ ctb ∈ slice.ctbs, slice.Owns ctb := by
  obtain ⟨index, region, -, hregion, hctbs⟩ := h.region_mem hrectangular
  have hholds := h.pps.partition.holds hrectangular hper
  obtain ⟨rect, hrect, hin⟩ : ∃ rect, slice.pps.areas[index]? = some rect ∧
      rect.Holds slice.pps.widthInCtbs region := by
    obtain ⟨hlt, rfl⟩ := List.getElem?_eq_some_iff.mp hregion
    have hlt' := hlt.trans_eq hholds.length_eq.symm
    exact ⟨_, List.getElem?_eq_getElem hlt', hholds.get hlt' hlt⟩
  rw [Pps.areas, if_pos hinfo] at hrect
  have howner : ∀ ctb ∈ slice.ctbs,
      slice.pps.sps.subpictures.owners[ctb]? = some index := fun ctb hctb =>
    h.pps.owner_of_contains hrect (h.ctb_lt hctb) (hin ctb (hctbs ▸ hctb))
  intro ctb hctb
  -- The first block tells that the subpicture of the slice is the one that it has been made of.
  have hhead := List.head?_eq_some_head (List.ne_nil_of_mem hctb)
  have hsame := (howner _ (List.mem_of_mem_head? hhead)).symm.trans
    (h.owns_head hinfo hrectangular _ hhead)
  rw [Owns, ← hsame]
  exact howner ctb hctb

/-- A rectangular slice stays in its subpicture if it ends there. -/
theorem owns_iff_getLast (h : slice.Placed)
    (hinfo : slice.pps.sps.subpictures.infoPresent = true)
    (hrectangular : slice.pps.partition.rectangular = true) :
    (∀ ctb ∈ slice.ctbs, slice.Owns ctb) ↔ ∀ ctb ∈ slice.ctbs.getLast?, slice.Owns ctb := by
  constructor
  · exact fun hall ctb hctb => hall ctb (List.mem_of_mem_getLast? hctb)
  intro hlast
  cases hper : slice.pps.partition.slicePerSubpicture with
  | true => exact h.owns_of_slicePerSubpicture hinfo hrectangular hper
  | false =>
    obtain ⟨index, region, -, hregion, hctbs⟩ := h.region_mem hrectangular
    have hcornered := h.pps.partition.cornered hrectangular hper region
      (List.mem_of_getElem? hregion)
    rw [← hctbs] at hcornered
    exact (h.pps.owned_iff_corners hcornered).mpr ⟨h.owns_head hinfo hrectangular, hlast⟩

theorem ctbs_of_raster (h : slice.Placed) (hraster : slice.pps.partition.rectangular = false) :
    slice.ctbs = (List.range' slice.place.address (slice.place.tilesMinus1 + 1)).flatMap
      slice.pps.partition.grid.tables.ctbsOfTile :=
  Except.ok.inj (h.ctbs.symm.trans (h.place.ctbs_of_raster hraster))

/-- A slice in raster order stays in its subpicture if its tiles start and end there. -/
theorem owns_iff_tiles (h : slice.Placed) (hraster : slice.pps.partition.rectangular = false) :
    (∀ ctb ∈ slice.ctbs, slice.Owns ctb) ↔
      ∀ tile ∈ List.range' slice.place.address (slice.place.tilesMinus1 + 1),
        (∀ ctb ∈ (slice.pps.partition.grid.tables.ctbsOfTile tile).head?, slice.Owns ctb) ∧
          ∀ ctb ∈ (slice.pps.partition.grid.tables.ctbsOfTile tile).getLast?, slice.Owns ctb := by
  have hcornered : ∀ tile ∈ List.range' slice.place.address (slice.place.tilesMinus1 + 1),
      Cornered slice.pps.widthInCtbs (slice.pps.partition.grid.tables.ctbsOfTile tile) := by
    intro tile htile
    rw [List.mem_range'_1] at htile
    have hinside := h.place.raster hraster
    have hcolumns : 0 < slice.pps.partition.grid.columns.count :=
      TileGrid.columns_pos (show tile < slice.pps.partition.grid.tiles by omega)
    rw [← h.pps.partition.width_eq]
    exact TileGrid.cornered_ctbsAt (Nat.mod_lt tile hcolumns)
  rw [h.ctbs_of_raster hraster, List.forall_mem_flatMap]
  exact forall₂_congr fun tile htile => h.pps.owned_iff_corners (hcornered tile htile)

end SliceHeader.Placed

namespace Session

variable {s : Session}

/-- **When slices stay in their subpictures.**  A rectangular slice starts in the subpicture
that it names, and stays there if and only if it ends there, which it does where every
subpicture is one slice.  A slice in raster order stays in the subpicture if and only if each
of its tiles starts and ends there. -/
theorem Reachable.owns_iff_corners (hs : s.Reachable) {nal : Nal} {slice : SliceHeader}
    (h : (s.readSlice nal).1 = .ok slice)
    (hinfo : slice.pps.sps.subpictures.infoPresent = true) :
    (slice.pps.partition.rectangular = true →
      (∀ ctb ∈ slice.ctbs.head?, slice.Owns ctb) ∧
      ((∀ ctb ∈ slice.ctbs, slice.Owns ctb) ↔ ∀ ctb ∈ slice.ctbs.getLast?, slice.Owns ctb) ∧
      (slice.pps.partition.slicePerSubpicture = true → ∀ ctb ∈ slice.ctbs, slice.Owns ctb)) ∧
    (slice.pps.partition.rectangular = false →
      ((∀ ctb ∈ slice.ctbs, slice.Owns ctb) ↔
        ∀ tile ∈ List.range' slice.place.address (slice.place.tilesMinus1 + 1),
          (∀ ctb ∈ (slice.pps.partition.grid.tables.ctbsOfTile tile).head?, slice.Owns ctb) ∧
            ∀ ctb ∈ (slice.pps.partition.grid.tables.ctbsOfTile tile).getLast?,
              slice.Owns ctb)) := by
  have hplaced := hs.placed h
  constructor
  · intro hrectangular
    exact ⟨hplaced.owns_head hinfo hrectangular, hplaced.owns_iff_getLast hinfo hrectangular,
      hplaced.owns_of_slicePerSubpicture hinfo hrectangular⟩
  · exact hplaced.owns_iff_tiles

theorem owns_iff_corners_fourSubpictures : ∃ slice,
    (fourSubpictures.readSlice (sliceOfFirst 0x30)).1 = .ok slice ∧
      slice.pps.sps.subpictures.infoPresent = true ∧ slice.ctbs ≠ [] ∧
        ∀ ctb ∈ slice.ctbs, slice.Owns ctb := by
  have hcheck : (match (fourSubpictures.readSlice (sliceOfFirst 0x30)).1 with
    | .ok slice => slice.pps.sps.subpictures.infoPresent && slice.pps.partition.rectangular &&
        !slice.ctbs.isEmpty && decide (∀ ctb ∈ slice.ctbs.getLast?, slice.Owns ctb)
    | .error _ => false) = true := by
    decide +kernel
  split at hcheck
  · rename_i slice hslice
    simp only [Bool.and_eq_true, Bool.not_eq_true', List.isEmpty_eq_false_iff,
      decide_eq_true_eq] at hcheck
    obtain ⟨⟨⟨hinfo, hrectangular⟩, hne⟩, hlast⟩ := hcheck
    have hcorners := (fourSubpictures_reachable.owns_iff_corners hslice hinfo).1 hrectangular
    exact ⟨slice, hslice, hinfo, hne, hcorners.2.1.mpr hlast⟩
  · cases hcheck

/-- A session with a picture parameter set for pictures of three CTBs in a row.  The first one
and the others are the subpictures, while the first two and the last one are the tiles, each of
which is a slice. -/
def straddling : Session :=
  (start false).after (.sequenceSet {
      header := { kind := .sps, temporalIdPlus1 := 1 }
      bytes := [0x00, 0x79, 0x00, 0x09, 0x02, 0x33, 0x00, 0x00, 0x00, 0xc2, 0x08, 0x55, 0x0c, 0xf4,
        0x07, 0xb6, 0x1f, 0x01, 0x80, 0x82, 0x00, 0x00, 0x80] })
    |>.after (.pictureSet {
      header := { kind := .pps, temporalIdPlus1 := 1 }
      bytes := [0x00, 0x81, 0x00, 0x00, 0x61, 0x04, 0x20, 0x15, 0x69, 0x4c, 0x20, 0x04] })

/-- The first slice names the first subpicture but has a CTB of the second. -/
theorem leaves_subpicture_straddling : straddling.Reachable ∧ ∃ slice,
    (straddling.readSlice (sliceOfFirst 0xc0)).1 = .ok slice ∧
      slice.pps.sps.subpictures.infoPresent = true ∧ 1 ∈ slice.ctbs ∧ ¬ slice.Owns 1 := by
  refine ⟨.after _ (.after _ (.start false)), ?_⟩
  have hcheck : (match (straddling.readSlice (sliceOfFirst 0xc0)).1 with
    | .ok slice => slice.pps.sps.subpictures.infoPresent && decide (1 ∈ slice.ctbs) &&
        !decide (slice.Owns 1)
    | .error _ => false) = true := by
    decide +kernel
  split at hcheck
  · rename_i slice hslice
    simp only [Bool.and_eq_true, Bool.not_eq_true', decide_eq_true_eq,
      decide_eq_false_iff_not] at hcheck
    exact ⟨slice, hslice, hcheck.1.1, hcheck.1.2, hcheck.2⟩
  · cases hcheck

end Session

end CodedVideo
