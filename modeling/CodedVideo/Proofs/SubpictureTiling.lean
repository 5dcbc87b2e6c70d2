import CodedVideo.Proofs.SequenceLimits
import CodedVideo.Proofs.SliceAssignment
import CodedVideo.Proofs.Slices
import CodedVideo.Proofs.StoredSets

/-!
# Which lists of subpictures have a map

The map of subpictures is filled in place, and a mark tells the CTBs that are still free.
`subpictureMap_ok` says that rectangles with a map tile the picture.  Here is the other
direction: rectangles that tile the picture find all their CTBs free, one after another, and
leave none.  So a list of rectangles has a map exactly if it divides the picture
(`exists_subpictureMap_iff`), as long as the indices stay below the mark.

The subpictures of a sequence are given explicitly or by a grid, and in any case they are
accepted by their map.  Hence those of every sequence parameter set that is kept tile its
picture (`Session.Reachable.subpictures_tile`).
-/

namespace CodedVideo

open Parse

/-! ### Free CTBs can be claimed -/

theorem exists_claimCtbs (index : Nat) : ∀ {list : List Nat} {cells : Array Nat}, list.Nodup →
    (∀ c ∈ list, cells[c]? = some unclaimed) →
      ∃ cells', claimCtbs index cells list = .ok cells' := by
  intro list
  induction list with
  | nil => exact fun {cells} _ _ => ⟨cells, rfl⟩
  | cons c rest ih =>
    intro cells hnodup hfree
    obtain ⟨hnot, hrest⟩ := List.nodup_cons.mp hnodup
    rw [claimCtbs, if_pos (hfree c List.mem_cons_self)]
    refine ih hrest fun d hd => ?_
    have hne : c ≠ d := fun h => hnot (h ▸ hd)
    rw [Array.getElem?_setIfInBounds_ne hne]
    exact hfree d (List.mem_cons_of_mem c hd)

/-- What one subpicture claims leaves the CTBs of those that follow free. -/
theorem exists_claimSubpictures {width height : Nat} :
    ∀ {rects : List SubpictureRect} {index : Nat} {cells : Array Nat},
      index + rects.length ≤ unclaimed → (∀ rect ∈ rects, rect.fits width height) →
      (rects.flatMap (·.ctbs width)).Nodup →
      (∀ c ∈ rects.flatMap (·.ctbs width), cells[c]? = some unclaimed) →
        ∃ cells', claimSubpictures width height index cells rects = .ok cells' := by
  intro rects
  induction rects with
  | nil => exact fun {_ cells} _ _ _ _ => ⟨cells, rfl⟩
  | cons rect rest ih =>
    intro index cells hcount hfits hnodup hfree
    rw [List.length_cons] at hcount
    rw [List.flatMap_cons] at hnodup hfree
    obtain ⟨hown, hrest, hdisjoint⟩ := List.nodup_append'.mp hnodup
    obtain ⟨claimed, hclaimed⟩ := exists_claimCtbs index hown fun c hc =>
      hfree c (List.mem_append_left _ hc)
    rw [claimSubpictures, if_pos (hfits rect List.mem_cons_self), hclaimed]
    refine ih (by omega) (fun r hr => hfits r (List.mem_cons_of_mem rect hr)) hrest fun c hc => ?_
    have hfills := claimCtbs_fills (by omega) hclaimed
    rw [hfills.kept c fun hc' => hdisjoint hc' hc]
    exact hfree c (List.mem_append_right _ hc)

theorem Fills.count_eq_zero {α : Type} [BEq α] [LawfulBEq α] {free : α} {size : Nat}
    {cells' : Array α} {list : List Nat} (h : Fills free (Array.replicate size free) cells' list)
    (hall : ∀ c < size, c ∈ list) : cells'.count free = 0 := by
  refine Array.count_eq_zero.mpr fun hmem => ?_
  obtain ⟨c, hc⟩ := Array.mem_iff_getElem?.mp hmem
  by_cases hin : c ∈ list
  · exact h.after c hin hc
  · rw [h.kept c hin, Array.getElem?_replicate, if_neg fun hlt => hin (hall c hlt)] at hc
    cases hc

/-- Subpictures that have every CTB in exactly one of them have a map. -/
theorem exists_subpictureMap {width height : Nat} {rects : List SubpictureRect}
    (hcount : rects.length ≤ unclaimed) (hfits : ∀ rect ∈ rects, rect.fits width height)
    (hperm : (rects.flatMap (·.ctbs width)).Perm (List.range (width * height))) :
    ∃ owners, subpictureMap width height rects = .ok owners := by
  have hcount : 0 + rects.length ≤ unclaimed := by omega
  have hfree : ∀ c ∈ rects.flatMap (·.ctbs width),
      (Array.replicate (width * height) unclaimed)[c]? = some unclaimed := fun c hc =>
    Array.getElem?_replicate.trans (if_pos (List.mem_range.mp (hperm.mem_iff.mp hc)))
  obtain ⟨cells, hcells⟩ :=
    exists_claimSubpictures hcount hfits (hperm.nodup_iff.mpr List.nodup_range) hfree
  have hfull := (claimSubpictures_fills hcount hcells).2.count_eq_zero fun c hc =>
    hperm.mem_iff.mpr (List.mem_range.mpr hc)
  refine ⟨cells, except_bind_eq_ok.mpr ⟨cells, hcells, ?_⟩⟩
  simp only [hfull]
  rfl

/-! ### Tilings by rectangles -/

/-- Rectangles that tile a picture have every CTB in exactly one of them. -/
theorem Tiles.perm {width height : Nat} {rects : List SubpictureRect}
    (h : Tiles rects width height) (hfits : ∀ rect ∈ rects, rect.fits width height) :
    (rects.flatMap (·.ctbs width)).Perm (List.range (width * height)) := by
  rw [List.perm_iff_count]
  intro c
  have hcount : (rects.flatMap (·.ctbs width)).count c =
      rects.countP (·.contains (c % width) (c / width)) := by
    refine count_flatMap_eq_countP fun rect hrect => ?_
    have hrect := hfits rect hrect
    refine ⟨nodup_ctbsInRect ?_, SubpictureRect.mem_ctbs hrect⟩
    simp only [SubpictureRect.fits, Bool.and_eq_true, decide_eq_true_eq] at hrect
    exact hrect.1.2
  rw [hcount]
  by_cases hc : c < width * height
  · have hwidth : 0 < width := Nat.pos_of_mul_pos_right (Nat.zero_lt_of_lt hc)
    rw [h _ (Nat.mod_lt c hwidth) _ (Nat.div_lt_of_lt_mul hc)]
    exact (List.count_eq_one_of_mem List.nodup_range (List.mem_range.mpr hc)).symm
  · rw [List.count_eq_zero.mpr fun hmem => hc (List.mem_range.mp hmem), List.countP_eq_zero]
    intro rect hrect hcontains
    -- The rectangle ends above the row of the CTB.
    have hmem := (SubpictureRect.mem_ctbs (hfits rect hrect)).mpr hcontains
    have hfits := hfits rect hrect
    simp only [SubpictureRect.fits, Bool.and_eq_true, decide_eq_true_eq] at hfits
    have hrow := (mem_ctbsInRect hfits.1.2).mp hmem
    refine hc ?_
    have hlt : c / width < height := by omega
    have hwidth : 0 < width := by omega
    rw [Nat.mul_comm]
    exact (Nat.div_lt_iff_lt_mul hwidth).mp hlt

/-- **Rectangles have a map exactly if they divide the picture.** -/
theorem exists_subpictureMap_iff {width height : Nat} {rects : List SubpictureRect}
    (hcount : rects.length ≤ unclaimed) :
    (∃ owners, subpictureMap width height rects = .ok owners) ↔
      (∀ rect ∈ rects, rect.fits width height) ∧ Tiles rects width height := by
  constructor
  · rintro ⟨owners, howners⟩
    exact ⟨(subpictureMap_ok hcount howners).1, tiles_of_subpictureMap hcount howners⟩
  · rintro ⟨hfits, htiles⟩
    exact exists_subpictureMap hcount hfits (htiles.perm hfits)

/-- The map has an index for each CTB of the picture, and no more. -/
theorem size_subpictureMap {width height : Nat} {rects : List SubpictureRect}
    {owners : Array Nat} (hcount : rects.length ≤ unclaimed)
    (h : subpictureMap width height rects = .ok owners) : owners.size = width * height := by
  have hperm := (subpictureMap_ok hcount h).2
  refine eq_of_forall_lt_iff fun c => ?_
  rw [← List.mem_range (m := c) (n := width * height), ← hperm.mem_iff, List.mem_flatMap]
  constructor
  · intro hc
    obtain ⟨rect, hrect, hmem⟩ :=
      (subpictureMap_eq_some hcount h).mp (Array.getElem?_eq_getElem hc)
    exact ⟨rect, List.mem_of_getElem? hrect, hmem⟩
  · rintro ⟨rect, hrect, hmem⟩
    obtain ⟨i, hi⟩ := List.mem_iff_getElem?.mp hrect
    have howner := (subpictureMap_eq_some hcount h).mpr ⟨rect, hi, hmem⟩
    exact (Array.getElem?_eq_some_iff.mp howner).1

namespace Session

variable {s : Session}

/-- **The subpictures of every sequence parameter set that is kept tile its picture.**  The
map of CTBs tells which of them a CTB lies in.  Conversely, whatever does not divide the
picture is refused. -/
theorem Reachable.subpictures_tile (hs : s.Reachable) {id : Nat} {sps : Sps}
    (hsps : s.sequenceSets.get? id = some sps) :
    (1 ≤ sps.subpictures.count ∧ sps.subpictures.count ≤ 600) ∧
    (∀ rect ∈ sps.subpictures.areas, rect.fits sps.widthInCtbs sps.heightInCtbs) ∧
    Tiles sps.subpictures.areas sps.widthInCtbs sps.heightInCtbs ∧
    sps.subpictures.owners.size = sps.widthInCtbs * sps.heightInCtbs ∧
    (∀ x < sps.widthInCtbs, ∀ y < sps.heightInCtbs, ∀ i,
      sps.subpictures.owners[y * sps.widthInCtbs + x]? = some i ↔
        ∃ rect, sps.subpictures.areas[i]? = some rect ∧ rect.contains x y = true) ∧
    ∀ width height (rects : List SubpictureRect), rects.length ≤ 65535 →
      ((∃ owners, subpictureMap width height rects = .ok owners) ↔
        (∀ rect ∈ rects, rect.fits width height) ∧ Tiles rects width height) := by
  have hlimited := hs.sequenceSets_all Sps.read_limited id sps hsps
  have howned := (hs.sound.sequenceSets id sps hsps).owned
  have hcount : sps.subpictures.areas.length ≤ unclaimed := by
    rw [SpsSubpictures.areas, List.length_map]
    exact (hs.sound.sequenceSets id sps hsps).count_le
  have hfits := (subpictureMap_ok hcount howned).1
  refine ⟨⟨hlimited.count_pos, hlimited.count_le⟩, hfits, tiles_of_subpictureMap hcount howned,
    size_subpictureMap hcount howned, ?_, fun _ _ _ => exists_subpictureMap_iff⟩
  intro x hx y _ i
  obtain ⟨hcolumn, hrow⟩ := column_and_row hx y
  rw [subpictureMap_eq_some hcount howned]
  refine exists_congr fun rect => and_congr_right fun hrect => ?_
  rw [SubpictureRect.mem_ctbs (hfits rect (List.mem_of_getElem? hrect)), hcolumn, hrow]

theorem subpictures_tile_fourSubpictures : ∃ sps,
    fourSubpictures.sequenceSets.get? 0 = some sps ∧ sps.subpictures.count = 4 ∧
      sps.widthInCtbs = 4 ∧ Tiles sps.subpictures.areas sps.widthInCtbs sps.heightInCtbs := by
  have hcheck : (fourSubpictures.sequenceSets.get? 0).any (fun sps =>
      sps.subpictures.count == 4 && sps.widthInCtbs == 4) = true := by
    decide +kernel
  rw [Option.any_eq_true] at hcheck
  obtain ⟨sps, hsps, hcheck⟩ := hcheck
  rw [Bool.and_eq_true, beq_iff_eq, beq_iff_eq] at hcheck
  obtain ⟨-, -, htiles, -⟩ := fourSubpictures_reachable.subpictures_tile hsps
  exact ⟨sps, hsps, hcheck.1, hcheck.2, htiles⟩

end Session

end CodedVideo
