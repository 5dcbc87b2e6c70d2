import CodedVideo.Proofs.Coverage

/-!
# Slices that partition a picture

`SliceMap.Partitions map count size` says that a map has `count` slices, none of them
empty, which share the `size` CTBs of a picture among themselves.  Both ways to derive
a map lead to one, provided that no tile is empty: `ofGroups_ok` for the groups of a
slice loop and `ofSubpictures_ok` for one slice per subpicture.

That the CTBs are shared is what `SliceMap.checkCoverage` checks.  What is left is that
each group or subpicture makes the slices that are counted for it and that none of them
is empty.
-/

namespace CodedVideo

/-- The slices of a map share the CTBs of a picture among themselves. -/
structure SliceMap.Partitions (map : SliceMap) (count size : Nat) : Prop where
  count_eq : map.regions.length = count
  nonempty : ∀ region ∈ map.regions, region.ctbs ≠ []
  covers : (map.regions.flatMap (·.ctbs)).Perm (List.range size)

/-! ### The slices of a group -/

namespace SliceGroup

theorem length_cutTile (t : TileTables) (tile y : Nat) (heights : List Nat) :
    (cutTile t tile y heights).length = heights.length := by
  induction heights generalizing y with
  | nil => rfl
  | cons height rest ih => rw [cutTile, List.length_cons, ih, List.length_cons]

/-- A group makes as many slices as are counted for it. -/
theorem length_regions (t : TileTables) (group : SliceGroup) :
    (group.regions t).length = group.slices := by
  unfold regions slices
  dsimp only
  split
  · rw [length_cutTile]
    omega
  · rw [List.length_singleton]
    omega

theorem cutTile_nonempty {t : TileTables} {tile : Nat}
    (hx : t.columns.start (tile % t.columns.count) < t.columns.start (tile % t.columns.count + 1))
    {y : Nat} {heights : List Nat} (hheights : 0 ∉ heights) :
    ∀ region ∈ cutTile t tile y heights, region.ctbs ≠ [] := by
  induction heights generalizing y with
  | nil => simp [cutTile]
  | cons height rest ih =>
    rw [List.mem_cons, not_or] at hheights
    intro region hregion
    rcases List.mem_cons.mp hregion with rfl | hregion
    · exact ctbsInRect_ne_nil hx (by omega)
    · exact ih hheights.2 region hregion

/-- A group that stays within the tile grid makes no empty slice. -/
theorem regions_nonempty {grid : TileGrid} (hproper : grid.Proper) {group : SliceGroup}
    (hfits : group.fits grid.tables) (hheights : 0 ∉ group.sliceHeights) :
    ∀ region ∈ group.regions grid.tables, region.ctbs ≠ [] := by
  simp only [fits, Bool.and_eq_true, bne_iff_ne, decide_eq_true_eq] at hfits
  obtain ⟨⟨⟨hwidth, hheight⟩, hcolumn⟩, hrow⟩ := hfits
  have hx := TileAxis.start_lt_succ hproper.columns
    (i := group.topLeftTile % grid.tables.columns.count)
    (Nat.lt_of_lt_of_le (Nat.lt_add_of_pos_right (Nat.pos_of_ne_zero hwidth)) hcolumn)
  have hy := TileAxis.start_lt_succ hproper.rows
    (i := group.topLeftTile / grid.tables.columns.count)
    (Nat.lt_of_lt_of_le (Nat.lt_add_of_pos_right (Nat.pos_of_ne_zero hheight)) hrow)
  unfold regions
  dsimp only
  split
  · exact cutTile_nonempty hx hheights
  · intro region hregion
    rw [List.mem_singleton.mp hregion]
    exact TileGrid.ctbsOfTileRect_ne_nil (Nat.pos_of_ne_zero hwidth) (Nat.pos_of_ne_zero hheight)
      hx hy

end SliceGroup

/-- What a map that has been made of groups consists of. -/
theorem SliceMap.fits_of_ofGroups {grid : TileGrid} {groups : List SliceGroup} {map : SliceMap}
    (h : ofGroups grid groups = .ok map) :
    (∀ group ∈ groups, group.fits grid.tables) ∧
      map.regions = groups.flatMap (SliceGroup.regions grid.tables) ∧
      map.checkCoverage grid.size = .ok () := by
  unfold ofGroups at h
  dsimp only at h
  split at h
  · cases h
  · rename_i hfind
    obtain ⟨_, hcheck, h⟩ := except_bind_eq_ok.mp h
    cases h
    refine ⟨?_, rfl, hcheck⟩
    intro group hgroup
    simpa using List.findIdx?_eq_none_iff.mp hfind group hgroup

/-- **The groups of a slice loop partition the picture**, if a map can be made of them. -/
theorem SliceMap.ofGroups_ok {grid : TileGrid} (hproper : grid.Proper)
    {groups : List SliceGroup} (hheights : ∀ group ∈ groups, 0 ∉ group.sliceHeights)
    {map : SliceMap} (h : ofGroups grid groups = .ok map) :
    map.Partitions (groups.map (·.slices)).sum grid.size := by
  obtain ⟨hfits, hregions, hcheck⟩ := fits_of_ofGroups h
  refine ⟨?_, ?_, checkCoverage_ok hcheck⟩
  · rw [hregions, List.length_flatMap]
    exact congrArg List.sum (List.map_congr_left fun group _ => group.length_regions _)
  · intro region hregion
    rw [hregions] at hregion
    obtain ⟨group, hgroup, hregion⟩ := List.mem_flatMap.mp hregion
    exact SliceGroup.regions_nonempty hproper (hfits group hgroup) (hheights group hgroup)
      region hregion

/-! ### The slices of subpictures -/

/-- A subpicture that makes a slice lies in one tile, or its bounds are bounds of tiles. -/
theorem SubpictureRect.region_cases {grid : TileGrid} {index : Nat} {rect : SubpictureRect}
    {region : SliceRegion} (h : rect.region grid.tables index = .ok region) :
    (rect.left < rect.right ∧ rect.right ≤ grid.columns.extent) ∧
    (rect.top < rect.bottom ∧ rect.bottom ≤ grid.rows.extent) ∧
    let column := grid.columns.tables.partAt rect.left
    let row := grid.rows.tables.partAt rect.top
    let lastColumn := grid.columns.tables.partAt (rect.right - 1)
    let lastRow := grid.rows.tables.partAt (rect.bottom - 1)
    region.ctbs = rect.ctbs grid.width ∨
      (grid.columns.tables.start column = rect.left ∧ grid.rows.tables.start row = rect.top ∧
        grid.columns.tables.start (lastColumn + 1) = rect.right ∧
        grid.rows.tables.start (lastRow + 1) = rect.bottom) ∧
      region.ctbs = grid.tables.ctbsOfTileRect column (lastColumn + 1 - column) row
        (lastRow + 1 - row) := by
  unfold SubpictureRect.region at h
  dsimp only at h
  split at h
  · cases h
  · rename_i hfits
    rw [not_not, fits] at hfits
    simp only [Bool.and_eq_true, bne_iff_ne, decide_eq_true_eq] at hfits
    obtain ⟨⟨⟨hwidth, hheight⟩, hright⟩, hbottom⟩ := hfits
    have hx : rect.left < rect.right := Nat.lt_add_of_pos_right (Nat.pos_of_ne_zero hwidth)
    have hy : rect.top < rect.bottom := Nat.lt_add_of_pos_right (Nat.pos_of_ne_zero hheight)
    refine ⟨⟨hx, hright⟩, ⟨hy, hbottom⟩, ?_⟩
    split at h
    · cases h
      exact .inl rfl
    · split at h
      · rename_i haligned
        cases h
        exact .inr ⟨haligned, rfl⟩
      · cases h

theorem SubpictureRect.region_nonempty {grid : TileGrid} {index : Nat} {rect : SubpictureRect}
    {region : SliceRegion} (h : rect.region grid.tables index = .ok region) :
    region.ctbs ≠ [] := by
  obtain ⟨⟨hx, hright⟩, ⟨hy, hbottom⟩, hctbs | ⟨-, hctbs⟩⟩ := region_cases h
  · rw [hctbs]
    exact ctbsInRect_ne_nil hx hy
  · obtain ⟨hcolumn, hcolumns⟩ := TileAxis.parts_of_span hx hright
    obtain ⟨hrow, hrows⟩ := TileAxis.parts_of_span hy hbottom
    rw [hctbs]
    exact TileGrid.ctbsOfTileRect_ne_nil (Nat.sub_pos_of_lt (Nat.lt_succ_of_le hcolumns))
      (Nat.sub_pos_of_lt (Nat.lt_succ_of_le hrows)) hcolumn hrow

theorem SliceMap.ofSubpicturesFrom_ok {grid : TileGrid} : ∀ {rects : List SubpictureRect}
    {index : Nat} {regions : List SliceRegion},
    ofSubpicturesFrom grid.tables index rects = .ok regions →
      regions.length = rects.length ∧ ∀ region ∈ regions, region.ctbs ≠ [] := by
  intro rects
  induction rects with
  | nil =>
    intro index regions h
    cases h
    exact ⟨rfl, by simp⟩
  | cons rect rest ih =>
    intro index regions h
    obtain ⟨region, hregion, h⟩ := except_bind_eq_ok.mp h
    obtain ⟨others, hothers, h⟩ := except_bind_eq_ok.mp h
    cases h
    obtain ⟨hlen, hnonempty⟩ := ih hothers
    refine ⟨by rw [List.length_cons, hlen, List.length_cons], ?_⟩
    intro other hother
    rcases List.mem_cons.mp hother with rfl | hother
    · exact rect.region_nonempty hregion
    · exact hnonempty other hother

/-- **Subpictures partition the picture**, if each can be made a slice and a map can be
made of these. -/
theorem SliceMap.ofSubpictures_ok {grid : TileGrid} {rects : List SubpictureRect}
    {map : SliceMap} (h : ofSubpictures grid rects = .ok map) :
    map.Partitions rects.length grid.size := by
  obtain ⟨regions, hregions, h⟩ := except_bind_eq_ok.mp h
  obtain ⟨_, hcheck, h⟩ := except_bind_eq_ok.mp h
  cases h
  obtain ⟨hlen, hnonempty⟩ := ofSubpicturesFrom_ok hregions
  exact ⟨hlen, hnonempty, checkCoverage_ok hcheck⟩

end CodedVideo
