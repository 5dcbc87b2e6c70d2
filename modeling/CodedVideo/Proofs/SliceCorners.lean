import CodedVideo.Proofs.SlicePartition

/-!
# The corners of a slice

The blocks of a tile and of a rectangular slice are listed such that the first one is the
upper left corner and the last one the lower right corner of a rectangle that holds the
others (`Cornered`).  The order of the blocks in between depends on how the slice has been
derived: within a tile they come row by row, and otherwise tile by tile.

A slice made of a subpicture holds no block outside that subpicture
(`SliceMap.holds_of_ofSubpictures`).
-/

namespace CodedVideo

/-! ### Ends of lists that are put together -/

theorem head?_flatMap_range' {f : Nat → List Nat} {start count : Nat} (hcount : 0 < count)
    {first : Nat} (h : (f start).head? = some first) :
    ((List.range' start count).flatMap f).head? = some first := by
  obtain ⟨n, rfl⟩ : ∃ n, count = n + 1 := ⟨count - 1, by omega⟩
  rw [List.range'_succ, List.flatMap_cons, List.head?_append, h]
  rfl

theorem getLast?_flatMap_range' {f : Nat → List Nat} {start count : Nat} (hcount : 0 < count)
    {last : Nat} (h : (f (start + count - 1)).getLast? = some last) :
    ((List.range' start count).flatMap f).getLast? = some last := by
  obtain ⟨n, rfl⟩ : ∃ n, count = n + 1 := ⟨count - 1, by omega⟩
  rw [List.range'_1_concat, List.flatMap_append, List.flatMap_singleton, List.getLast?_append]
  rw [show start + (n + 1) - 1 = start + n by omega] at h
  rw [h]
  rfl

/-! ### Blocks between two corners -/

/-- The blocks lie in a rectangle with the first and the last of them in its corners. -/
def Cornered (width : Nat) (ctbs : List Nat) : Prop :=
  ∀ first ∈ ctbs.head?, ∀ last ∈ ctbs.getLast?, ∀ ctb ∈ ctbs,
    (first % width ≤ ctb % width ∧ ctb % width ≤ last % width) ∧
      first / width ≤ ctb / width ∧ ctb / width ≤ last / width

/-- The blocks lie in columns `x0` to `x1` and rows `y0` to `y1`, both ends exclusive, the first
one in the upper left corner and the last one in the lower right corner. -/
structure Spans (width x0 x1 y0 y1 : Nat) (ctbs : List Nat) : Prop where
  inside : ∀ ctb ∈ ctbs,
    (x0 ≤ ctb % width ∧ ctb % width < x1) ∧ y0 ≤ ctb / width ∧ ctb / width < y1
  head : ctbs.head? = some (y0 * width + x0)
  last : ctbs.getLast? = some ((y1 - 1) * width + (x1 - 1))

variable {width x0 x1 y0 y1 : Nat} {ctbs : List Nat}

theorem Spans.cornered (h : Spans width x0 x1 y0 y1 ctbs) (hx : x1 ≤ width) :
    Cornered width ctbs := by
  intro first hfirst last hlast ctb hctb
  have hinside := h.inside ctb hctb
  cases h.head.symm.trans hfirst
  cases h.last.symm.trans hlast
  obtain ⟨hcolumn, hrow⟩ := column_and_row (show x0 < width by omega) y0
  obtain ⟨hcolumn', hrow'⟩ := column_and_row (show x1 - 1 < width by omega) (y1 - 1)
  rw [hcolumn, hrow, hcolumn', hrow']
  omega

theorem spans_ctbsInRect (hx : x0 < x1) (hy : y0 < y1) (hwidth : x1 ≤ width) :
    Spans width x0 x1 y0 y1 (ctbsInRect width x0 x1 y0 y1) where
  inside ctb hctb := (mem_ctbsInRect hwidth).mp hctb
  head := by
    apply head?_flatMap_range' (Nat.sub_pos_of_lt hy)
    rw [List.head?_map, List.head?_range', if_neg (by omega)]
    rfl
  last := by
    apply getLast?_flatMap_range' (Nat.sub_pos_of_lt hy)
    rw [List.getLast?_map, List.getLast?_range', if_neg (by omega), Option.map_some]
    rw [show y0 + (y1 - y0) - 1 = y1 - 1 by omega, show x0 + (x1 - x0) - 1 = x1 - 1 by omega]

/-- A rectangle has corners unless it is empty, and then it has no blocks. -/
theorem cornered_ctbsInRect (hwidth : x1 ≤ width) :
    Cornered width (ctbsInRect width x0 x1 y0 y1) := by
  by_cases hsome : x0 < x1 ∧ y0 < y1
  · exact (spans_ctbsInRect hsome.1 hsome.2 hwidth).cornered hwidth
  · intro _ _ _ _ ctb hctb
    rw [mem_ctbsInRect hwidth] at hctb
    omega

/-! ### Tiles -/

theorem TileAxis.start_le_extent {axis : TileAxis} {i : Nat} (hi : i ≤ axis.count) :
    axis.tables.start i ≤ axis.extent := by
  rw [tables_start hi]
  exact (List.take_sublist _ _).sum_le_sum (fun _ _ => Nat.zero_le _)

namespace TileGrid

variable {grid : TileGrid} {column columns row rows ctb : Nat}

theorem start_le_width (hcolumn : column ≤ grid.columns.count) :
    grid.columns.tables.start column ≤ grid.width :=
  TileAxis.start_le_extent hcolumn

theorem columns_pos {tile : Nat} (h : tile < grid.tiles) : 0 < grid.columns.count :=
  Nat.pos_of_mul_pos_right (Nat.zero_lt_of_lt h)

/-- The CTBs of a tile lie in the picture. -/
theorem lt_size_of_mem_ctbsOfTile {tile : Nat} (h : tile < grid.tiles)
    (hctb : ctb ∈ grid.tables.ctbsOfTile tile) : ctb < grid.size := by
  have hcolumn : tile % grid.columns.count < grid.columns.count := Nat.mod_lt _ (columns_pos h)
  have hrow : tile / grid.columns.count < grid.rows.count := Nat.div_lt_of_lt_mul h
  obtain ⟨⟨-, hin⟩, -, hout⟩ := (mem_ctbsInRect (start_le_width hcolumn)).mp hctb
  have hwidth : 0 < grid.width :=
    Nat.zero_lt_of_lt (Nat.lt_of_lt_of_le hin (start_le_width hcolumn))
  have hheight : ctb / grid.width < grid.height :=
    Nat.lt_of_lt_of_le hout (TileAxis.start_le_extent hrow)
  rw [size, Nat.mul_comm]
  exact (Nat.div_lt_iff_lt_mul hwidth).mp hheight

theorem cornered_ctbsAt (hcolumn : column < grid.columns.count) :
    Cornered grid.width (grid.tables.ctbsAt column row) :=
  cornered_ctbsInRect (start_le_width hcolumn)

/-- The blocks of a rectangle of tiles lie between its first and its last tile. -/
theorem inside_of_mem_ctbsOfTileRect (hcolumns : column + columns ≤ grid.columns.count)
    (hrows : row + rows ≤ grid.rows.count)
    (hctb : ctb ∈ grid.tables.ctbsOfTileRect column columns row rows) :
    (grid.columns.tables.start column ≤ ctb % grid.width ∧
        ctb % grid.width < grid.columns.tables.start (column + columns)) ∧
      grid.rows.tables.start row ≤ ctb / grid.width ∧
        ctb / grid.width < grid.rows.tables.start (row + rows) := by
  obtain ⟨y, hy, hctb⟩ := List.mem_flatMap.mp hctb
  obtain ⟨x, hx, hctb⟩ := List.mem_flatMap.mp hctb
  rw [List.mem_range'_1] at hx hy
  obtain ⟨hin, hout⟩ := (mem_ctbsInRect (start_le_width (by omega))).mp hctb
  have hleft : grid.columns.tables.start column ≤ grid.columns.tables.start x :=
    TileAxis.start_mono hx.1 (by omega)
  have hright : grid.columns.tables.start (x + 1) ≤ grid.columns.tables.start (column + columns) :=
    TileAxis.start_mono (by omega) hcolumns
  have htop : grid.rows.tables.start row ≤ grid.rows.tables.start y :=
    TileAxis.start_mono hy.1 (by omega)
  have hbottom : grid.rows.tables.start (y + 1) ≤ grid.rows.tables.start (row + rows) :=
    TileAxis.start_mono (by omega) hrows
  exact ⟨⟨hleft.trans hin.1, hin.2.trans_le hright⟩, htop.trans hout.1, hout.2.trans_le hbottom⟩

theorem cornered_ctbsOfTileRect (hproper : grid.Proper) (hsome : 0 < columns ∧ 0 < rows)
    (hcolumns : column + columns ≤ grid.columns.count) (hrows : row + rows ≤ grid.rows.count) :
    Cornered grid.width (grid.tables.ctbsOfTileRect column columns row rows) := by
  have htile : ∀ x y, x < grid.columns.count → y < grid.rows.count →
      Spans grid.width (grid.columns.tables.start x) (grid.columns.tables.start (x + 1))
        (grid.rows.tables.start y) (grid.rows.tables.start (y + 1)) (grid.tables.ctbsAt x y) := by
    intro x y hx hy
    exact spans_ctbsInRect (TileAxis.start_lt_succ hproper.columns hx)
      (TileAxis.start_lt_succ hproper.rows hy) (start_le_width hx)
  have hspans : Spans grid.width (grid.columns.tables.start column)
      (grid.columns.tables.start (column + columns)) (grid.rows.tables.start row)
      (grid.rows.tables.start (row + rows))
      (grid.tables.ctbsOfTileRect column columns row rows) := by
    constructor
    case inside => exact fun ctb hctb => inside_of_mem_ctbsOfTileRect hcolumns hrows hctb
    case head =>
      apply head?_flatMap_range' hsome.2
      apply head?_flatMap_range' hsome.1
      exact (htile column row (by omega) (by omega)).head
    case last =>
      apply getLast?_flatMap_range' hsome.2
      apply getLast?_flatMap_range' hsome.1
      have hlast := (htile (column + columns - 1) (row + rows - 1) (by omega) (by omega)).last
      rwa [show column + columns - 1 + 1 = column + columns by omega,
        show row + rows - 1 + 1 = row + rows by omega] at hlast
  exact hspans.cornered (start_le_width hcolumns)

end TileGrid

/-! ### Slices -/

namespace SliceGroup

variable {grid : TileGrid}

theorem cornered_cutTile {tile : Nat} (hcolumn : tile % grid.columns.count < grid.columns.count)
    {y : Nat} {heights : List Nat} :
    ∀ region ∈ cutTile grid.tables tile y heights, Cornered grid.width region.ctbs := by
  induction heights generalizing y with
  | nil => exact fun _ h => absurd h List.not_mem_nil
  | cons height rest ih =>
    intro region hregion
    rcases List.mem_cons.mp hregion with rfl | hregion
    · exact cornered_ctbsInRect (TileGrid.start_le_width hcolumn)
    · exact ih region hregion

theorem cornered_regions (hproper : grid.Proper) {group : SliceGroup}
    (hfits : group.fits grid.tables) :
    ∀ region ∈ group.regions grid.tables, Cornered grid.width region.ctbs := by
  simp only [fits, Bool.and_eq_true, bne_iff_ne, decide_eq_true_eq] at hfits
  obtain ⟨⟨⟨hwidth, hheight⟩, hcolumn⟩, hrow⟩ := hfits
  unfold regions
  dsimp only
  split
  · apply cornered_cutTile
    exact (Nat.lt_add_of_pos_right (Nat.pos_of_ne_zero hwidth)).trans_le hcolumn
  · intro region hregion
    rw [List.mem_singleton.mp hregion]
    exact TileGrid.cornered_ctbsOfTileRect hproper
      ⟨Nat.pos_of_ne_zero hwidth, Nat.pos_of_ne_zero hheight⟩ hcolumn hrow

end SliceGroup

/-- **The slices of a slice loop lie between their first and their last blocks.** -/
theorem SliceMap.cornered_of_ofGroups {grid : TileGrid} (hproper : grid.Proper)
    {groups : List SliceGroup} {map : SliceMap} (h : ofGroups grid groups = .ok map) :
    ∀ region ∈ map.regions, Cornered grid.width region.ctbs := by
  obtain ⟨hfits, hregions, -⟩ := fits_of_ofGroups h
  intro region hregion
  rw [hregions] at hregion
  obtain ⟨group, hgroup, hregion⟩ := List.mem_flatMap.mp hregion
  exact SliceGroup.cornered_regions hproper (hfits group hgroup) region hregion

/-! ### Slices made of subpictures -/

/-- All blocks of a slice lie in the rectangle. -/
def SubpictureRect.Holds (width : Nat) (rect : SubpictureRect) (region : SliceRegion) : Prop :=
  ∀ ctb ∈ region.ctbs, rect.contains (ctb % width) (ctb / width) = true

variable {grid : TileGrid}

theorem SubpictureRect.holds_region {index : Nat} {rect : SubpictureRect} {region : SliceRegion}
    (h : rect.region grid.tables index = .ok region) : rect.Holds grid.width region := by
  intro ctb hctb
  rw [contains]
  simp only [Bool.and_eq_true, decide_eq_true_eq, and_assoc]
  obtain ⟨⟨hx, hright⟩, ⟨hy, hbottom⟩, hctbs | ⟨⟨hleft, htop, hend, hfoot⟩, hctbs⟩⟩ :=
    region_cases h
  · rw [hctbs] at hctb
    obtain ⟨⟨hleft, hbefore⟩, htop, habove⟩ := (mem_ctbsInRect hright).mp hctb
    exact ⟨hleft, hbefore, htop, habove⟩
  · rw [hctbs] at hctb
    have hcolumn := (TileAxis.partAt_spec (show rect.right - 1 < grid.columns.extent by omega)).1
    have hrow := (TileAxis.partAt_spec (show rect.bottom - 1 < grid.rows.extent by omega)).1
    have hcolumns := (TileAxis.parts_of_span hx hright).2
    have hrows := (TileAxis.parts_of_span hy hbottom).2
    obtain ⟨⟨hfrom, hbefore⟩, hunder, habove⟩ :=
      TileGrid.inside_of_mem_ctbsOfTileRect (by omega) (by omega) hctb
    rw [Nat.add_sub_cancel' (by omega), hend] at hbefore
    rw [Nat.add_sub_cancel' (by omega), hfoot] at habove
    rw [hleft] at hfrom
    rw [htop] at hunder
    exact ⟨hfrom, hbefore, hunder, habove⟩

theorem SliceMap.holds_of_ofSubpicturesFrom {rects : List SubpictureRect} {index : Nat}
    {regions : List SliceRegion} (h : ofSubpicturesFrom grid.tables index rects = .ok regions) :
    List.Forall₂ (SubpictureRect.Holds grid.width) rects regions := by
  induction rects generalizing index regions with
  | nil =>
    cases h
    exact .nil
  | cons rect rest ih =>
    obtain ⟨region, hregion, h⟩ := except_bind_eq_ok.mp h
    obtain ⟨others, hothers, h⟩ := except_bind_eq_ok.mp h
    cases h
    exact .cons (rect.holds_region hregion) (ih hothers)

/-- **A subpicture that is made a slice holds all blocks of it.** -/
theorem SliceMap.holds_of_ofSubpictures {rects : List SubpictureRect} {map : SliceMap}
    (h : ofSubpictures grid rects = .ok map) :
    List.Forall₂ (SubpictureRect.Holds grid.width) rects map.regions := by
  obtain ⟨regions, hregions, h⟩ := except_bind_eq_ok.mp h
  obtain ⟨_, -, h⟩ := except_bind_eq_ok.mp h
  cases h
  exact holds_of_ofSubpicturesFrom hregions

end CodedVideo
