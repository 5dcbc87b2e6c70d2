import CodedVideo.Proofs.SubpictureSlices
import Mathlib.Data.Prod.Lex

/-!
# How many entry points a slice has

The entry points of a slice are the places at which a new substream starts, and they are counted
by comparing neighbouring CTBs (`TileGrid.entryPoints`).  A substream holds the CTBs of one tile
and, if the entropy coder is synchronised at each row, of one row in it
(`TileTables.substream`).  Since no tile is empty, tiles are told apart by where they start, so a
CTB starts a substream exactly if it is in another one than the CTB before (`startsStream_iff`).

Whichever way a slice has been made, its CTBs come tile by tile and row by row in each tile
(`TileGrid.Slice.inOrder`).  So no substream is left and taken up again, and there is one entry
point for each but the first (`TileGrid.entryPoints_add_one`).
-/

namespace CodedVideo

/-- In an ascending list each value but the first comes in where neighbours differ. -/
theorem countP_ne_add_one {α : Type} [LinearOrder α] :
    ∀ {l : List α}, l.Pairwise (· ≤ ·) → l ≠ [] →
      (l.zip l.tail).countP (fun p => p.1 ≠ p.2) + 1 = l.toFinset.card
  | [a], _, _ => by simp
  | a :: b :: rest, h, _ => by
    obtain ⟨hfirst, hrest⟩ := List.pairwise_cons.mp h
    have ih := countP_ne_add_one hrest (List.cons_ne_nil b rest)
    rw [List.tail_cons, List.zip_cons_cons, List.countP_cons, List.toFinset_cons]
    by_cases hsame : a = b
    · have hmem : a ∈ (b :: rest).toFinset := by simp [hsame]
      rw [Finset.insert_eq_of_mem hmem, ← ih, if_neg (by simpa using hsame)]
      rfl
    · -- All that comes later is larger than `a`.
      have hnew : a ∉ (b :: rest).toFinset := by
        rw [List.mem_toFinset, List.mem_cons, not_or]
        refine ⟨hsame, fun hmem => hsame (le_antisymm (hfirst b List.mem_cons_self) ?_)⟩
        exact (List.pairwise_cons.mp hrest).1 a hmem
      rw [Finset.card_insert_of_notMem hnew, ← ih, if_pos (by simpa using hsame)]
      rfl

/-! ### Where the part of a position starts -/

namespace TileAxis

variable {axis : TileAxis}

theorem getElem?_parts {position : Nat} (h : position < axis.extent) :
    axis.parts[position]? = some (axis.tables.partAt position) := by
  obtain ⟨i, -, hat, -⟩ := parts_spec axis.sizes 0 position h
  rw [Nat.zero_add] at hat
  change axis.parts[position]? = some i at hat
  obtain ⟨hlength, -⟩ := List.getElem?_eq_some_iff.mp hat
  rw [hat, AxisTables.partAt, tables, Array.getD_eq_getD_getElem?, List.getElem?_toArray,
    List.getElem?_append_left hlength, hat, Option.getD_some]

theorem starts_eq (axis : TileAxis) : axis.starts = axis.parts.map axis.tables.start := by
  have hzip : axis.sizes.zip axis.bounds =
      axis.sizes.zipIdx.map fun p => (p.1, axis.tables.start p.2) := by
    refine List.ext_getElem (by simp [bounds, boundsOnto_eq]) fun i hi _ => ?_
    have hsize : i < axis.sizes.length := (List.length_zip ▸ hi).trans_le (Nat.min_le_left _ _)
    have hstart : axis.bounds[i]? = some (axis.tables.start i) := by
      rw [tables_start hsize.le, bounds, boundsOnto_eq]
      simp [Nat.lt_succ_of_lt hsize]
    obtain ⟨_, hbound⟩ := List.getElem?_eq_some_iff.mp hstart
    simp [hbound]
  rw [starts, hzip, parts, List.flatMap_map, List.map_flatMap]
  simp

/-- The table of starts tells where the part of a position starts. -/
theorem startAt_eq {position : Nat} (h : position < axis.extent) :
    axis.tables.startAt position = axis.tables.start (axis.tables.partAt position) := by
  have hpart := getElem?_parts h
  have hstart : axis.starts[position]? =
      some (axis.tables.start (axis.tables.partAt position)) := by
    rw [starts_eq, List.getElem?_map, hpart, Option.map_some]
  obtain ⟨hlength, -⟩ := List.getElem?_eq_some_iff.mp hstart
  rw [AxisTables.startAt]
  show (axis.starts ++ [axis.extent]).toArray.getD position 0 = _
  rw [Array.getD_eq_getD_getElem?, List.getElem?_toArray, List.getElem?_append_left hlength,
    hstart, Option.getD_some]

theorem start_lt_start (hproper : 0 ∉ axis.sizes) {i j : Nat} (hij : i < j) (hj : j < axis.count) :
    axis.tables.start i < axis.tables.start j :=
  (start_lt_succ hproper (hij.trans hj)).trans_le (start_mono hij hj.le)

/-- Positions lie in the same part exactly if their parts start at the same place. -/
theorem startAt_eq_iff (hproper : 0 ∉ axis.sizes) {p q : Nat} (hp : p < axis.extent)
    (hq : q < axis.extent) :
    axis.tables.startAt p = axis.tables.startAt q ↔
      axis.tables.partAt p = axis.tables.partAt q := by
  rw [startAt_eq hp, startAt_eq hq]
  refine ⟨fun h => ?_, congrArg _⟩
  rcases Nat.lt_trichotomy (axis.tables.partAt p) (axis.tables.partAt q) with hlt | heq | hgt
  · exact absurd h (start_lt_start hproper hlt (partAt_spec hq).1).ne
  · exact heq
  · exact absurd h (start_lt_start hproper hgt (partAt_spec hp).1).ne'

end TileAxis

/-! ### Substreams -/

/-- The tile and the row of a CTB, tiles first. -/
def TileTables.substream (t : TileTables) (ctb : Nat) : Nat ×ₗ Nat :=
  toLex (t.tileOfCtb ctb, ctb / t.width)

theorem TileTables.substream_eq_iff {t : TileTables} {a b : Nat} :
    t.substream a = t.substream b ↔ t.tileOfCtb a = t.tileOfCtb b ∧ a / t.width = b / t.width :=
  toLex.injective.eq_iff.trans Prod.mk_inj

theorem TileTables.substream_le_iff {t : TileTables} {a b : Nat} :
    t.substream a ≤ t.substream b ↔ t.tileOfCtb a < t.tileOfCtb b ∨
      t.tileOfCtb a = t.tileOfCtb b ∧ a / t.width ≤ b / t.width :=
  Prod.Lex.toLex_le_toLex

/-- The CTBs come tile by tile, and row by row in each tile. -/
def TileTables.InOrder (t : TileTables) (ctbs : List Nat) : Prop :=
  ctbs.Pairwise fun a b => t.substream a ≤ t.substream b

namespace TileGrid

variable {grid : TileGrid} {ctbs : List Nat}

theorem tileOfCtb_eq_iff {a b : Nat} (ha : a < grid.size) (hb : b < grid.size) :
    grid.tables.tileOfCtb a = grid.tables.tileOfCtb b ↔
      grid.rows.tables.partAt (a / grid.width) = grid.rows.tables.partAt (b / grid.width) ∧
        grid.columns.tables.partAt (a % grid.width) =
          grid.columns.tables.partAt (b % grid.width) := by
  obtain ⟨hcolumn, hrow⟩ := column_and_row (TileAxis.partAt_spec (column_lt ha)).1
    (grid.rows.tables.partAt (a / grid.width))
  obtain ⟨hcolumn', hrow'⟩ := column_and_row (TileAxis.partAt_spec (column_lt hb)).1
    (grid.rows.tables.partAt (b / grid.width))
  constructor
  · intro h
    change _ * grid.columns.count + _ = _ * grid.columns.count + _ at h
    exact ⟨hrow.symm.trans ((congrArg (· / grid.columns.count) h).trans hrow'),
      hcolumn.symm.trans ((congrArg (· % grid.columns.count) h).trans hcolumn')⟩
  · rintro ⟨hrows, hcolumns⟩
    show _ * grid.columns.count + _ = _ * grid.columns.count + _
    exact congrArg₂ (fun row column => row * grid.columns.count + column) hrows hcolumns

/-- A CTB starts a substream if it is in another tile than the one before or, with
synchronisation, in another row. -/
theorem startsStream_iff (hproper : grid.Proper) {a b : Nat} (ha : a < grid.size)
    (hb : b < grid.size) (sync : Bool) :
    grid.tables.startsStream sync a b ↔
      grid.tables.tileOfCtb a ≠ grid.tables.tileOfCtb b ∨
        sync ∧ a / grid.width ≠ b / grid.width := by
  have hrow := TileAxis.startAt_eq_iff hproper.rows (row_lt hb) (row_lt ha)
  have hcolumn := TileAxis.startAt_eq_iff hproper.columns (column_lt hb) (column_lt ha)
  have hunfold : grid.tables.startsStream sync a b =
      (grid.rows.tables.startAt (b / grid.width) != grid.rows.tables.startAt (a / grid.width) ||
        grid.columns.tables.startAt (b % grid.width) !=
          grid.columns.tables.startAt (a % grid.width) ||
        (b / grid.width != a / grid.width && sync)) := rfl
  rw [hunfold, ne_eq, tileOfCtb_eq_iff ha hb, Bool.or_eq_true, Bool.or_eq_true, Bool.and_eq_true,
    bne_iff_ne, bne_iff_ne, bne_iff_ne, ne_eq, ne_eq, hrow, hcolumn, not_and_or, and_comm, ne_comm,
    eq_comm, @eq_comm _ (grid.columns.tables.partAt _)]

/-! ### The order of the CTBs of a slice -/

theorem pairwise_lt_ctbsInRect {width x0 x1 y0 y1 : Nat} (hx : x1 ≤ width) :
    (ctbsInRect width x0 x1 y0 y1).Pairwise (· < ·) := by
  rw [ctbsInRect, List.pairwise_flatMap]
  constructor
  · intro y _
    exact List.pairwise_map.mpr ((List.pairwise_lt_range' ..).imp fun h => Nat.add_lt_add_left h _)
  · refine (List.pairwise_lt_range' ..).imp fun {y y'} hy c hc c' hc' => ?_
    obtain ⟨x, hx0, rfl⟩ := List.mem_map.mp hc
    obtain ⟨x', -, rfl⟩ := List.mem_map.mp hc'
    rw [List.mem_range'_1] at hx0
    calc y * width + x < y * width + width := by omega
      _ = (y + 1) * width := (Nat.succ_mul _ _).symm
      _ ≤ y' * width := Nat.mul_le_mul_right _ hy
      _ ≤ y' * width + x' := Nat.le_add_right _ _

/-- A rectangle within a column of tiles goes down through its tiles. -/
theorem inOrder_ctbsInRect (column : Nat) {x0 x1 y0 y1 : Nat} (hx : x1 ≤ grid.width)
    (hcolumn : ∀ x, x0 ≤ x → x < x1 → grid.columns.tables.partAt x = column)
    (hsize : ∀ ctb ∈ ctbsInRect grid.width x0 x1 y0 y1, ctb < grid.size) :
    grid.tables.InOrder (ctbsInRect grid.width x0 x1 y0 y1) := by
  have htile : ∀ ctb ∈ ctbsInRect grid.width x0 x1 y0 y1, grid.tables.tileOfCtb ctb =
      grid.rows.tables.partAt (ctb / grid.width) * grid.columns.count + column := by
    intro ctb hctb
    obtain ⟨⟨hleft, hright⟩, -⟩ := (mem_ctbsInRect hx).mp hctb
    rw [← hcolumn _ hleft hright]
    rfl
  refine (pairwise_lt_ctbsInRect hx).imp_of_mem fun {a b} ha hb hab => ?_
  have hrow : a / grid.width ≤ b / grid.width := Nat.div_le_div_right hab.le
  have hpart := TileAxis.partAt_mono hrow (row_lt (hsize b hb))
  rw [TileTables.substream_le_iff, htile a ha, htile b hb]
  rcases hpart.lt_or_eq with hlt | heq
  · have hcount : 0 < grid.columns.count :=
      Nat.zero_lt_of_lt (TileAxis.partAt_spec (column_lt (hsize b hb))).1
    exact .inl (Nat.add_lt_add_right (Nat.mul_lt_mul_of_pos_right hlt hcount) column)
  · exact .inr ⟨by rw [heq], hrow⟩

/-- A piece of a column of tiles, which may begin and end within a tile. -/
theorem inOrder_ctbsInColumn {column y0 y1 : Nat}
    (hcolumn : column < grid.columns.count)
    (hsize : ∀ ctb ∈ ctbsInRect grid.width (grid.columns.tables.start column)
      (grid.columns.tables.start (column + 1)) y0 y1, ctb < grid.size) :
    grid.tables.InOrder (ctbsInRect grid.width (grid.columns.tables.start column)
      (grid.columns.tables.start (column + 1)) y0 y1) := by
  refine inOrder_ctbsInRect column (start_le_width hcolumn)
    (fun x hleft hright => ?_) hsize
  exact (TileAxis.partAt_eq_iff (hright.trans_le (start_le_width hcolumn)) hcolumn).mpr
    ⟨hleft, hright⟩

/-- Tiles that come in ascending order do so CTB by CTB. -/
theorem inOrder_flatMap_ctbsOfTile {tiles : List Nat} (hascending : tiles.Pairwise (· < ·))
    (htiles : ∀ tile ∈ tiles, tile < grid.tiles) :
    grid.tables.InOrder (tiles.flatMap grid.tables.ctbsOfTile) := by
  have hmem : ∀ tile ∈ tiles, ∀ ctb ∈ grid.tables.ctbsOfTile tile,
      ctb < grid.size ∧ grid.tables.tileOfCtb ctb = tile := by
    intro tile htile ctb hctb
    have hsize := lt_size_of_mem_ctbsOfTile (htiles tile htile) hctb
    exact ⟨hsize, (mem_ctbsOfTile_iff hsize (htiles tile htile)).mp hctb⟩
  refine List.pairwise_flatMap.mpr ⟨fun tile htile => ?_, ?_⟩
  · exact inOrder_ctbsInColumn (Nat.mod_lt _ (columns_pos (htiles tile htile)))
      fun ctb hctb => (hmem tile htile ctb hctb).1
  · refine hascending.imp_of_mem fun {tile tile'} htile htile' hlt a ha b hb => ?_
    rw [TileTables.substream_le_iff, (hmem tile htile a ha).2, (hmem tile' htile' b hb).2]
    exact .inl hlt

/-- The tiles of a rectangle of tiles are numbered like the CTBs of a rectangle. -/
theorem ctbsOfTileRect_eq {column columns : Nat} (hcolumns : column + columns ≤ grid.columns.count)
    (row rows : Nat) :
    grid.tables.ctbsOfTileRect column columns row rows =
      (ctbsInRect grid.columns.count column (column + columns) row (row + rows)).flatMap
        grid.tables.ctbsOfTile := by
  rw [ctbsInRect, List.flatMap_assoc, Nat.add_sub_cancel_left, Nat.add_sub_cancel_left]
  refine List.flatMap_congr fun y _ => ?_
  rw [List.flatMap_map]
  refine List.flatMap_congr fun x hx => ?_
  rw [List.mem_range'_1] at hx
  obtain ⟨hmod, hdiv⟩ := column_and_row (show x < grid.columns.count by omega) y
  show _ = grid.tables.ctbsAt ((y * grid.columns.count + x) % grid.columns.count)
    ((y * grid.columns.count + x) / grid.columns.count)
  rw [hmod, hdiv]

theorem inOrder_ctbsOfTileRect {column columns row rows : Nat}
    (hcolumns : column + columns ≤ grid.columns.count) (hrows : row + rows ≤ grid.rows.count) :
    grid.tables.InOrder (grid.tables.ctbsOfTileRect column columns row rows) := by
  rw [ctbsOfTileRect_eq hcolumns]
  refine inOrder_flatMap_ctbsOfTile (pairwise_lt_ctbsInRect hcolumns) fun tile htile => ?_
  obtain ⟨⟨-, hcolumn⟩, -, hrow⟩ := (mem_ctbsInRect hcolumns).mp htile
  rw [tiles, Nat.mul_comm]
  exact (Nat.div_lt_iff_lt_mul (Nat.zero_lt_of_lt (hcolumn.trans_le hcolumns))).mp
    (hrow.trans_le hrows)

end TileGrid

/-! ### The CTBs of slices -/

theorem SliceGroup.ctbs_cutTile {t : TileTables} {tile y : Nat} {heights : List Nat} :
    ∀ region ∈ cutTile t tile y heights, ∃ y0 y1, region.ctbs =
      ctbsInRect t.width (t.columns.start (tile % t.columns.count))
        (t.columns.start (tile % t.columns.count + 1)) y0 y1 := by
  induction heights generalizing y with
  | nil => exact fun _ h => absurd h List.not_mem_nil
  | cons height rest ih =>
    intro region hregion
    rcases List.mem_cons.mp hregion with rfl | hregion
    · exact ⟨_, _, rfl⟩
    · exact ih region hregion

/-- A subpicture that makes a slice lies in one tile or consists of tiles. -/
theorem SubpictureRect.region_ctbs {grid : TileGrid} {index : Nat} {rect : SubpictureRect}
    {region : SliceRegion} (h : rect.region grid.tables index = .ok region) :
    let column := grid.columns.tables.partAt rect.left
    let row := grid.rows.tables.partAt rect.top
    let lastColumn := grid.columns.tables.partAt (rect.right - 1)
    let lastRow := grid.rows.tables.partAt (rect.bottom - 1)
    column = lastColumn ∧ region.ctbs = rect.ctbs grid.width ∨
      region.ctbs = grid.tables.ctbsOfTileRect column (lastColumn + 1 - column) row
        (lastRow + 1 - row) := by
  unfold SubpictureRect.region at h
  dsimp only at h
  split at h
  · cases h
  · split at h
    case isTrue hwithin =>
      cases h
      exact .inl ⟨hwithin.1, rfl⟩
    case isFalse =>
      split at h
      · cases h
        exact .inr rfl
      · cases h

theorem SliceGroup.inOrder_regions {grid : TileGrid} {group : SliceGroup}
    (hfits : group.fits grid.tables) {region : SliceRegion}
    (hregion : region ∈ group.regions grid.tables) (hsize : ∀ ctb ∈ region.ctbs, ctb < grid.size) :
    grid.tables.InOrder region.ctbs := by
  simp only [fits, Bool.and_eq_true, bne_iff_ne, decide_eq_true_eq] at hfits
  obtain ⟨⟨⟨hwidth, -⟩, hcolumn⟩, hrow⟩ := hfits
  unfold regions at hregion
  dsimp only at hregion
  split at hregion
  · obtain ⟨y0, y1, hctbs⟩ := ctbs_cutTile region hregion
    rw [hctbs] at hsize ⊢
    refine TileGrid.inOrder_ctbsInColumn ?_ hsize
    exact (Nat.lt_add_of_pos_right (Nat.pos_of_ne_zero hwidth)).trans_le hcolumn
  · rw [List.mem_singleton.mp hregion]
    exact TileGrid.inOrder_ctbsOfTileRect hcolumn hrow

theorem SubpictureRect.inOrder_region {grid : TileGrid} {index : Nat} {rect : SubpictureRect}
    {region : SliceRegion} (h : rect.region grid.tables index = .ok region)
    (hsize : ∀ ctb ∈ region.ctbs, ctb < grid.size) : grid.tables.InOrder region.ctbs := by
  obtain ⟨⟨hx, hright⟩, ⟨hy, hbottom⟩, -⟩ := region_cases h
  have hlastColumn :=
    (TileAxis.partAt_spec (show rect.right - 1 < grid.columns.extent by omega)).1
  have hlastRow := (TileAxis.partAt_spec (show rect.bottom - 1 < grid.rows.extent by omega)).1
  have hcolumns := (TileAxis.parts_of_span hx hright).2
  have hrows := (TileAxis.parts_of_span hy hbottom).2
  rcases region_ctbs h with ⟨hcolumn, hctbs⟩ | hctbs
  · rw [hctbs] at hsize ⊢
    refine TileGrid.inOrder_ctbsInRect (grid.columns.tables.partAt rect.left) hright
      (fun x hleft hbefore => ?_) hsize
    have hfrom := TileAxis.partAt_mono hleft (hbefore.trans_le hright)
    have hto := TileAxis.partAt_mono (show x ≤ rect.right - 1 by omega)
      (show rect.right - 1 < grid.columns.extent by omega)
    omega
  · rw [hctbs]
    exact TileGrid.inOrder_ctbsOfTileRect (by omega) (by omega)

theorem SliceMap.exists_rect_of_mem {grid : TileGrid} {rects : List SubpictureRect} {index : Nat}
    {regions : List SliceRegion} (h : ofSubpicturesFrom grid.tables index rects = .ok regions) :
    ∀ region ∈ regions, ∃ rect i, SubpictureRect.region grid.tables i rect = .ok region := by
  induction rects generalizing index regions with
  | nil =>
    cases h
    exact fun _ h => absurd h List.not_mem_nil
  | cons rect rest ih =>
    obtain ⟨first, hfirst, h⟩ := except_bind_eq_ok.mp h
    obtain ⟨others, hothers, h⟩ := except_bind_eq_ok.mp h
    cases h
    exact List.forall_mem_cons.mpr ⟨⟨rect, index, hfirst⟩, ih hothers⟩

namespace TileGrid

variable {grid : TileGrid} {ctbs : List Nat}

/-- The lists of CTBs that slices are made of. -/
inductive Slice (grid : TileGrid) : List Nat → Prop
  /-- Consecutive tiles. -/
  | tiles {first count : Nat} {ctbs : List Nat} (h : grid.ctbsOfTiles first count = .ok ctbs) :
      Slice grid ctbs
  /-- A slice of the slice loop. -/
  | group {groups : List SliceGroup} {map : SliceMap} {region : SliceRegion}
      (h : SliceMap.ofGroups grid groups = .ok map) (hregion : region ∈ map.regions) :
      Slice grid region.ctbs
  /-- A subpicture. -/
  | subpicture {rects : List SubpictureRect} {map : SliceMap} {region : SliceRegion}
      (h : SliceMap.ofSubpictures grid rects = .ok map) (hregion : region ∈ map.regions) :
      Slice grid region.ctbs

theorem ctbsOfTiles_ok {first count : Nat} (h : grid.ctbsOfTiles first count = .ok ctbs) :
    first + count ≤ grid.tiles ∧
      ctbs = (List.range' first count).flatMap grid.tables.ctbsOfTile := by
  unfold ctbsOfTiles at h
  split at h
  · cases h
  · cases h
    exact ⟨by omega, rfl⟩

/-- A slice has CTBs of the picture only. -/
theorem Slice.lt_size (h : grid.Slice ctbs) : ∀ ctb ∈ ctbs, ctb < grid.size := by
  intro ctb hctb
  cases h with
  | tiles h =>
    obtain ⟨htiles, rfl⟩ := ctbsOfTiles_ok h
    obtain ⟨tile, htile, hctb⟩ := List.mem_flatMap.mp hctb
    rw [List.mem_range'_1] at htile
    exact lt_size_of_mem_ctbsOfTile (htile.2.trans_le htiles) hctb
  | group h hregion =>
    have hperm := SliceMap.checkCoverage_ok (SliceMap.fits_of_ofGroups h).2.2
    exact List.mem_range.mp (hperm.subset (List.mem_flatMap.mpr ⟨_, hregion, hctb⟩))
  | subpicture h hregion =>
    have hperm := (SliceMap.ofSubpictures_ok h).covers
    exact List.mem_range.mp (hperm.subset (List.mem_flatMap.mpr ⟨_, hregion, hctb⟩))

/-- **The CTBs of a slice come tile by tile, and row by row in each tile.** -/
theorem Slice.inOrder (h : grid.Slice ctbs) : grid.tables.InOrder ctbs := by
  have hsize := h.lt_size
  cases h with
  | tiles h =>
    obtain ⟨htiles, rfl⟩ := ctbsOfTiles_ok h
    refine inOrder_flatMap_ctbsOfTile (List.pairwise_lt_range' ..) fun tile htile => ?_
    rw [List.mem_range'_1] at htile
    exact htile.2.trans_le htiles
  | group h hregion =>
    obtain ⟨hfits, hregions, -⟩ := SliceMap.fits_of_ofGroups h
    rw [hregions] at hregion
    obtain ⟨group, hgroup, hregion⟩ := List.mem_flatMap.mp hregion
    exact group.inOrder_regions (hfits group hgroup) hregion hsize
  | subpicture h hregion =>
    obtain ⟨regions, hregions, h⟩ := except_bind_eq_ok.mp h
    obtain ⟨_, -, h⟩ := except_bind_eq_ok.mp h
    cases h
    obtain ⟨rect, index, hrect⟩ := SliceMap.exists_rect_of_mem hregions _ hregion
    exact SubpictureRect.inOrder_region hrect hsize

theorem Cuts.proper {width height : Nat} (h : grid.Cuts width height) (hsize : 0 < grid.size) :
    grid.Proper := by
  cases h with
  | single =>
    exact single_proper (Nat.pos_of_mul_pos_right hsize) (Nat.pos_of_mul_pos_left hsize)
  | explicit h => exact (ofExplicit_ok h).1

/-- The tiles that a slice touches. -/
def tilesOf (grid : TileGrid) (ctbs : List Nat) : Finset Nat :=
  (ctbs.map grid.tables.tileOfCtb).toFinset

/-- The rows of CTBs that a slice has in a tile. -/
def rowsIn (grid : TileGrid) (ctbs : List Nat) (tile : Nat) : Finset Nat :=
  ((ctbs.filter fun ctb => grid.tables.tileOfCtb ctb = tile).map (· / grid.width)).toFinset

/-- There are as many substreams as rows in all tiles together. -/
theorem card_substreams (ctbs : List Nat) :
    (ctbs.map grid.tables.substream).toFinset.card =
      ∑ tile ∈ grid.tilesOf ctbs, (grid.rowsIn ctbs tile).card := by
  have hmaps : ∀ key ∈ (ctbs.map grid.tables.substream).toFinset,
      (ofLex key).1 ∈ grid.tilesOf ctbs := by
    intro key hkey
    obtain ⟨ctb, hctb, rfl⟩ := List.mem_map.mp (List.mem_toFinset.mp hkey)
    exact List.mem_toFinset.mpr (List.mem_map_of_mem hctb)
  rw [Finset.card_eq_sum_card_fiberwise hmaps]
  refine Finset.sum_congr rfl fun tile _ => ?_
  -- The substreams of one tile differ in their rows.
  have hfiber : (ctbs.map grid.tables.substream).toFinset.filter (fun key => (ofLex key).1 = tile) =
      (grid.rowsIn ctbs tile).image fun row => toLex (tile, row) := by
    ext key
    simp only [rowsIn, TileTables.substream, Finset.mem_filter, Finset.mem_image, List.mem_toFinset,
      List.mem_map, List.mem_filter, decide_eq_true_eq]
    constructor
    · rintro ⟨⟨ctb, hctb, rfl⟩, rfl⟩
      exact ⟨_, ⟨ctb, ⟨hctb, rfl⟩, rfl⟩, rfl⟩
    · rintro ⟨_, ⟨ctb, ⟨hctb, rfl⟩, rfl⟩, rfl⟩
      exact ⟨⟨ctb, hctb, rfl⟩, rfl⟩
  rw [hfiber]
  exact Finset.card_image_of_injective _ fun row row' h => (Prod.mk.inj (toLex.injective h)).2

theorem entryPoints_eq {α : Type} [DecidableEq α] {f : Nat → α} {sync : Bool}
    (h : ∀ a ∈ ctbs, ∀ b ∈ ctbs, grid.tables.startsStream sync a b ↔ f a ≠ f b) :
    grid.entryPoints sync ctbs =
      ((ctbs.map f).zip (ctbs.map f).tail).countP fun p => p.1 ≠ p.2 := by
  rw [← List.map_tail, List.zip_map, List.countP_map]
  refine List.countP_congr fun ⟨a, b⟩ hab => ?_
  obtain ⟨ha, hb⟩ := List.of_mem_zip hab
  rw [Function.comp_apply, decide_eq_true_eq]
  exact h a ha b (List.mem_of_mem_tail hb)

/-- **Entry points in closed form.**  A slice has one for each tile that it touches but the first
and, if substreams are synchronised, one for each row in each of its tiles but the first. -/
theorem entryPoints_add_one {width height : Nat} (hgrid : grid.Cuts width height)
    (hslice : grid.Slice ctbs) (hne : ctbs ≠ []) :
    grid.entryPoints false ctbs + 1 = (grid.tilesOf ctbs).card ∧
      grid.entryPoints true ctbs + 1 =
        ∑ tile ∈ grid.tilesOf ctbs, (grid.rowsIn ctbs tile).card := by
  have hsize := hslice.lt_size
  have hproper : grid.Proper := by
    obtain ⟨ctb, hctb⟩ := List.exists_mem_of_ne_nil ctbs hne
    exact hgrid.proper (Nat.zero_lt_of_lt (hsize ctb hctb))
  have horder := hslice.inOrder
  constructor
  · have htiles : (ctbs.map grid.tables.tileOfCtb).Pairwise (· ≤ ·) := by
      refine List.pairwise_map.mpr (horder.imp fun {a b} hab => ?_)
      exact (TileTables.substream_le_iff.mp hab).elim Nat.le_of_lt fun h => h.1.le
    rw [entryPoints_eq (f := grid.tables.tileOfCtb) fun a ha b hb => ?_]
    · exact countP_ne_add_one htiles (by simpa using hne)
    · rw [startsStream_iff hproper (hsize a ha) (hsize b hb)]
      simp
  · rw [← card_substreams, entryPoints_eq (f := grid.tables.substream) fun a ha b hb => ?_]
    · exact countP_ne_add_one (List.pairwise_map.mpr horder) (by simpa using hne)
    · rw [startsStream_iff hproper (hsize a ha) (hsize b hb), ne_eq (grid.tables.substream a),
        TileTables.substream_eq_iff, not_and_or, eq_self, true_and]
      rfl

/-- Tile columns one CTB wide and tile rows of three and one: a slice that goes down both tiles of
the first column, and one that is cut out of a tile. -/
theorem entryPoints_add_one_narrow : ∃ grid map tall low,
    grid.Cuts 3 4 ∧
      SliceMap.ofGroups grid [⟨0, 1, 2, []⟩, ⟨1, 1, 1, [1, 2]⟩, ⟨2, 1, 1, []⟩, ⟨4, 2, 1, []⟩] =
        .ok map ∧
      tall ∈ map.regions ∧ low ∈ map.regions ∧ tall.ctbs = [0, 3, 6, 9] ∧ low.ctbs = [4, 7] ∧
      grid.entryPoints false tall.ctbs = 1 ∧ grid.entryPoints true tall.ctbs = 3 ∧
      grid.entryPoints false low.ctbs = 0 ∧ grid.entryPoints true low.ctbs = 1 := by
  have hgrid : ofExplicit 3 4 [1] [3] = .ok ⟨⟨[1, 1, 1]⟩, ⟨[3, 1]⟩⟩ := by rfl
  have hcuts : Cuts 3 4 ⟨⟨[1, 1, 1]⟩, ⟨[3, 1]⟩⟩ := .explicit hgrid
  obtain ⟨map, hmap⟩ : ∃ map, SliceMap.ofGroups ⟨⟨[1, 1, 1]⟩, ⟨[3, 1]⟩⟩
      [⟨0, 1, 2, []⟩, ⟨1, 1, 1, [1, 2]⟩, ⟨2, 1, 1, []⟩, ⟨4, 2, 1, []⟩] = .ok map := ⟨_, rfl⟩
  have htall : (⟨0, 0, [0, 3, 6, 9]⟩ : SliceRegion) ∈ map.regions := by
    cases hmap
    decide
  have hlow : (⟨1, 2, [4, 7]⟩ : SliceRegion) ∈ map.regions := by
    cases hmap
    decide
  obtain ⟨htiles, hrows⟩ := entryPoints_add_one hcuts (.group hmap htall) (List.cons_ne_nil 0 _)
  obtain ⟨htiles', hrows'⟩ := entryPoints_add_one hcuts (.group hmap hlow) (List.cons_ne_nil 4 _)
  exact ⟨_, map, _, _, hcuts, hmap, htall, hlow, rfl, rfl, Nat.succ.inj htiles, Nat.succ.inj hrows,
    Nat.succ.inj htiles', Nat.succ.inj hrows'⟩

end TileGrid

end CodedVideo
