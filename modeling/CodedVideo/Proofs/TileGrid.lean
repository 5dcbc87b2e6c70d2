import CodedVideo.Partition.TileGrid
import Mathlib.Tactic

/-!
# Tile columns, tile rows and rectangles of blocks

The tables of a `TileAxis` are what they are meant to be: part `i` starts where the
parts before it end (`tables_start`), and the part of a position is the one that it
lies in (`partAt_spec`).  A list of sizes that has been completed adds up to the whole
length and has no empty part (`explicitSizes_ok`), so the starts increase strictly.

The CTBs of a rectangle are, by `mem_ctbsInRect`, those whose column and row lie in
it.  This needs the rectangle to end within the width of the picture; one that does
not runs over into the next row.
-/

namespace CodedVideo

theorem except_bind_eq_ok {ε α β : Type} {x : Except ε α} {f : α → Except ε β} {b : β} :
    x >>= f = .ok b ↔ ∃ a, x = .ok a ∧ f a = .ok b := by
  cases x <;> simp [bind, Except.bind]

theorem except_bind_eq_error {ε α β : Type} {x : Except ε α} {f : α → Except ε β} {e : ε} :
    x >>= f = .error e ↔ x = .error e ∨ ∃ a, x = .ok a ∧ f a = .error e := by
  cases x <;> simp [bind, Except.bind]

/-! ### Completed sizes -/

theorem covered_eq_sum (sizes : List Nat) : covered sizes = sizes.sum := rfl

theorem sum_repeatSize (last remaining : Nat) :
    (repeatSize last remaining).sum = remaining := by
  have hdiv := Nat.div_add_mod remaining last
  rw [Nat.mul_comm] at hdiv
  unfold repeatSize
  dsimp only
  split <;> simp <;> omega

theorem zero_notMem_repeatSize (last remaining : Nat) : 0 ∉ repeatSize last remaining := by
  intro h
  rcases List.mem_append.mp h with h | h
  · obtain ⟨hcount, hlast⟩ := List.mem_replicate.mp h
    subst hlast
    simp at hcount
  · split at h
    · simp at h
    · exact absurd (List.mem_singleton.mp h).symm ‹_›

/-- Completed sizes add up to the whole and none of them is zero. -/
theorem explicitSizes_ok {total : Nat} {sizes parts : List Nat}
    (h : explicitSizes total sizes = .ok parts) : parts.sum = total ∧ 0 ∉ parts := by
  unfold explicitSizes at h
  split at h
  · cases h
  · rename_i hzero
    split at h
    · cases h
    · rename_i hfits
      cases h
      rw [covered_eq_sum] at hfits ⊢
      constructor
      · rw [List.sum_append, sum_repeatSize]
        omega
      · rw [List.mem_append, not_or]
        exact ⟨hzero, zero_notMem_repeatSize _ _⟩

/-- A tile that is cut at all is cut into slices that are not empty. -/
theorem slicesInTile_ok {height : Nat} {heights slices : List Nat}
    (h : slicesInTile height heights = .ok slices) : slices.length > 1 → 0 ∉ slices := by
  intro hlen
  unfold slicesInTile at h
  split at h
  · cases h
    simp at hlen
  · split at h
    · cases h
    · split at h
      · cases h
      · exact (explicitSizes_ok h).2

/-! ### Where parts start -/

namespace TileAxis

theorem boundsOnto_eq : ∀ (before : List Nat) (start : Nat) (sizes : List Nat),
    boundsOnto before start sizes = before.reverse ++
      (List.range (sizes.length + 1)).map fun i => start + (sizes.take i).sum := by
  intro before start sizes
  induction sizes generalizing before start with
  | nil => simp [boundsOnto]
  | cons size rest ih =>
    rw [boundsOnto, ih, List.length_cons, List.range_succ_eq_map (n := rest.length + 1)]
    simp [Function.comp_def, Nat.add_assoc]

variable {axis : TileAxis}

/-- Part `i` starts where the parts before it end. -/
theorem tables_start {i : Nat} (hi : i ≤ axis.count) :
    axis.tables.start i = (axis.sizes.take i).sum := by
  have hi' : i < axis.sizes.length + 1 := Nat.lt_succ_of_le hi
  simp only [AxisTables.start, tables, bounds, boundsOnto_eq, Array.getD_eq_getD_getElem?,
    List.getElem?_toArray, List.reverse_nil, List.nil_append, List.getElem?_map,
    List.getElem?_range hi', Option.map_some, Option.getD_some, Nat.zero_add]

theorem start_succ {i : Nat} (hi : i < axis.sizes.length) :
    axis.tables.start (i + 1) = axis.tables.start i + axis.sizes[i] := by
  rw [tables_start (Nat.succ_le_of_lt hi), tables_start (Nat.le_of_lt hi),
    List.take_succ_eq_append_getElem hi, List.sum_append, List.sum_singleton]

theorem start_mono {i j : Nat} (hij : i ≤ j) (hj : j ≤ axis.count) :
    axis.tables.start i ≤ axis.tables.start j := by
  induction j, hij using Nat.le_induction with
  | base => exact le_rfl
  | succ j hij ih =>
    rw [start_succ hj]
    exact Nat.le_add_right_of_le (ih (Nat.le_of_lt hj))

/-- No part is empty, so the next one starts further on. -/
theorem start_lt_succ (hproper : 0 ∉ axis.sizes) {i : Nat} (hi : i < axis.count) :
    axis.tables.start i < axis.tables.start (i + 1) := by
  have hsize : axis.sizes.get ⟨i, hi⟩ ≠ 0 := fun h => hproper (h ▸ List.get_mem _ _)
  rw [start_succ hi]
  exact Nat.lt_add_of_pos_right (Nat.pos_of_ne_zero hsize)

/-! ### The part that a position lies in -/

theorem parts_spec (sizes : List Nat) : ∀ (first position : Nat), position < sizes.sum →
    ∃ i < sizes.length,
      ((sizes.zipIdx first).flatMap fun (size, i) => List.replicate size i)[position]? =
          some (first + i) ∧
        (sizes.take i).sum ≤ position ∧ position < (sizes.take (i + 1)).sum := by
  induction sizes with
  | nil => simp
  | cons size rest ih =>
    intro first position hlt
    rw [List.zipIdx_cons, List.flatMap_cons]
    by_cases hhere : position < size
    · refine ⟨0, by simp, ?_, by simp, by simpa using hhere⟩
      rw [List.getElem?_append_left (by simpa using hhere), Nat.add_zero]
      exact List.getElem?_replicate_of_lt hhere
    · rw [List.sum_cons] at hlt
      obtain ⟨i, hi, hat, hlo, hhi⟩ := ih (first + 1) (position - size) (by omega)
      refine ⟨i + 1, by simpa using hi, ?_, ?_, ?_⟩
      · rw [List.getElem?_append_right (by simpa using hhere), List.length_replicate, hat]
        congr 1
        omega
      · rw [List.take_succ_cons, List.sum_cons]
        omega
      · rw [List.take_succ_cons, List.sum_cons]
        omega

/-- **The part of a position is the one that it lies in.** -/
theorem partAt_spec {position : Nat} (h : position < axis.extent) :
    axis.tables.partAt position < axis.count ∧
      axis.tables.start (axis.tables.partAt position) ≤ position ∧
      position < axis.tables.start (axis.tables.partAt position + 1) := by
  obtain ⟨i, hi, hat, hlo, hhi⟩ := parts_spec axis.sizes 0 position h
  have hlen : position < axis.parts.length := by
    obtain ⟨hlen, -⟩ := List.getElem?_eq_some_iff.mp hat
    exact hlen
  have hpart : axis.tables.partAt position = i := by
    rw [AxisTables.partAt, tables, Array.getD_eq_getD_getElem?, List.getElem?_toArray,
      List.getElem?_append_left hlen]
    exact (congrArg (·.getD 0) hat).trans (Nat.zero_add i)
  rw [hpart, tables_start (Nat.le_of_lt hi), tables_start (Nat.succ_le_of_lt hi)]
  exact ⟨hi, hlo, hhi⟩

/-- Positions further on lie in the same part or further on. -/
theorem partAt_mono {p q : Nat} (hpq : p ≤ q) (hq : q < axis.extent) :
    axis.tables.partAt p ≤ axis.tables.partAt q := by
  obtain ⟨hpart, hstart, -⟩ := partAt_spec (Nat.lt_of_le_of_lt hpq hq)
  obtain ⟨-, -, hend⟩ := partAt_spec hq
  by_contra hlt
  have hbetween : axis.tables.start (axis.tables.partAt q + 1) ≤
      axis.tables.start (axis.tables.partAt p) :=
    start_mono (Nat.lt_of_not_le hlt) (Nat.le_of_lt hpart)
  omega

/-- The part in which a span starts is not empty, and the one in which it ends does not
come before that. -/
theorem parts_of_span {p q : Nat} (hpq : p < q) (hq : q ≤ axis.extent) :
    axis.tables.start (axis.tables.partAt p) < axis.tables.start (axis.tables.partAt p + 1) ∧
      axis.tables.partAt p ≤ axis.tables.partAt (q - 1) := by
  obtain ⟨-, hstart, hend⟩ := partAt_spec (Nat.lt_of_lt_of_le hpq hq)
  exact ⟨Nat.lt_of_le_of_lt hstart hend, partAt_mono (by omega) (by omega)⟩

end TileAxis

/-! ### Rectangles of blocks -/

theorem ctbsInRect_ne_nil {width x0 x1 y0 y1 : Nat} (hx : x0 < x1) (hy : y0 < y1) :
    ctbsInRect width x0 x1 y0 y1 ≠ [] := by
  rw [ctbsInRect, ne_eq, List.flatMap_eq_nil_iff, not_forall]
  refine ⟨y0, fun h => ?_⟩
  have hnil := h (List.mem_range'_1.mpr ⟨le_rfl, by omega⟩)
  rw [List.map_eq_nil_iff, List.range'_eq_nil_iff] at hnil
  omega

/-- The column and the row of a block are read off its number. -/
theorem column_and_row {width x : Nat} (hx : x < width) (y : Nat) :
    (y * width + x) % width = x ∧ (y * width + x) / width = y := by
  rw [Nat.mul_comm]
  constructor
  · rw [Nat.mul_add_mod, Nat.mod_eq_of_lt hx]
  · rw [Nat.mul_add_div (Nat.zero_lt_of_lt hx), Nat.div_eq_of_lt hx, Nat.add_zero]

/-- **The blocks of a rectangle** that ends within the width of the picture are those
whose column and row lie in it. -/
theorem mem_ctbsInRect {width x0 x1 y0 y1 ctb : Nat} (hx : x1 ≤ width) :
    ctb ∈ ctbsInRect width x0 x1 y0 y1 ↔
      (x0 ≤ ctb % width ∧ ctb % width < x1) ∧ y0 ≤ ctb / width ∧ ctb / width < y1 := by
  simp only [ctbsInRect, List.mem_flatMap, List.mem_map, List.mem_range'_1]
  constructor
  · rintro ⟨y, hy, x, hx', rfl⟩
    obtain ⟨hcolumn, hrow⟩ := column_and_row (show x < width by omega) y
    rw [hcolumn, hrow]
    omega
  · rintro ⟨hcolumn, hrow⟩
    refine ⟨ctb / width, by omega, ctb % width, by omega, ?_⟩
    rw [Nat.mul_comm]
    exact Nat.div_add_mod ctb width

/-- No block is listed twice. -/
theorem nodup_ctbsInRect {width x0 x1 y0 y1 : Nat} (hx : x1 ≤ width) :
    (ctbsInRect width x0 x1 y0 y1).Nodup := by
  refine List.nodup_flatMap.mpr ⟨fun y _ => ?_, ?_⟩
  · exact (List.nodup_range' ..).map fun x x' h => Nat.add_left_cancel h
  · refine (List.nodup_range' ..).imp fun {y y'} hne c hc hc' => hne ?_
    obtain ⟨x, hx0, rfl⟩ := List.mem_map.mp hc
    obtain ⟨x', hx1, hsame⟩ := List.mem_map.mp hc'
    rw [List.mem_range'_1] at hx0 hx1
    have hrow := (column_and_row (show x < width by omega) y).2
    rw [← hsame, (column_and_row (show x' < width by omega) y').2] at hrow
    exact hrow.symm

/-! ### Grids without empty tiles -/

namespace TileGrid

/-- No tile of the grid is empty. -/
structure Proper (grid : TileGrid) : Prop where
  columns : 0 ∉ grid.columns.sizes
  rows : 0 ∉ grid.rows.sizes

theorem single_proper {width height : Nat} (hwidth : 0 < width) (hheight : 0 < height) :
    (single width height).Proper := by
  constructor <;> simp [single] <;> omega

theorem ofExplicit_ok {width height : Nat} {columnWidths rowHeights : List Nat}
    {grid : TileGrid} (h : ofExplicit width height columnWidths rowHeights = .ok grid) :
    grid.Proper ∧ grid.width = width ∧ grid.height = height := by
  obtain ⟨columns, hcolumns, h⟩ := except_bind_eq_ok.mp h
  obtain ⟨rows, hrows, h⟩ := except_bind_eq_ok.mp h
  cases h
  obtain ⟨hwidth, hproperColumns⟩ := explicitSizes_ok hcolumns
  obtain ⟨hheight, hproperRows⟩ := explicitSizes_ok hrows
  exact ⟨⟨hproperColumns, hproperRows⟩, hwidth, hheight⟩

variable {grid : TileGrid}

/-- The tiles of a rectangle of tiles have CTBs if its first one has. -/
theorem ctbsOfTileRect_ne_nil {column columns row rows : Nat}
    (hcolumns : 0 < columns) (hrows : 0 < rows)
    (hx : grid.columns.tables.start column < grid.columns.tables.start (column + 1))
    (hy : grid.rows.tables.start row < grid.rows.tables.start (row + 1)) :
    grid.tables.ctbsOfTileRect column columns row rows ≠ [] := by
  intro hnil
  have hrow := List.flatMap_eq_nil_iff.mp hnil row (List.mem_range'_1.mpr ⟨le_rfl, by omega⟩)
  have htile :=
    List.flatMap_eq_nil_iff.mp hrow column (List.mem_range'_1.mpr ⟨le_rfl, by omega⟩)
  exact ctbsInRect_ne_nil hx hy htile

end TileGrid

end CodedVideo
