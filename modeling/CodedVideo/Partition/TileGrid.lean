import CodedVideo.Partition.Sizes
import CodedVideo.Report

/-!
# The tile grid of a picture

A picture is a rectangle of coding tree blocks (CTBs), numbered row by row.
Tile columns cut its width and tile rows its height.  A `TileAxis` is one of
the two cuts; a `TileGrid` is both.

The tiles are numbered row by row as well.  A `TileTables` answers what is asked
for many CTBs or tiles: `tileOfCtb` tells which tile a CTB lies in, and
`ctbsOfTile` lists the CTBs of a tile.  `entryPoints` counts the places within a
slice at which a new substream starts: wherever the next CTB lies in another tile
and, with `sync`, wherever it lies in another row.
-/

namespace CodedVideo

open Report (field)

/-- A cut of a length into consecutive parts. -/
structure TileAxis where
  /-- The lengths of the parts, in order. -/
  sizes : List Nat := []
  deriving DecidableEq, Repr, Inhabited

namespace TileAxis

/-- The positions in `before`, the last of which comes first there, and then those at
which parts start when the first starts at `start`, followed by the end of the last. -/
def boundsOnto : (before : List Nat) → (start : Nat) → (sizes : List Nat) → List Nat
  | before, start, [] => (start :: before).reverse
  | before, start, size :: rest => boundsOnto (start :: before) (start + size) rest

/-- The positions at which the parts start, followed by the end. -/
def bounds (axis : TileAxis) : List Nat := boundsOnto [] 0 axis.sizes

/-- The number of parts. -/
def count (axis : TileAxis) : Nat := axis.sizes.length

/-- The whole length. -/
def extent (axis : TileAxis) : Nat := covered axis.sizes

/-- The part of every position, in order. -/
def parts (axis : TileAxis) : List Nat :=
  axis.sizes.zipIdx.flatMap fun (size, i) => List.replicate size i

/-- The start of the part of every position, in order. -/
def starts (axis : TileAxis) : List Nat :=
  (axis.sizes.zip axis.bounds).flatMap fun (size, start) => List.replicate size start

end TileAxis

/-- A cut of a length laid out for look-up. -/
structure AxisTables where
  /-- The number of parts. -/
  count : Nat
  /-- The whole length. -/
  extent : Nat
  /-- The positions at which the parts start, followed by the end. -/
  bounds : Array Nat
  /-- The part of every position.  The end counts as a part of its own. -/
  parts : Array Nat
  /-- The start of the part of every position, the end included. -/
  starts : Array Nat

namespace AxisTables

/-- Where part `i` starts; part `count` starts at the end. -/
def start (t : AxisTables) (i : Nat) : Nat := t.bounds.getD i 0

/-- The part that a position lies in. -/
def partAt (t : AxisTables) (position : Nat) : Nat := t.parts.getD position 0

/-- Where the part that a position lies in starts. -/
def startAt (t : AxisTables) (position : Nat) : Nat := t.starts.getD position 0

end AxisTables

/-- The tables of a cut. -/
def TileAxis.tables (axis : TileAxis) : AxisTables where
  count := axis.count
  extent := axis.extent
  bounds := axis.bounds.toArray
  parts := (axis.parts ++ [axis.count]).toArray
  starts := (axis.starts ++ [axis.extent]).toArray

/-- The CTBs in columns `x0` to `x1` and rows `y0` to `y1`, both ends exclusive,
of a picture `width` CTBs wide. -/
def ctbsInRect (width x0 x1 y0 y1 : Nat) : List Nat :=
  (List.range' y0 (y1 - y0)).flatMap fun y =>
    (List.range' x0 (x1 - x0)).map fun x => y * width + x

/-- A picture cut into tile columns and tile rows. -/
structure TileGrid where
  columns : TileAxis := {}
  rows : TileAxis := {}
  deriving DecidableEq, Repr, Inhabited

namespace TileGrid

/-- A picture made of one tile. -/
def single (width height : Nat) : TileGrid := ⟨⟨[width]⟩, ⟨[height]⟩⟩

/-- A picture cut as explicit column widths and row heights say. -/
def ofExplicit (width height : Nat) (columnWidths rowHeights : List Nat) :
    Except PartitionError TileGrid := do
  let columns ← explicitSizes width columnWidths
  let rows ← explicitSizes height rowHeights
  return ⟨⟨columns⟩, ⟨rows⟩⟩

variable (g : TileGrid)

/-- The width of the picture in CTBs. -/
def width : Nat := g.columns.extent

/-- The height of the picture in CTBs. -/
def height : Nat := g.rows.extent

/-- The number of CTBs of the picture. -/
def size : Nat := g.width * g.height

/-- The number of tiles. -/
def tiles : Nat := g.columns.count * g.rows.count

end TileGrid

/-- A picture cut into tile columns and tile rows, laid out for look-up. -/
structure TileTables where
  columns : AxisTables
  rows : AxisTables

/-- The tables of a tile grid. -/
def TileGrid.tables (g : TileGrid) : TileTables := ⟨g.columns.tables, g.rows.tables⟩

namespace TileTables

variable (t : TileTables)

/-- The width of the picture in CTBs. -/
def width : Nat := t.columns.extent

/-- The tile that a CTB lies in. -/
def tileOfCtb (ctb : Nat) : Nat :=
  t.rows.partAt (ctb / t.width) * t.columns.count + t.columns.partAt (ctb % t.width)

/-- The CTBs of the tile in a given column and row. -/
def ctbsAt (column row : Nat) : List Nat :=
  ctbsInRect t.width (t.columns.start column) (t.columns.start (column + 1))
    (t.rows.start row) (t.rows.start (row + 1))

/-- The CTBs of a tile, row by row. -/
def ctbsOfTile (tile : Nat) : List Nat :=
  t.ctbsAt (tile % t.columns.count) (tile / t.columns.count)

/-- The CTBs of the tiles in some columns and rows, tile by tile. -/
def ctbsOfTileRect (column columns row rows : Nat) : List Nat :=
  (List.range' row rows).flatMap fun y =>
    (List.range' column columns).flatMap fun x => t.ctbsAt x y

/-- Whether a substream starts at a CTB that comes after another one in a slice. -/
def startsStream (sync : Bool) (previous next : Nat) : Bool :=
  let y₀ := previous / t.width
  let y := next / t.width
  t.rows.startAt y != t.rows.startAt y₀
    || t.columns.startAt (next % t.width) != t.columns.startAt (previous % t.width)
    || (y != y₀ && sync)

end TileTables

namespace TileGrid

variable (g : TileGrid)

/-- The CTBs of `count` tiles in a row, from tile `first` on. -/
def ctbsOfTiles (first count : Nat) : Except PartitionError (List Nat) :=
  if count = 0 ∨ first + count > g.tiles then
    .error (.tileIndexOutOfRange (first + count) g.tiles)
  else
    let tables := g.tables
    .ok ((List.range' first count).flatMap fun tile => tables.ctbsOfTile tile)

/-- How many substreams start within a list of CTBs, after its first one. -/
def entryPoints (sync : Bool) (ctbs : List Nat) : Nat :=
  let tables := g.tables
  (ctbs.zip ctbs.tail).countP fun (previous, next) => tables.startsStream sync previous next

instance : Reportable TileGrid where
  report g := .group [
    field "pic_width_in_ctbs" g.width,
    field "pic_height_in_ctbs" g.height,
    field "col_width" g.columns.sizes,
    field "row_height" g.rows.sizes,
    field "col_bd" g.columns.bounds,
    field "row_bd" g.rows.bounds,
    field "ctb_to_tile_col_bd" g.columns.tables.starts,
    field "ctb_to_tile_col_idx" g.columns.tables.parts,
    field "ctb_to_tile_row_bd" g.rows.tables.starts,
    field "ctb_to_tile_row_idx" g.rows.tables.parts]

end TileGrid

end CodedVideo
