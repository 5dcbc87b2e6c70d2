import CodedVideo.Proofs.HeaderArithmetic
import CodedVideo.Proofs.SliceContainment

/-!
# The arithmetic of slice headers

A slice header names a subpicture by its id and a slice by its place in that subpicture, so
the tables of the picture parameter set are looked up with indices that are read, and those
of the tile grid with the CTBs that are found there.  What it shares with picture headers,
lists, weights and the QP, is computed as there.

Here are its readers with watched operations.  They agree with the plain ones if the picture
parameter set has been accepted (`SliceHeader.readChecked_agrees`), whatever picture header
the slice is read against: that one may have been read with another set of the same id.
-/

namespace CodedVideo

open Parse CheckedParse

variable {pps : Pps}

/-! ### Tiles -/

namespace TileTables

/-- The CTBs of a tile, its bounds being looked up. -/
def ctbsOfTileChecked (t : TileTables) (tile : Nat) : CheckedParse (List Nat) := do
  let column := tile % t.columns.count
  let row := tile / t.columns.count
  let x0 ← entry t.columns.bounds.toList column
  let x1 ← entry t.columns.bounds.toList (column + 1)
  let y0 ← entry t.rows.bounds.toList row
  let y1 ← entry t.rows.bounds.toList (row + 1)
  return ctbsInRect t.width x0 x1 y0 y1

/-- The CTBs of all tiles of a list. -/
def ctbsOfAllChecked (t : TileTables) : List Nat → CheckedParse (List Nat)
  | [] => pure []
  | tile :: rest => do
    let ctbs ← t.ctbsOfTileChecked tile
    return ctbs ++ (← t.ctbsOfAllChecked rest)

/-- Whether a substream starts at a CTB, its tile and that of the one before being looked up. -/
def startsStreamChecked (t : TileTables) (sync : Bool) (previous next : Nat) :
    CheckedParse Bool := do
  let y₀ := previous / t.width
  let y := next / t.width
  let row ← entry t.rows.starts.toList y
  let row₀ ← entry t.rows.starts.toList y₀
  let column ← entry t.columns.starts.toList (next % t.width)
  let column₀ ← entry t.columns.starts.toList (previous % t.width)
  return row != row₀ || column != column₀ || (y != y₀ && sync)

/-- How many substreams start within a list of CTBs. -/
def entryPointsChecked (t : TileTables) (sync : Bool) : List Nat → CheckedParse Nat
  | previous :: next :: rest => do
    let starts ← t.startsStreamChecked sync previous next
    return (← t.entryPointsChecked sync (next :: rest)) + starts.toNat
  | _ => pure 0

end TileTables

namespace TileAxis

variable {axis : TileAxis}

theorem size_bounds (axis : TileAxis) : axis.tables.bounds.size = axis.count + 1 := by
  simp [tables, bounds, boundsOnto_eq, count]

theorem size_starts (axis : TileAxis) : axis.tables.starts.size = axis.extent + 1 := by
  have hbounds : axis.sizes.length ≤ axis.bounds.length := by
    rw [bounds, boundsOnto_eq]
    simp
  have hstarts : axis.starts.length = axis.extent := by
    simp only [starts, List.length_flatMap, List.length_replicate]
    exact congrArg List.sum (List.map_fst_zip hbounds)
  simp [tables, hstarts]

theorem entry_bounds {i : Nat} (hi : i ≤ axis.count) :
    entry axis.tables.bounds.toList i = pure (axis.tables.start i) :=
  entry_table_of_lt (axis.size_bounds ▸ Nat.lt_succ_of_le hi) 0

theorem entry_starts {position : Nat} (h : position < axis.extent) :
    entry axis.tables.starts.toList position = pure (axis.tables.startAt position) :=
  entry_table_of_lt (axis.size_starts ▸ Nat.lt_succ_of_lt h) 0

end TileAxis

namespace TileGrid

variable {grid : TileGrid}

theorem ctbsOfTileChecked_of_lt {tile : Nat} (h : tile < grid.tiles) :
    grid.tables.ctbsOfTileChecked tile = pure (grid.tables.ctbsOfTile tile) := by
  have hcolumn : tile % grid.columns.count < grid.columns.count := Nat.mod_lt _ (columns_pos h)
  have hrow : tile / grid.columns.count < grid.rows.count := Nat.div_lt_of_lt_mul h
  refine bind_within (TileAxis.entry_bounds (Nat.le_of_lt hcolumn)) ?_
  refine bind_within (TileAxis.entry_bounds hcolumn) ?_
  refine bind_within (TileAxis.entry_bounds (Nat.le_of_lt hrow)) ?_
  exact bind_within (TileAxis.entry_bounds hrow) rfl

theorem ctbsOfAllChecked_of_lt : ∀ {list : List Nat}, (∀ tile ∈ list, tile < grid.tiles) →
    grid.tables.ctbsOfAllChecked list = pure (list.flatMap grid.tables.ctbsOfTile)
  | [], _ => rfl
  | tile :: rest, h => by
    refine bind_within (ctbsOfTileChecked_of_lt (h tile List.mem_cons_self)) ?_
    exact bind_within (ctbsOfAllChecked_of_lt fun t ht => h t (List.mem_cons_of_mem tile ht)) rfl

/-- The CTBs of `count` tiles in a row, the tiles being looked up. -/
def ctbsOfTilesChecked (g : TileGrid) (first count : Nat) : CheckedParse (List Nat) := do
  Parse.refuseIf (count = 0 ∨ first + count > g.tiles)
    (.partition (.tileIndexOutOfRange (first + count) g.tiles))
  g.tables.ctbsOfAllChecked (List.range' first count)

theorem ctbsOfTilesChecked_agrees (g : TileGrid) (first count : Nat) :
    (g.ctbsOfTilesChecked first count).Agrees
      (Parse.ofFault ((g.ctbsOfTiles first count).mapError .partition)) := by
  unfold ctbsOfTilesChecked ctbsOfTiles
  split
  · rename_i hrefused
    rw [decide_eq_true hrefused]
    exact fun _ => rfl
  · rename_i haccepted
    have hall : ∀ tile ∈ List.range' first count, tile < g.tiles := by
      intro tile htile
      rw [List.mem_range'_1] at htile
      omega
    rw [decide_eq_false haccepted, ctbsOfAllChecked_of_lt hall]
    exact .within rfl (agrees_pure _)

/-- A CTB of the picture lies in one of its columns and rows. -/
theorem column_and_row_lt {ctb : Nat} (h : ctb < grid.size) :
    ctb % grid.width < grid.width ∧ ctb / grid.width < grid.height :=
  ⟨Nat.mod_lt _ (Nat.pos_of_mul_pos_right (Nat.zero_lt_of_lt h)), Nat.div_lt_of_lt_mul h⟩

theorem startsStreamChecked_of_lt (sync : Bool) {previous next : Nat}
    (hprevious : previous < grid.size) (hnext : next < grid.size) :
    grid.tables.startsStreamChecked sync previous next =
      pure (grid.tables.startsStream sync previous next) := by
  obtain ⟨hcolumn₀, hrow₀⟩ := column_and_row_lt hprevious
  obtain ⟨hcolumn, hrow⟩ := column_and_row_lt hnext
  refine bind_within (TileAxis.entry_starts hrow) (bind_within (TileAxis.entry_starts hrow₀) ?_)
  refine bind_within (TileAxis.entry_starts hcolumn) ?_
  exact bind_within (TileAxis.entry_starts hcolumn₀) rfl

theorem entryPoints_cons_cons (grid : TileGrid) (sync : Bool) (previous next : Nat)
    (rest : List Nat) :
    grid.entryPoints sync (previous :: next :: rest) =
      grid.entryPoints sync (next :: rest) +
        (grid.tables.startsStream sync previous next).toNat := by
  simp only [entryPoints, List.tail_cons, List.zip_cons_cons, List.countP_cons]
  cases grid.tables.startsStream sync previous next <;> rfl

theorem entryPointsChecked_of_lt (sync : Bool) : ∀ {ctbs : List Nat},
    (∀ ctb ∈ ctbs, ctb < grid.size) →
      grid.tables.entryPointsChecked sync ctbs = pure (grid.entryPoints sync ctbs)
  | [], _ => rfl
  | [_], _ => rfl
  | previous :: next :: rest, h => by
    have hrest : ∀ ctb ∈ next :: rest, ctb < grid.size :=
      fun ctb hctb => h ctb (List.mem_cons_of_mem previous hctb)
    refine bind_within (startsStreamChecked_of_lt sync (h previous List.mem_cons_self)
      (hrest next List.mem_cons_self)) (bind_within (entryPointsChecked_of_lt sync hrest) ?_)
    exact congrArg pure (entryPoints_cons_cons grid sync previous next rest).symm

end TileGrid

/-! ### Where a slice lies -/

namespace SlicePlace

/-- The number of addresses that a slice of a subpicture can have, the subpicture being looked
up. -/
def addressesChecked (p : PicturePartition) (subpicture : Nat) : CheckedParse Nat :=
  if p.rectangular then do return (← entry p.assignment.slicesOf subpicture).length
  else pure p.grid.tiles

/-- Reads where a slice lies with watched numbers of slices and tiles. -/
def readChecked (pps : Pps) : CheckedParse SlicePlace := do
  let sps := pps.sps
  let partition := pps.partition
  let named := sps.subpictures.infoPresent
  let subpictureId ←
    CheckedParse.given named (Parse.u (sps.subpictures.idLengthMinus1 + 1))
  let subpicture ←
    if named then
      (Parse.ofFault
        ((pps.subpictureIds.findIdx? (· == subpictureId)).elim
          (.error (.unknownSubpictureId subpictureId)) .ok) : Parse Nat)
    else pure 0
  let count ← addressesChecked partition subpicture
  let address ← CheckedParse.given (count > 1) do
    let largest ← sub count 1
    Parse.uMax (ceilLog2 count) largest
  Parse.skip (HeaderCoding.presentCount sps.headers.extraSliceBits)
  let left ← CheckedParse.given (!partition.rectangular) do
    sub (← sub partition.grid.tiles 1) address
  let tilesMinus1 ←
    CheckedParse.given (!partition.rectangular && left > 0) (Parse.ueMax left)
  return { subpictureId, subpicture, address, tilesMinus1 }

/-- The coding tree blocks of a slice, its region being looked up. -/
def ctbsChecked (place : SlicePlace) (p : PicturePartition) : CheckedParse (List Nat) := do
  if p.rectangular then
    let slices ← entry p.assignment.slicesOf place.subpicture
    let slice ← entry slices place.address
    return (← entry p.slices.regions slice).ctbs
  else p.grid.ctbsOfTilesChecked place.address (place.tilesMinus1 + 1)

theorem addressesChecked_of_lt (h : pps.Sound) {subpicture : Nat}
    (hlt : subpicture < pps.areas.length) :
    addressesChecked pps.partition subpicture = pure (addresses pps.partition subpicture) := by
  unfold addressesChecked addresses
  split
  · rename_i hrectangular
    rw [← length_slicesOf h hrectangular] at hlt
    rw [entry_of_eq_some (List.getElem?_eq_getElem hlt), List.getElem?_eq_getElem hlt]
    rfl
  · rfl

/-- In raster order an address is that of a tile. -/
theorem leftChecked_of_le {p : PicturePartition} {address : Nat}
    (h : p.rectangular = false → address < p.grid.tiles) :
    (CheckedParse.given (!p.rectangular) do sub (← sub p.grid.tiles 1) address) =
      pure (if p.rectangular then 0 else p.grid.tiles - 1 - address) := by
  cases hrectangular : p.rectangular with
  | true => rfl
  | false =>
    have hlt := h hrectangular
    show (sub p.grid.tiles 1 >>= fun last => sub last address) = pure (p.grid.tiles - 1 - address)
    rw [sub_of_le (by omega)]
    exact sub_of_le (by omega)

/-- Every subpicture is in the table. -/
theorem readChecked_agrees (h : pps.Sound) : (readChecked pps).Agrees (read pps) := by
  unfold readChecked read
  extract_lets sps partition named
  refine Agrees.andThen (.given fun _ => agrees_lift _) fun subpictureId => ?_
  extract_lets withSubpicture withSubpicture'
  have hwithSubpicture : ∀ subpicture < pps.areas.length,
      (withSubpicture subpicture).Agrees (withSubpicture' subpicture) := by
    intro subpicture hlt
    refine .within (addressesChecked_of_lt h hlt) ?_
    refine Agrees.bind (.given fun hseveral => .within (sub_of_le ?_) (agrees_lift _))
      fun address haddress => ?_
    · exact Nat.le_of_lt (of_decide_eq_true hseveral)
    have htile : partition.rectangular = false → address < partition.grid.tiles := by
      intro hraster
      have hpos : 1 < partition.grid.tiles := h.partition.raster hraster
      have hcount : addresses partition subpicture = partition.grid.tiles := by
        rw [addresses, if_neg (by rw [hraster]; decide)]
      have hensures : (Parse.given (addresses partition subpicture > 1)
          (uMax (ceilLog2 (addresses partition subpicture))
            (addresses partition subpicture - 1))).Ensures (· < partition.grid.tiles) := by
        rw [ensures_given, ensures_uMax]
        exact ⟨fun _ value _ hle => by omega, fun _ => Nat.zero_lt_of_lt hpos⟩
      exact hensures address haddress
    refine (agrees_lift _).andThen fun _ => .within (leftChecked_of_le htile) ?_
    cases hrectangular : partition.rectangular with
    | true => exact agrees_pure _
    | false => exact Agrees.andThen (.given fun _ => agrees_lift _) fun tilesMinus1 => agrees_pure _
  split
  · rename_i hnamed
    refine Agrees.bind (agrees_lift _) fun subpicture hsubpicture => hwithSubpicture subpicture ?_
    have hfound := ensures_ofFault.mpr (fun value hvalue => hvalue) subpicture hsubpicture
    exact (findIdx?_subpictureIds h hnamed (option_elim_eq_ok.mp hfound)).2
  · rename_i hunnamed
    refine hwithSubpicture 0 ?_
    rw [Pps.areas, if_neg hunnamed]
    exact Nat.one_pos

/-- The region of a slice that exists is found. -/
theorem ctbsChecked_agrees (h : pps.Sound) {place : SlicePlace} (hplace : place.Valid pps) :
    (place.ctbsChecked pps.partition).Agrees (Parse.ofFault (place.ctbs pps.partition)) := by
  unfold ctbsChecked ctbs
  split
  · rename_i hrectangular
    obtain ⟨slice, hslice⟩ := hplace.rectangular hrectangular
    have hregion := SliceAssignment.slice?_lt (h.slicesOf_perm hrectangular) hslice
    obtain ⟨slices, hslices, haddress⟩ := SliceAssignment.slice?_eq_some.mp hslice
    refine .within (entry_of_eq_some hslices) (.within (entry_of_eq_some haddress) ?_)
    refine .within (entry_of_eq_some (List.getElem?_eq_getElem hregion)) ?_
    rw [hslices, Option.bind_some, haddress]
    dsimp only
    rw [List.getD_eq_getElem?_getD, List.getElem?_eq_getElem hregion]
    exact agrees_pure _
  · exact TileGrid.ctbsOfTilesChecked_agrees _ _ _

end SlicePlace

/-! ### How a slice refers to other pictures -/

namespace Collocated

/-- Reads which picture motion is predicted from with a watched bound for its index. -/
def readChecked (type : SliceType) (counts : Nat × Nat) : CheckedParse Collocated := do
  let first ← if type = .b then Parse.flag else pure true
  let active := if first then counts.1 else counts.2
  let index ← CheckedParse.given (active > 1) do Parse.ueMax (← sub active 1)
  return { first, index }

theorem readChecked_agrees (type : SliceType) (counts : Nat × Nat) :
    (readChecked type counts).Agrees (read type counts) := by
  have hgiven : ∀ active : Nat,
      (CheckedParse.given (active > 1) do
        let largest ← sub active 1
        liftM (ueMax largest)).Agrees (Parse.given (active - 1 > 0) (ueMax (active - 1))) := by
    intro active
    rw [show decide (active > 1) = decide (active - 1 > 0) from
      decide_eq_decide.mpr Nat.sub_pos_iff_lt.symm]
    refine .given fun hpos => .within (sub_of_le ?_) (agrees_lift _)
    exact Nat.le_of_lt (Nat.sub_pos_iff_lt.mp (of_decide_eq_true hpos))
  refine .choice (fun _ => agrees_lift _) (fun _ => agrees_pure true) fun first => ?_
  exact (hgiven _).andThen fun index => agrees_pure _

end Collocated

namespace SliceMotion

/-- Reads which picture motion is predicted from. -/
def readCollocatedChecked (type : SliceType) (pps : Pps) (picture : PictureHeader)
    (counts : Nat × Nat) : CheckedParse (Collocated × Collocated) := do
  if !picture.motion.temporal then return ({}, { first := true })
  let own ←
    if pps.inPictureHeader.lists then pure {} else Collocated.readChecked type counts
  let applied :=
    if pps.inPictureHeader.lists then Collocated.ofPicture type picture.motion else own
  applied.check counts
  return (own, applied)

/-- Reads how a slice that predicts from other pictures refers to them. -/
def readChecked (type : SliceType) (pps : Pps) (picture : PictureHeader) (lists : RefLists)
    (counts : Nat × Nat) : CheckedParse SliceMotion := do
  let cabacInit ← Parse.flagIf pps.cabacInit
  let (ownCollocated, collocated) ← readCollocatedChecked type pps picture counts
  let weighted := hasWeights type pps
  let ownWeights ←
    if weighted then
      some <$> do
        WeightTable.readChecked (← PictureHeader.weightRulesChecked pps lists false counts)
    else pure none
  let weights := inherit pps.inPictureHeader.weights picture.motion.weights weighted ownWeights
  return { cabacInit, ownCollocated, collocated, ownWeights, weights }

theorem readCollocatedChecked_agrees (type : SliceType) (pps : Pps) (picture : PictureHeader)
    (counts : Nat × Nat) :
    (readCollocatedChecked type pps picture counts).Agrees
      (readCollocated type pps picture counts) := by
  refine .ite (fun _ => agrees_pure _) fun _ => ?_
  refine .choice (fun _ => agrees_pure _) (fun _ => Collocated.readChecked_agrees _ _) ?_
  exact fun own => (agrees_lift _).andThen fun _ => agrees_pure _

theorem readChecked_agrees (hsps : pps.sps.Limited) (type : SliceType) (picture : PictureHeader)
    (lists : RefLists) (counts : Nat × Nat) :
    (readChecked type pps picture lists counts).Agrees (read type pps picture lists counts) := by
  refine (agrees_lift _).andThen fun cabacInit => ?_
  refine (readCollocatedChecked_agrees _ _ _ _).andThen fun (own, collocated) => ?_
  exact .choice (fun _ => (PictureHeader.weightsChecked_agrees hsps _ _ _).map some)
    (fun _ => agrees_pure none) fun ownWeights => agrees_pure _

end SliceMotion

/-! ### QPs and substreams -/

namespace SliceQp

/-- Reads the QPs of a slice, the difference to the initial one with watched bounds. -/
def readChecked (pps : Pps) (picture : PictureHeader) : CheckedParse SliceQp := do
  let inPicture := pps.inPictureHeader.qp
  let delta ← CheckedParse.given (!inPicture) (PictureHeader.readQpDeltaChecked pps)
  let offsets ←
    CheckedParse.given pps.qp.sliceOffsets (ChromaOffsets.read pps.sps.chromaQp.joint)
  match excess? pps.qp.offsets offsets with
  | some sum => (Parse.invalid (.chromaQpOffset sum) : Parse SliceQp)
  | none => do
    let blockOffsets ← Parse.flagIf pps.qp.blockOffsets.isSome
    return {
      delta, offsets, blockOffsets
      luma := pps.qp.init + if inPicture then picture.qpDelta else delta }

theorem readChecked_agrees (hsps : pps.sps.Limited) (hinit : pps.StartsInRange)
    (picture : PictureHeader) : (readChecked pps picture).Agrees (read pps picture) := by
  refine (Agrees.given fun _ => PictureHeader.readQpDeltaChecked_agrees hsps hinit).andThen ?_
  refine fun delta => (Agrees.given fun _ => agrees_lift _).andThen fun offsets => ?_
  cases excess? pps.qp.offsets offsets with
  | some sum => exact agrees_lift _
  | none => exact (agrees_lift _).andThen fun blockOffsets => agrees_pure _

end SliceQp

namespace SliceStreams

/-- Reads the sizes of substreams, the tiles of their CTBs being looked up. -/
def readChecked (pps : Pps) (ctbs : List Nat) : CheckedParse SliceStreams := do
  let headers := pps.sps.headers
  let count ←
    CheckedParse.given headers.entryPointOffsets
      (pps.partition.grid.tables.entryPointsChecked headers.entropySync ctbs)
  if count = 0 then return {}
  let lengthMinus1 ← Parse.ueMax 31
  let offsets ← Parse.collect count fun _ => Parse.u (lengthMinus1 + 1)
  return { count, lengthMinus1, offsets }

theorem readChecked_agrees {ctbs : List Nat} (h : ∀ ctb ∈ ctbs, ctb < pps.partition.grid.size) :
    (readChecked pps ctbs).Agrees (read pps ctbs) := by
  have hcount : CheckedParse.given pps.sps.headers.entryPointOffsets
      (pps.partition.grid.tables.entryPointsChecked pps.sps.headers.entropySync ctbs) =
        pure (if pps.sps.headers.entryPointOffsets then
          pps.partition.grid.entryPoints pps.sps.headers.entropySync ctbs else 0) := by
    unfold CheckedParse.given
    split
    · exact TileGrid.entryPointsChecked_of_lt _ h
    · rfl
  refine .within hcount (.ite (fun _ => agrees_pure _) fun _ => ?_)
  exact (agrees_lift _).andThen fun _ => (agrees_lift _).andThen fun _ => agrees_pure _

end SliceStreams

/-! ### Slice headers -/

namespace SliceHeader

/-- Reads the reference lists of a slice. -/
def readListsChecked (c : Context) : CheckedParse RefLists :=
  let sps := c.pps.sps
  CheckedParse.given (hasLists c) do
    RefLists.readChecked sps.listRules sps.references.candidates0 sps.references.candidates1
      c.pps.references.choice1Coded (← c.references)

/-- Reads the elements before those that tell what of the picture header is used. -/
def readStartChecked (c : Context) : CheckedParse Start := do
  let sps := c.pps.sps
  let place ← SlicePlace.readChecked c.pps
  let type ← readType c
  let noOutputOfPrior ← Parse.flagIf (c.kind.isIdr || c.kind == .cra || c.kind == .gdr)
  let alf ←
    CheckedParse.given (hasAlf c) (AlfChoice.readChecked sps.hasChroma sps.filters.ccAlf)
  return { place, type, noOutputOfPrior, alf }

/-- Reads the elements after those that tell what of the picture header is used. -/
def readRestChecked (c : Context) (start : Start) (mapped scaled : Bool) :
    CheckedParse SliceHeader := do
  let pps := c.pps
  let sps := pps.sps
  let inPicture := pps.inPictureHeader
  let lists ← readListsChecked c
  let appliedLists := inherit inPicture.lists c.picture.lists (hasLists c) lists
  let active ←
    ActiveEntries.read start.type (appliedLists.list0.size, appliedLists.list1.size)
      pps.references.defaultActiveMinus1
  let motion ←
    CheckedParse.given (start.type != .i)
      (SliceMotion.readChecked start.type pps c.picture appliedLists active.counts)
  let qp ← SliceQp.readChecked pps c.picture
  let saoLuma ← Parse.flagIf (hasSao c)
  let saoChroma ← Parse.flagIf (hasSao c && sps.hasChroma)
  let deblockingCoded ←
    Parse.flagIf (pps.deblocking.overridable && !pps.deblocking.inPictureHeader)
  let deblocking ←
    if deblockingCoded then
      Deblocking.readOverride pps.deblocking.settings.disabled pps.qp.chromaOffsets
        c.picture.deblocking.offsets
    else pure c.picture.deblocking
  let residuals ← SliceResiduals.read sps
  let extensionLength ← CheckedParse.given pps.sliceHeaderExtension (Parse.ueMax 256)
  Parse.skip (8 * extensionLength)
  let ctbs ← start.place.ctbsChecked pps.partition
  let streams ← SliceStreams.readChecked pps ctbs
  return {
    place := start.place, type := start.type, noOutputOfPrior := start.noOutputOfPrior
    mapped, scaled, active, motion, qp, deblockingCoded, residuals, extensionLength, streams, ctbs
    own := { alf := start.alf, lists, saoLuma, saoChroma, deblocking }
    applied := {
      alf := inherit inPicture.alf c.picture.alf (hasAlf c) start.alf
      lists := appliedLists
      saoLuma := inherit inPicture.sao c.picture.saoLuma (hasSao c) saoLuma
      saoChroma := inherit inPicture.sao c.picture.saoChroma (hasSao c) saoChroma
      deblocking :=
        inherit pps.deblocking.inPictureHeader c.picture.deblocking deblockingCoded deblocking }
    picture := c.picture, pps }

/-- Reads a slice header with watched arithmetic. -/
def readChecked (c : Context) : CheckedParse SliceHeader := do
  let start ← readStartChecked c
  let mapped ← readUse c c.picture.mapping.isSome
  let scaled ← readUse c c.picture.scalingLists.isSome
  readRestChecked c start mapped scaled

variable {c : Context}

theorem readListsChecked_agrees (hsps : c.pps.sps.Limited) :
    (readListsChecked c).Agrees (readLists c) :=
  .given fun _ => (agrees_lift _).andThen fun _ => RefLists.readChecked_agrees hsps _ _

theorem readStartChecked_agrees (h : c.pps.Sound) :
    (readStartChecked c).Agrees (readStart c) := by
  refine (SlicePlace.readChecked_agrees h).andThen fun place => ?_
  refine (agrees_lift _).andThen fun type => (agrees_lift _).andThen fun noOutputOfPrior => ?_
  exact (Agrees.given fun _ => AlfChoice.readChecked_agrees _ _).andThen fun _ => agrees_pure _

theorem readRestChecked_agrees (h : c.pps.Sound) (hsps : c.pps.sps.Limited)
    (hinit : c.pps.StartsInRange) {start : Start} (hplace : start.place.Valid c.pps)
    (mapped scaled : Bool) :
    (readRestChecked c start mapped scaled).Agrees (readRest c start mapped scaled) := by
  refine (readListsChecked_agrees hsps).andThen fun lists => ?_
  refine (agrees_lift _).andThen fun active => ?_
  refine (Agrees.given fun _ => SliceMotion.readChecked_agrees hsps _ _ _ _).andThen ?_
  refine fun motion => (SliceQp.readChecked_agrees hsps hinit _).andThen fun qp => ?_
  refine (agrees_lift _).andThen fun saoLuma => (agrees_lift _).andThen fun saoChroma => ?_
  refine (agrees_lift _).andThen fun deblockingCoded => ?_
  refine .choice (fun _ => agrees_lift _) (fun _ => agrees_pure _) fun deblocking => ?_
  refine (agrees_lift _).andThen fun residuals => ?_
  refine (Agrees.given fun _ => agrees_lift _).andThen fun extensionLength => ?_
  refine (agrees_lift _).andThen fun _ => ?_
  refine (SlicePlace.ctbsChecked_agrees h hplace).bind fun ctbs hctbs => ?_
  have hfound := ensures_ofFault.mpr (fun value hvalue => hvalue) ctbs hctbs
  exact (SliceStreams.readChecked_agrees (hplace.ctb_lt h hfound)).andThen fun _ => agrees_pure _

/-- **No operation leaves its range while a slice header is read.** -/
theorem readChecked_agrees (h : c.pps.Sound) (hsps : c.pps.sps.Limited)
    (hinit : c.pps.StartsInRange) : (readChecked c).Agrees (read c) := by
  refine (readStartChecked_agrees h).bind fun start hstart => ?_
  refine (agrees_lift _).andThen fun mapped => (agrees_lift _).andThen fun scaled => ?_
  exact readRestChecked_agrees h hsps hinit (readStart_ensures h start hstart) mapped scaled

end SliceHeader

end CodedVideo
