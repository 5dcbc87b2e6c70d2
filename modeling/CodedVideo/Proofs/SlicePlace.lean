import CodedVideo.Proofs.SliceAssignment
import CodedVideo.Slice.Header

/-!
# Where an accepted slice lies

The bits of a slice header that say where the slice lies are checked against the picture
parameter set: the id of the subpicture has to be one of those listed, and the address
is bounded by the number of slices of that subpicture or by the number of tiles.
`SlicePlace.read_ensures` says that these checks leave only places that exist, since
every listed id has a subpicture and every subpicture has a slice, so that the CTBs can
always be found (`Valid.ctbs_eq`).

`SliceHeader.Placed.disjoint` is the converse: two headers that name different places
against the same picture parameter set share no CTB.
-/

namespace CodedVideo

open Parse

theorem option_elim_eq_ok {ε α : Type} {found : Option α} {e : ε} {value : α} :
    found.elim (Except.error e) .ok = .ok value ↔ found = some value := by
  cases found <;> simp

namespace SlicePlace

/-- The place exists in pictures that use the picture parameter set. -/
structure Valid (place : SlicePlace) (pps : Pps) : Prop where
  /-- The subpicture is the one that the id stands for. -/
  named : pps.sps.subpictures.infoPresent = true →
    pps.subpictureIds[place.subpicture]? = some place.subpictureId
  unnamed : pps.sps.subpictures.infoPresent = false →
    place.subpictureId = 0 ∧ place.subpicture = 0
  rectangular : pps.partition.rectangular = true →
    ∃ slice, pps.partition.assignment.slice? place.subpicture place.address = some slice
  raster : pps.partition.rectangular = false →
    place.address + place.tilesMinus1 < pps.partition.grid.tiles

theorem length_slicesOf {pps : Pps} (h : pps.Sound) (hrectangular : pps.partition.rectangular) :
    pps.partition.assignment.slicesOf.length = pps.areas.length := by
  rw [h.partition.assignment hrectangular]
  exact List.length_map _

/-- A subpicture has an address. -/
theorem addresses_pos {pps : Pps} (h : pps.Sound) {subpicture : Nat}
    (hsubpicture : subpicture < pps.areas.length) : 0 < addresses pps.partition subpicture := by
  unfold addresses
  split
  · rename_i hrectangular
    rw [← length_slicesOf h hrectangular] at hsubpicture
    rw [List.getElem?_eq_getElem hsubpicture, Option.map_some, Option.getD_some]
    exact List.length_pos_iff.mpr (h.partition.owned _ (List.getElem_mem hsubpicture))
  · rename_i hraster
    exact Nat.zero_lt_of_lt (h.partition.raster (Bool.eq_false_iff.mpr hraster))

/-- Every address of a subpicture is that of a slice. -/
theorem exists_slice_of_lt_addresses {pps : Pps} (h : pps.Sound)
    (hrectangular : pps.partition.rectangular = true) {subpicture address : Nat}
    (hsubpicture : subpicture < pps.areas.length)
    (haddress : address < addresses pps.partition subpicture) :
    ∃ slice, pps.partition.assignment.slice? subpicture address = some slice := by
  rw [← length_slicesOf h hrectangular] at hsubpicture
  rw [addresses, if_pos hrectangular, List.getElem?_eq_getElem hsubpicture, Option.map_some,
    Option.getD_some] at haddress
  refine ⟨(pps.partition.assignment.slicesOf[subpicture])[address], ?_⟩
  exact SliceAssignment.slice?_eq_some.mpr
    ⟨_, List.getElem?_eq_getElem hsubpicture, List.getElem?_eq_getElem haddress⟩

/-- What is known of the subpicture of a slice. -/
theorem findIdx?_subpictureIds {pps : Pps} (h : pps.Sound)
    (hnamed : pps.sps.subpictures.infoPresent = true) {id subpicture : Nat}
    (hfound : pps.subpictureIds.findIdx? (· == id) = some subpicture) :
    pps.subpictureIds[subpicture]? = some id ∧ subpicture < pps.areas.length := by
  obtain ⟨hlt, hid, _⟩ := List.findIdx?_eq_some_iff_getElem.mp hfound
  rw [beq_iff_eq] at hid
  refine ⟨List.getElem?_eq_some_iff.mpr ⟨hlt, hid⟩, ?_⟩
  rw [h.ids_length] at hlt
  rwa [Pps.areas, if_pos hnamed, SpsSubpictures.areas, List.length_map]

/-- **Every place that is accepted exists.** -/
theorem read_ensures {pps : Pps} (h : pps.Sound) : (read pps).Ensures (·.Valid pps) := by
  unfold read
  extract_lets sps partition named
  refine .bind (P := fun id => named = false → id = 0) ?_ fun subpictureId hid => ?_
  · rw [ensures_given]
    exact ⟨fun hyes => ensures_of_forall fun _ hno => absurd (hyes.symm.trans hno) (by decide),
      fun _ _ => rfl⟩
  extract_lets withSubpicture
  have hwithSubpicture : ∀ subpicture,
      (named = true → pps.subpictureIds[subpicture]? = some subpictureId) →
      (named = false → subpicture = 0) → subpicture < pps.areas.length →
      (withSubpicture subpicture).Ensures (·.Valid pps) := by
    intro subpicture hnamed hunnamed hlt
    unfold withSubpicture
    extract_lets count
    refine .bind (P := (· < count)) ?_ fun address haddress => .andThen fun _ => ?_
    · have hpos : 0 < count := addresses_pos h hlt
      rw [ensures_given, ensures_uMax]
      exact ⟨fun _ value _ hle => by omega, fun _ => hpos⟩
    extract_lets left
    refine .bind (P := (· ≤ left)) ?_ fun tilesMinus1 htiles => ensures_pure.mpr ?_
    · rw [ensures_given]
      exact ⟨fun _ => .ueMax fun _ hle => hle, fun _ => Nat.zero_le left⟩
    refine ⟨hnamed, fun hno => ⟨hid hno, hunnamed hno⟩, fun hrectangular => ?_, fun hraster => ?_⟩
    · exact exists_slice_of_lt_addresses h hrectangular hlt haddress
    · have hcount : count = pps.partition.grid.tiles := by
        simp [count, addresses, partition, hraster]
      have hleft : left = pps.partition.grid.tiles - 1 - address := rfl
      dsimp only
      omega
  split
  · rename_i hnamed
    rw [ensures_bind, ensures_ofFault]
    intro subpicture hfound
    obtain ⟨hid, hlt⟩ := findIdx?_subpictureIds h hnamed (option_elim_eq_ok.mp hfound)
    exact hwithSubpicture subpicture (fun _ => hid)
      (fun hno => absurd (hnamed.symm.trans hno) (by decide)) hlt
  · rename_i hunnamed
    refine hwithSubpicture 0 (fun hyes => absurd hyes hunnamed) (fun _ => rfl) ?_
    rw [Pps.areas, if_neg hunnamed]
    exact Nat.one_pos

/-- The CTBs of a place are those of the slice it stands for. -/
theorem ctbs_of_slice? {pps : Pps} {place : SlicePlace} {slice : Nat}
    (hrectangular : pps.partition.rectangular = true)
    (h : pps.partition.assignment.slice? place.subpicture place.address = some slice) :
    place.ctbs pps.partition = .ok (pps.partition.slices.regions.getD slice default).ctbs := by
  unfold SliceAssignment.slice? at h
  rw [ctbs, if_pos hrectangular, h]

/-- In raster order they are those of its tiles. -/
theorem Valid.ctbs_of_raster {pps : Pps} {place : SlicePlace} (h : place.Valid pps)
    (hraster : pps.partition.rectangular = false) :
    place.ctbs pps.partition = .ok ((List.range' place.address (place.tilesMinus1 + 1)).flatMap
      pps.partition.grid.tables.ctbsOfTile) := by
  have hinside := h.raster hraster
  rw [ctbs, if_neg (Bool.eq_false_iff.mp hraster), TileGrid.ctbsOfTiles, if_neg (by omega)]
  rfl

/-- A place that exists has CTBs. -/
theorem Valid.ctbs_eq {pps : Pps} {place : SlicePlace} (h : place.Valid pps) :
    ∃ ctbs, place.ctbs pps.partition = .ok ctbs := by
  cases hrectangular : pps.partition.rectangular with
  | true =>
    obtain ⟨slice, hslice⟩ := h.rectangular hrectangular
    exact ⟨_, ctbs_of_slice? hrectangular hslice⟩
  | false => exact ⟨_, h.ctbs_of_raster hrectangular⟩

end SlicePlace

/-! ### The blocks of accepted slices -/

/-- What is known of a slice header that has been accepted. -/
structure SliceHeader.Placed (slice : SliceHeader) : Prop where
  pps : slice.pps.Sound
  place : slice.place.Valid slice.pps
  ctbs : slice.place.ctbs slice.pps.partition = .ok slice.ctbs

namespace SliceHeader

theorem readStart_ensures {c : Context} (h : c.pps.Sound) :
    (readStart c).Ensures (·.place.Valid c.pps) := by
  refine (SlicePlace.read_ensures h).bind fun place hplace => ?_
  exact .andThen fun type => .andThen fun noOutputOfPrior => .andThen fun alf =>
    ensures_pure.mpr hplace

theorem readRest_ensures {c : Context} (h : c.pps.Sound) {start : Start}
    (hplace : start.place.Valid c.pps) (mapped scaled : Bool) :
    (readRest c start mapped scaled).Ensures Placed := by
  unfold readRest
  extract_lets pps sps inPicture
  refine .andThen fun lists => ?_
  extract_lets appliedLists
  refine .andThen fun active => .andThen fun motion => .andThen fun qp => ?_
  refine .andThen fun saoLuma => .andThen fun saoChroma => .andThen fun deblockingCoded => ?_
  extract_lets withDeblocking
  have hwithDeblocking : ∀ deblocking, (withDeblocking deblocking).Ensures Placed := by
    intro deblocking
    refine .andThen fun residuals => .andThen fun extensionLength => .andThen fun _ => ?_
    rw [ensures_bind, ensures_ofFault]
    intro ctbs hctbs
    exact .andThen fun streams => ensures_pure.mpr ⟨h, hplace, hctbs⟩
  split <;> exact .andThen hwithDeblocking

theorem read_ensures {c : Context} (h : c.pps.Sound) : (read c).Ensures Placed := by
  refine (readStart_ensures h).bind fun start hplace => ?_
  exact .andThen fun mapped => .andThen fun scaled => readRest_ensures h hplace mapped scaled

/-- **Slices that name different places are disjoint.** -/
theorem Placed.disjoint {slice slice' : SliceHeader} (h : slice.Placed) (h' : slice'.Placed)
    (hpps : slice'.pps = slice.pps) (hrectangular : slice.pps.partition.rectangular = true)
    (hne : (slice.place.subpictureId, slice.place.address) ≠
      (slice'.place.subpictureId, slice'.place.address)) :
    slice.ctbs.Disjoint slice'.ctbs := by
  have hplace' := h'.place
  have hctbs' := h'.ctbs
  rw [hpps] at hplace' hctbs'
  obtain ⟨k, hk⟩ := h.place.rectangular hrectangular
  obtain ⟨k', hk'⟩ := hplace'.rectangular hrectangular
  have hperm := h.pps.slicesOf_perm hrectangular
  have hkne : k ≠ k' := by
    rintro rfl
    obtain ⟨hsubpicture, haddress⟩ := SliceAssignment.slice?_injective hperm hk hk'
    refine hne (Prod.ext ?_ haddress)
    cases hnamed : slice.pps.sps.subpictures.infoPresent with
    | true =>
      have hid := h.place.named hnamed
      rw [hsubpicture, hplace'.named hnamed] at hid
      exact (Option.some.inj hid).symm
    | false => exact (h.place.unnamed hnamed).1.trans (hplace'.unnamed hnamed).1.symm
  have hctbs := h.ctbs
  rw [SlicePlace.ctbs_of_slice? hrectangular hk, Except.ok.injEq] at hctbs
  rw [SlicePlace.ctbs_of_slice? hrectangular hk', Except.ok.injEq] at hctbs'
  rw [← hctbs, ← hctbs']
  exact (h.pps.partition.partitions hrectangular).disjoint (SliceAssignment.slice?_lt hperm hk)
    (SliceAssignment.slice?_lt hperm hk') hkne

end SliceHeader

end CodedVideo
