import CodedVideo.Proofs.SubpictureTiling
import CodedVideo.Proofs.TilePartition

/-!
# Subpictures as rectangles and as slices

There are two ways from the subpictures of a picture to its CTBs.  The map of subpictures goes
through each rectangle row by row (`subpictureMap`).  Where every subpicture is one slice, it is
put together from the tiles that it consists of, unless it lies in a single one
(`SliceMap.ofSubpictures`).

A subpicture that makes a slice has the same CTBs either way (`SubpictureRect.region_perm`), and
one that lies in the picture makes a slice unless it cuts through tiles
(`SubpictureRect.region_of_fits`).  Both ways refuse subpictures that do not share all CTBs among
themselves.  So they differ only in that the second one wants subpictures to follow the tiles:
`SliceMap.ofSubpictures_agrees` states this for every grid that a picture can be cut into.
-/

namespace CodedVideo

theorem forall₂_flatMap_perm {α β γ : Type} {f : α → List γ} {g : β → List γ} {l : List α}
    {l' : List β} (h : List.Forall₂ (fun a b => (f a).Perm (g b)) l l') :
    (l.flatMap f).Perm (l'.flatMap g) := by
  induction h with
  | nil => exact .refl _
  | cons hperm _ ih =>
    rw [List.flatMap_cons, List.flatMap_cons]
    exact hperm.append ih

theorem forall₂_getElem? {α β : Type} {R : α → β → Prop} {l : List α} {l' : List β}
    (h : List.Forall₂ R l l') {i : Nat} {b : β} (hb : l'[i]? = some b) :
    ∃ a, l[i]? = some a ∧ R a b := by
  obtain ⟨hi, rfl⟩ := List.getElem?_eq_some_iff.mp hb
  have hi' : i < l.length := h.length_eq ▸ hi
  exact ⟨_, List.getElem?_eq_getElem hi', h.get hi' hi⟩

/-! ### Maps that cover a picture -/

theorem exists_coverCtbs : ∀ {list : List Nat} {cells : Array Bool}, list.Nodup →
    (∀ c ∈ list, cells[c]? = some false) → ∃ cells', coverCtbs cells list = .ok cells' := by
  intro list
  induction list with
  | nil => exact fun {cells} _ _ => ⟨cells, rfl⟩
  | cons c rest ih =>
    intro cells hnodup hfree
    obtain ⟨hnot, hrest⟩ := List.nodup_cons.mp hnodup
    rw [coverCtbs, if_pos (hfree c List.mem_cons_self)]
    refine ih hrest fun d hd => ?_
    have hne : c ≠ d := fun h => hnot (h ▸ hd)
    rw [Array.getElem?_setIfInBounds_ne hne]
    exact hfree d (List.mem_cons_of_mem c hd)

/-- A map with every CTB in exactly one slice passes the check. -/
theorem SliceMap.checkCoverage_of_perm {map : SliceMap} {size : Nat}
    (h : (map.regions.flatMap (·.ctbs)).Perm (List.range size)) :
    map.checkCoverage size = .ok () := by
  have hfree : ∀ c ∈ map.regions.flatMap (·.ctbs),
      (Array.replicate size false)[c]? = some false := fun c hc =>
    Array.getElem?_replicate.trans (if_pos (List.mem_range.mp (h.mem_iff.mp hc)))
  obtain ⟨cells, hcells⟩ := exists_coverCtbs (h.nodup_iff.mpr List.nodup_range) hfree
  have hfull := (coverCtbs_fills hcells).count_eq_zero fun c hc =>
    h.mem_iff.mpr (List.mem_range.mpr hc)
  refine except_bind_eq_ok.mpr ⟨cells, hcells, ?_⟩
  simp only [hfull]
  rfl

/-! ### The slice of a subpicture -/

namespace SubpictureRect

variable {grid : TileGrid} {index : Nat} {rect : SubpictureRect} {region : SliceRegion}

theorem fits_of_region (h : rect.region grid.tables index = .ok region) :
    rect.fits grid.width grid.height := by
  unfold SubpictureRect.region at h
  dsimp only at h
  split at h
  · cases h
  · exact not_not.mp ‹_›

/-- **The slice has the CTBs of the rectangle.** -/
theorem region_perm (h : rect.region grid.tables index = .ok region) :
    region.ctbs.Perm (rect.ctbs grid.width) := by
  obtain ⟨⟨hx, hright⟩, ⟨hy, hbottom⟩, hctbs | ⟨⟨hleft, htop, hend, hfoot⟩, hctbs⟩⟩ :=
    region_cases h
  · rw [hctbs]
  · have hcolumn := (TileAxis.partAt_spec (show rect.right - 1 < grid.columns.extent by omega)).1
    have hrow := (TileAxis.partAt_spec (show rect.bottom - 1 < grid.rows.extent by omega)).1
    have hcolumns := (TileAxis.parts_of_span hx hright).2
    have hrows := (TileAxis.parts_of_span hy hbottom).2
    rw [hctbs]
    refine (TileGrid.ctbsOfTileRect_perm (by omega) (by omega)).trans (.of_eq ?_)
    rw [Nat.add_sub_cancel' (by omega), Nat.add_sub_cancel' (by omega), hleft, htop, hend, hfoot]
    rfl

/-- A subpicture within the picture makes a slice unless it cuts through tiles. -/
theorem region_of_fits (index : Nat) (h : rect.fits grid.width grid.height) :
    (∃ region, rect.region grid.tables index = .ok region) ∨
      rect.region grid.tables index = .error (.subpictureNotAligned index) := by
  have hfits : rect.fits grid.tables.columns.extent grid.tables.rows.extent = true := h
  unfold SubpictureRect.region
  dsimp only
  rw [if_neg (not_not.mpr hfits)]
  split
  · exact .inl ⟨_, rfl⟩
  · split
    · exact .inl ⟨_, rfl⟩
    · exact .inr rfl

end SubpictureRect

/-! ### The slices of all subpictures -/

namespace SliceMap

variable {grid : TileGrid} {rects : List SubpictureRect} {regions : List SliceRegion}
  {index : Nat}

theorem regions_of_ofSubpicturesFrom
    (h : ofSubpicturesFrom grid.tables index rects = .ok regions) :
    (∀ rect ∈ rects, rect.fits grid.width grid.height) ∧
      List.Forall₂ (fun rect region => (rect.ctbs grid.width).Perm region.ctbs) rects regions := by
  induction rects generalizing index regions with
  | nil =>
    cases h
    exact ⟨fun _ h => absurd h List.not_mem_nil, .nil⟩
  | cons rect rest ih =>
    obtain ⟨region, hregion, h⟩ := except_bind_eq_ok.mp h
    obtain ⟨others, hothers, h⟩ := except_bind_eq_ok.mp h
    cases h
    obtain ⟨hfits, hperms⟩ := ih hothers
    exact ⟨List.forall_mem_cons.mpr ⟨SubpictureRect.fits_of_region hregion, hfits⟩,
      .cons (SubpictureRect.region_perm hregion).symm hperms⟩

theorem ofSubpicturesFrom_of_fits (index : Nat)
    (h : ∀ rect ∈ rects, rect.fits grid.width grid.height) :
    (∃ regions, ofSubpicturesFrom grid.tables index rects = .ok regions) ∨
      ∃ i, ofSubpicturesFrom grid.tables index rects = .error (.subpictureNotAligned i) := by
  induction rects generalizing index with
  | nil => exact .inl ⟨[], rfl⟩
  | cons rect rest ih =>
    obtain ⟨hfits, hrest⟩ := List.forall_mem_cons.mp h
    rcases SubpictureRect.region_of_fits index hfits with ⟨region, hregion⟩ | hregion
    · rcases ih (index + 1) hrest with ⟨others, hothers⟩ | ⟨i, hothers⟩
      · exact .inl ⟨region :: others,
          except_bind_eq_ok.mpr ⟨region, hregion, except_bind_eq_ok.mpr ⟨others, hothers, rfl⟩⟩⟩
      · exact .inr ⟨i, except_bind_eq_error.mpr
          (.inr ⟨region, hregion, except_bind_eq_error.mpr (.inl hothers)⟩)⟩
    · exact .inr ⟨index, except_bind_eq_error.mpr (.inl hregion)⟩

/-- Subpictures that each make a slice have a map, and it names the slice that a CTB lies in. -/
theorem exists_subpictureMap_of_ofSubpictures (hcount : rects.length ≤ unclaimed)
    {map : SliceMap} (h : ofSubpictures grid rects = .ok map) :
    ∃ owners, subpictureMap grid.width grid.height rects = .ok owners ∧
      ∀ ctb i : Nat, owners[ctb]? = some i ↔
        ∃ region, map.regions[i]? = some region ∧ ctb ∈ region.ctbs := by
  obtain ⟨regions, hregions, h⟩ := except_bind_eq_ok.mp h
  obtain ⟨_, hcheck, h⟩ := except_bind_eq_ok.mp h
  cases h
  obtain ⟨hfits, hperms⟩ := regions_of_ofSubpicturesFrom hregions
  obtain ⟨owners, howners⟩ := exists_subpictureMap hcount hfits
    ((forall₂_flatMap_perm hperms).trans (checkCoverage_ok hcheck))
  refine ⟨owners, howners, fun ctb i => ?_⟩
  rw [subpictureMap_eq_some hcount howners]
  constructor
  · rintro ⟨rect, hrect, hctb⟩
    obtain ⟨region, hregion, hperm⟩ := forall₂_getElem? hperms.flip hrect
    exact ⟨region, hregion, hperm.mem_iff.mp hctb⟩
  · rintro ⟨region, hregion, hctb⟩
    obtain ⟨rect, hrect, hperm⟩ := forall₂_getElem? hperms hregion
    exact ⟨rect, hrect, hperm.mem_iff.mpr hctb⟩

/-- Subpictures with a map each make a slice, unless one of them cuts through tiles. -/
theorem ofSubpictures_of_subpictureMap {owners : Array Nat} (hcount : rects.length ≤ unclaimed)
    (h : subpictureMap grid.width grid.height rects = .ok owners) :
    (∃ map, ofSubpictures grid rects = .ok map) ∨
      ∃ i, ofSubpictures grid rects = .error (.subpictureNotAligned i) := by
  obtain ⟨hfits, hperm⟩ := subpictureMap_ok hcount h
  rcases ofSubpicturesFrom_of_fits 0 hfits with ⟨regions, hregions⟩ | ⟨i, hregions⟩
  · have hperms := (regions_of_ofSubpicturesFrom hregions).2
    have hcheck : (SliceMap.mk regions).checkCoverage grid.size = .ok () :=
      checkCoverage_of_perm ((forall₂_flatMap_perm hperms).symm.trans hperm)
    exact .inl ⟨⟨regions⟩,
      except_bind_eq_ok.mpr ⟨regions, hregions, except_bind_eq_ok.mpr ⟨(), hcheck, rfl⟩⟩⟩
  · exact .inr ⟨i, except_bind_eq_error.mpr (.inl hregions)⟩

end SliceMap

/-! ### Grids for a picture -/

namespace TileGrid

/-- The grids that a picture of a given size can be cut into. -/
inductive Cuts (width height : Nat) : TileGrid → Prop
  | single : Cuts width height (single width height)
  | explicit {columnWidths rowHeights : List Nat} {grid : TileGrid}
      (h : ofExplicit width height columnWidths rowHeights = .ok grid) : Cuts width height grid

theorem Cuts.size_eq {width height : Nat} {grid : TileGrid} (h : grid.Cuts width height) :
    grid.width = width ∧ grid.height = height := by
  cases h with
  | single => exact ⟨rfl, rfl⟩
  | explicit h => exact (ofExplicit_ok h).2

end TileGrid

/-- **Both ways from subpictures to CTBs agree.**  Subpictures that each make a slice have a map,
which names for every CTB the slice that it lies in.  Subpictures with a map each make a slice
unless one of them cuts through tiles. -/
theorem SliceMap.ofSubpictures_agrees {width height : Nat} {grid : TileGrid}
    (hgrid : grid.Cuts width height) {rects : List SubpictureRect} (hcount : rects.length ≤ 65535) :
    (∀ map : SliceMap, ofSubpictures grid rects = .ok map →
      ∃ owners, subpictureMap width height rects = .ok owners ∧
        ∀ ctb i : Nat, owners[ctb]? = some i ↔
          ∃ region, map.regions[i]? = some region ∧ ctb ∈ region.ctbs) ∧
    ∀ owners, subpictureMap width height rects = .ok owners →
      (∃ map, ofSubpictures grid rects = .ok map) ∨
        ∃ i, ofSubpictures grid rects = .error (.subpictureNotAligned i) := by
  obtain ⟨rfl, rfl⟩ := hgrid.size_eq
  exact ⟨fun _ => exists_subpictureMap_of_ofSubpictures hcount,
    fun _ => ofSubpictures_of_subpictureMap hcount⟩

/-- Two of four tiles make a subpicture, one is one, and one is divided into two. -/
def mixedAreas : List SubpictureRect :=
  [⟨0, 0, 2, 1⟩, ⟨0, 1, 2, 1⟩, ⟨0, 2, 2, 2⟩, ⟨2, 0, 2, 4⟩]

theorem SliceMap.ofSubpictures_agrees_mixed : ∃ grid map owners,
    grid.Cuts 4 4 ∧ mixedAreas.length ≤ 65535 ∧ ofSubpictures grid mixedAreas = .ok map ∧
      map.regions.map (·.ctbs) =
        [[0, 1], [4, 5], [8, 9, 12, 13], [2, 3, 6, 7, 10, 11, 14, 15]] ∧
      subpictureMap 4 4 mixedAreas = .ok owners ∧ owners[7]? = some 3 := by
  have hgrid : TileGrid.ofExplicit 4 4 [2] [2] = .ok ⟨⟨[2, 2]⟩, ⟨[2, 2]⟩⟩ := by rfl
  have hcuts : TileGrid.Cuts 4 4 ⟨⟨[2, 2]⟩, ⟨[2, 2]⟩⟩ := .explicit hgrid
  have hcount : mixedAreas.length ≤ 65535 := by decide
  obtain ⟨hagrees, -⟩ := ofSubpictures_agrees hcuts hcount
  obtain ⟨owners, howners, hnames⟩ := hagrees _ rfl
  exact ⟨_, _, owners, hcuts, hcount, rfl, rfl, howners, (hnames 7 3).mpr ⟨_, rfl, by decide⟩⟩

end CodedVideo
