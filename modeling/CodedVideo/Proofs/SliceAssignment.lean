import CodedVideo.Proofs.ParameterSets
import Mathlib.Data.Set.Function

/-!
# Slices and their subpictures

A slice belongs to the subpicture in which it starts.  Subpictures that tile a picture
(`Tiles`) hold the start of each slice once, so the lists of slices of all subpictures
together name each slice once: this is `slicesOf_perm`.  Hence a subpicture and a place
in its list identify a slice (`slice?_injective`, `exists_slice?`), and the slices that
are found in this way have every CTB of the picture in exactly one of them
(`ctbs_perm`).

The subpictures of a picture parameter set do tile its pictures (`Pps.Sound.tiles`).
Where they are those of the sequence they tile its largest picture, and a smaller
picture is the corner of it.
-/

namespace CodedVideo

/-- If each list has a number at most once, as many lists have it as the predicate says. -/
theorem count_flatMap_eq_countP {α : Type} {f : α → List Nat} {p : α → Bool} {k : Nat} :
    ∀ {l : List α}, (∀ a ∈ l, (f a).Nodup ∧ (k ∈ f a ↔ p a = true)) →
      (l.flatMap f).count k = l.countP p := by
  intro l
  induction l with
  | nil => simp
  | cons a rest ih =>
    intro h
    obtain ⟨hnodup, hmem⟩ := h a List.mem_cons_self
    have hrest := ih fun b hb => h b (List.mem_cons_of_mem a hb)
    rw [List.flatMap_cons, List.count_append, hrest, hnodup.count, List.countP_cons,
      Nat.add_comm]
    simp only [hmem]

/-- Of lists without common members, those at different places have none. -/
theorem disjoint_of_ne {lists : List (List Nat)} (h : lists.Pairwise List.Disjoint) {i j : Nat}
    {a b : List Nat} (hi : lists[i]? = some a) (hj : lists[j]? = some b) (hne : i ≠ j) :
    a.Disjoint b := by
  obtain ⟨hi', rfl⟩ := List.getElem?_eq_some_iff.mp hi
  obtain ⟨hj', rfl⟩ := List.getElem?_eq_some_iff.mp hj
  have hpairwise := List.pairwise_iff_getElem.mp h
  rcases Nat.lt_or_gt_of_ne hne with hlt | hgt
  · exact hpairwise i j hi' hj' hlt
  · exact (hpairwise j i hj' hi' hgt).symm

/-! ### Subpictures that tile a picture -/

/-- Every block of a picture of `width` by `height` lies in exactly one area. -/
def Tiles (areas : List SubpictureRect) (width height : Nat) : Prop :=
  ∀ x < width, ∀ y < height, areas.countP (·.contains x y) = 1

/-- A picture is tiled as its upper left corner of any size is. -/
theorem Tiles.corner {areas : List SubpictureRect} {width height width' height' : Nat}
    (h : Tiles areas width height) (hwidth : width' ≤ width) (hheight : height' ≤ height) :
    Tiles areas width' height' :=
  fun x hx y hy => h x (Nat.lt_of_lt_of_le hx hwidth) y (Nat.lt_of_lt_of_le hy hheight)

theorem tiles_whole (width height : Nat) :
    Tiles [{ left := 0, top := 0, width, height }] width height := by
  intro x hx y hy
  simp [SubpictureRect.contains, SubpictureRect.right, SubpictureRect.bottom, hx, hy]

theorem SubpictureRect.mem_ctbs {rect : SubpictureRect} {width height ctb : Nat}
    (hfits : rect.fits width height) :
    ctb ∈ rect.ctbs width ↔ rect.contains (ctb % width) (ctb / width) = true := by
  simp only [fits, Bool.and_eq_true, decide_eq_true_eq] at hfits
  rw [ctbs, mem_ctbsInRect hfits.1.2]
  simp only [contains, Bool.and_eq_true, decide_eq_true_eq, and_assoc]

theorem tiles_of_subpictureMap {width height : Nat} {areas : List SubpictureRect}
    {owners : Array Nat} (hcount : areas.length ≤ unclaimed)
    (h : subpictureMap width height areas = .ok owners) : Tiles areas width height := by
  intro x hx y hy
  obtain ⟨hfits, hperm⟩ := subpictureMap_ok hcount h
  have hctb : y * width + x < width * height := by
    calc y * width + x < y * width + width := Nat.add_lt_add_left hx _
      _ = (y + 1) * width := (Nat.succ_mul y width).symm
      _ ≤ height * width := Nat.mul_le_mul_right width hy
      _ = width * height := Nat.mul_comm height width
  obtain ⟨hcolumn, hrow⟩ := column_and_row hx y
  have hnodup : (areas.flatMap (·.ctbs width)).Nodup := hperm.nodup_iff.mpr List.nodup_range
  rw [← count_flatMap_eq_countP (f := (·.ctbs width)) (k := y * width + x)]
  · rw [hperm.count_eq]
    exact List.count_eq_one_of_mem List.nodup_range (List.mem_range.mpr hctb)
  · intro rect hrect
    refine ⟨(List.nodup_flatMap.mp hnodup).1 rect hrect, ?_⟩
    rw [SubpictureRect.mem_ctbs (hfits rect hrect), hcolumn, hrow]

/-- **The subpictures of an accepted picture parameter set tile its pictures.** -/
theorem Pps.Sound.tiles {pps : Pps} (h : pps.Sound) :
    Tiles pps.areas pps.widthInCtbs pps.heightInCtbs := by
  unfold areas
  split
  · have hlength : pps.sps.subpictures.areas.length ≤ unclaimed := by
      rw [SpsSubpictures.areas, List.length_map]
      exact h.sps.count_le
    exact (tiles_of_subpictureMap hlength h.sps.owned).corner h.widthInCtbs_le h.heightInCtbs_le
  · exact tiles_whole _ _

/-! ### The slices of all subpictures -/

namespace SliceAssignment

variable {width : Nat} {slices : SliceMap}

theorem slicesIn_eq_filter (width : Nat) (slices : SliceMap) (rect : SubpictureRect) :
    slicesIn width slices rect = (List.range slices.regions.length).filter fun k =>
      startsIn width rect (slices.regions.getD k default) := by
  have hzip : (List.range slices.regions.length).zip slices.regions =
      (List.range slices.regions.length).map fun k => (k, slices.regions.getD k default) := by
    refine List.ext_getElem (by simp) fun k hk hk' => ?_
    have hlt : k < slices.regions.length := by simpa using hk'
    simp [hlt]
  rw [slicesIn, hzip, List.filterMap_map, ← List.filterMap_eq_filter]
  rfl

theorem mem_slicesIn {rect : SubpictureRect} {k : Nat} :
    k ∈ slicesIn width slices rect ↔ k < slices.regions.length ∧
      startsIn width rect (slices.regions.getD k default) = true := by
  rw [slicesIn_eq_filter, List.mem_filter, List.mem_range]

theorem nodup_slicesIn (width : Nat) (slices : SliceMap) (rect : SubpictureRect) :
    (slicesIn width slices rect).Nodup := by
  rw [slicesIn_eq_filter]
  exact List.nodup_range.filter _

/-- A slice that is not empty starts in exactly one of the subpictures that tile the
picture. -/
theorem countP_startsIn {areas : List SubpictureRect} {height count : Nat}
    (htiles : Tiles areas width height) (hslices : slices.Partitions count (width * height))
    {region : SliceRegion} (hregion : region ∈ slices.regions) :
    areas.countP (startsIn width · region) = 1 := by
  unfold startsIn
  cases hctbs : region.ctbs with
  | nil => exact absurd hctbs (hslices.nonempty region hregion)
  | cons first rest =>
    have hmem : first ∈ slices.regions.flatMap (·.ctbs) :=
      List.mem_flatMap.mpr ⟨region, hregion, hctbs ▸ List.mem_cons_self⟩
    have hlt : first < width * height := List.mem_range.mp (hslices.covers.mem_iff.mp hmem)
    have hwidth : 0 < width := Nat.pos_of_mul_pos_right (Nat.zero_lt_of_lt hlt)
    exact htiles _ (Nat.mod_lt first hwidth) _ (Nat.div_lt_of_lt_mul hlt)

/-- **The lists of slices of all subpictures name each slice once.** -/
theorem slicesOf_perm {areas : List SubpictureRect} {height count : Nat}
    (htiles : Tiles areas width height) (hslices : slices.Partitions count (width * height)) :
    (derive width areas slices).slicesOf.flatten.Perm (List.range slices.regions.length) := by
  show (areas.flatMap (slicesIn width slices)).Perm _
  rw [List.perm_iff_count]
  intro k
  by_cases hk : k < slices.regions.length
  · have hregion : slices.regions.getD k default ∈ slices.regions := by
      rw [List.getD_eq_getElem?_getD, List.getElem?_eq_getElem hk]
      exact List.getElem_mem hk
    rw [List.count_eq_one_of_mem List.nodup_range (List.mem_range.mpr hk),
      ← countP_startsIn htiles hslices hregion]
    exact count_flatMap_eq_countP fun rect _ =>
      ⟨nodup_slicesIn width slices rect, by rw [mem_slicesIn, and_iff_right hk]⟩
  · rw [List.count_eq_zero.mpr fun h => hk (List.mem_range.mp h), List.count_eq_zero]
    intro h
    obtain ⟨rect, _, hmem⟩ := List.mem_flatMap.mp h
    exact hk (mem_slicesIn.mp hmem).1

/-! ### Addresses -/

/-- The slice at a place in the list of a subpicture. -/
def slice? (a : SliceAssignment) (subpicture address : Nat) : Option Nat :=
  (a.slicesOf[subpicture]?).bind (·[address]?)

/-- All places in the lists of the subpictures. -/
def places (a : SliceAssignment) : Set (Nat × Nat) :=
  {place | place.2 < (a.slicesOf.getD place.1 []).length}

variable {a : SliceAssignment} {n : Nat}

theorem slice?_eq_some {subpicture address k : Nat} :
    a.slice? subpicture address = some k ↔
      ∃ list, a.slicesOf[subpicture]? = some list ∧ list[address]? = some k :=
  Option.bind_eq_some_iff

/-- Every slice has an address in some subpicture. -/
theorem exists_slice? (hperm : a.slicesOf.flatten.Perm (List.range n)) {k : Nat} (hk : k < n) :
    ∃ subpicture address, a.slice? subpicture address = some k := by
  obtain ⟨list, hlist, hk⟩ := List.mem_flatten.mp (hperm.mem_iff.mpr (List.mem_range.mpr hk))
  obtain ⟨subpicture, hsubpicture⟩ := List.mem_iff_getElem?.mp hlist
  obtain ⟨address, haddress⟩ := List.mem_iff_getElem?.mp hk
  exact ⟨subpicture, address, slice?_eq_some.mpr ⟨list, hsubpicture, haddress⟩⟩

theorem slice?_lt (hperm : a.slicesOf.flatten.Perm (List.range n)) {subpicture address k : Nat}
    (h : a.slice? subpicture address = some k) : k < n := by
  obtain ⟨list, hlist, hk⟩ := slice?_eq_some.mp h
  have hmem : k ∈ a.slicesOf.flatten :=
    List.mem_flatten.mpr ⟨list, List.mem_of_getElem? hlist, List.mem_of_getElem? hk⟩
  exact List.mem_range.mp (hperm.mem_iff.mp hmem)

/-- **An address identifies a slice** among those of all subpictures. -/
theorem slice?_injective (hperm : a.slicesOf.flatten.Perm (List.range n))
    {subpicture address subpicture' address' k : Nat}
    (h : a.slice? subpicture address = some k) (h' : a.slice? subpicture' address' = some k) :
    subpicture = subpicture' ∧ address = address' := by
  obtain ⟨list, hlist, hk⟩ := slice?_eq_some.mp h
  obtain ⟨list', hlist', hk'⟩ := slice?_eq_some.mp h'
  have hnodup : a.slicesOf.flatten.Nodup := hperm.nodup_iff.mpr List.nodup_range
  obtain ⟨hlists, hdisjoint⟩ := List.nodup_flatten.mp hnodup
  have hsame : subpicture = subpicture' := by
    by_contra hne
    exact disjoint_of_ne hdisjoint hlist hlist' hne (List.mem_of_getElem? hk)
      (List.mem_of_getElem? hk')
  subst hsame
  obtain rfl : list = list' := Option.some.inj (hlist.symm.trans hlist')
  obtain ⟨haddress, hk⟩ := List.getElem?_eq_some_iff.mp hk
  obtain ⟨haddress', hk'⟩ := List.getElem?_eq_some_iff.mp hk'
  refine ⟨rfl, ?_⟩
  exact (hlists list (List.mem_of_getElem? hlist)).getElem_inj_iff.mp (hk.trans hk'.symm)

theorem mem_places {subpicture address : Nat} :
    (subpicture, address) ∈ a.places ↔ ∃ k, a.slice? subpicture address = some k := by
  show address < (a.slicesOf.getD subpicture []).length ↔ _
  simp only [slice?_eq_some, List.getD_eq_getElem?_getD]
  cases a.slicesOf[subpicture]? with
  | none => simp
  | some list => simp [List.getElem?_eq_some_iff]

/-- **Places in the lists and slices correspond one to one.** -/
theorem bijOn_places (hperm : a.slicesOf.flatten.Perm (List.range n)) :
    Set.BijOn (Function.uncurry a.slice?) a.places (some '' Set.Iio n) := by
  refine ⟨?_, ?_, ?_⟩
  · rintro ⟨subpicture, address⟩ hplace
    obtain ⟨k, hk⟩ := mem_places.mp hplace
    exact ⟨k, slice?_lt hperm hk, hk.symm⟩
  · rintro ⟨subpicture, address⟩ hplace ⟨subpicture', address'⟩ _ hsame
    obtain ⟨k, hk⟩ := mem_places.mp hplace
    obtain ⟨hsubpicture, haddress⟩ := slice?_injective hperm hk (hsame.symm.trans hk)
    exact Prod.ext hsubpicture haddress
  · rintro _ ⟨k, hk, rfl⟩
    obtain ⟨subpicture, address, hslice⟩ := exists_slice? hperm hk
    exact ⟨(subpicture, address), mem_places.mpr ⟨k, hslice⟩, hslice⟩

/-- **The slices of all addresses together have every CTB once.** -/
theorem ctbs_perm {count size : Nat} (hslices : slices.Partitions count size)
    (hperm : a.slicesOf.flatten.Perm (List.range slices.regions.length)) :
    (a.slicesOf.flatten.flatMap fun k => (slices.regions.getD k default).ctbs).Perm
      (List.range size) := by
  have hregions : (List.range slices.regions.length).map (slices.regions.getD · default) =
      slices.regions := by
    refine List.ext_getElem (by simp) fun k hk hk' => ?_
    simp [hk']
  refine (hperm.flatMap_right _).trans ?_
  rw [← List.flatMap_map (slices.regions.getD · default) (·.ctbs), hregions]
  exact hslices.covers

end SliceAssignment

/-- In rectangular mode the subpictures of an accepted picture parameter set name each
slice once. -/
theorem Pps.Sound.slicesOf_perm {pps : Pps} (h : pps.Sound)
    (hrectangular : pps.partition.rectangular = true) :
    pps.partition.assignment.slicesOf.flatten.Perm
      (List.range pps.partition.slices.regions.length) := by
  rw [h.partition.assignment hrectangular]
  exact SliceAssignment.slicesOf_perm h.tiles (h.partition.partitions hrectangular)

/-- Different slices of a partition have no CTB in common. -/
theorem SliceMap.Partitions.disjoint {map : SliceMap} {count size k k' : Nat}
    (h : map.Partitions count size) (hk : k < map.regions.length)
    (hk' : k' < map.regions.length) (hne : k ≠ k') :
    (map.regions.getD k default).ctbs.Disjoint (map.regions.getD k' default).ctbs := by
  have hnodup : (map.regions.flatMap (·.ctbs)).Nodup := h.covers.nodup_iff.mpr List.nodup_range
  rw [List.flatMap_def, List.nodup_flatten] at hnodup
  have hat : ∀ {i}, i < map.regions.length →
      (map.regions.map (·.ctbs))[i]? = some (map.regions.getD i default).ctbs := by
    intro i hi
    rw [List.getElem?_map, List.getD_eq_getElem?_getD, List.getElem?_eq_getElem hi]
    rfl
  exact disjoint_of_ne hnodup.2 (hat hk) (hat hk') hne

end CodedVideo
