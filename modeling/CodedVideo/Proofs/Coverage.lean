import CodedVideo.Partition.Subpicture
import CodedVideo.Proofs.TileGrid

/-!
# Every block in one place

Slices and subpictures are checked in the same way: cells, one for each CTB, are free
at first, a CTB takes its cell provided that it is free, and in the end no cell may be
free.  `Fills` says what a list of CTBs has done to the cells.  Lists that are taken one
after another add up (`Fills.append`), and cells that are all taken have been taken by
each CTB of the picture once (`Fills.perm`).

The main statements are `checkCoverage_ok` for slices and `subpictureMap_ok` for
subpictures.  By `subpictureMap_eq_some` the cells then tell in which subpicture a CTB lies.
-/

namespace CodedVideo

/-- The cells in `list`, all of them free and no two the same, have been taken. -/
structure Fills {α : Type} (free : α) (cells cells' : Array α) (list : List Nat) : Prop where
  nodup : list.Nodup
  before : ∀ c ∈ list, cells[c]? = some free
  after : ∀ c ∈ list, cells'[c]? ≠ some free
  kept : ∀ c ∉ list, cells'[c]? = cells[c]?

namespace Fills

variable {α : Type} {free : α} {cells cells' cells'' : Array α} {list list' : List Nat}

theorem nil : Fills free cells cells [] := ⟨.nil, by simp, by simp, by simp⟩

theorem single {c : Nat} {value : α} (hfree : cells[c]? = some free) (hvalue : value ≠ free) :
    Fills free cells (cells.setIfInBounds c value) [c] := by
  obtain ⟨hc, -⟩ := Array.getElem?_eq_some_iff.mp hfree
  refine ⟨List.nodup_singleton c, ?_, ?_, ?_⟩
  · intro d hd
    rwa [List.mem_singleton.mp hd]
  · intro d hd
    rw [List.mem_singleton.mp hd, Array.getElem?_setIfInBounds_self_of_lt hc]
    exact fun h => hvalue (Option.some.inj h)
  · intro d hd
    exact Array.getElem?_setIfInBounds_ne fun h => hd (List.mem_singleton.mpr h.symm)

theorem append (h : Fills free cells cells' list) (h' : Fills free cells' cells'' list') :
    Fills free cells cells'' (list ++ list') := by
  have hdisjoint : ∀ c ∈ list, c ∉ list' := fun c hc hc' => h.after c hc (h'.before c hc')
  refine ⟨?_, ?_, ?_, ?_⟩
  · exact h.nodup.append h'.nodup hdisjoint
  · intro c hc
    rcases List.mem_append.mp hc with hc | hc
    · exact h.before c hc
    · rw [← h.kept c fun hc' => hdisjoint c hc' hc]
      exact h'.before c hc
  · intro c hc
    rcases List.mem_append.mp hc with hc | hc
    · rw [h'.kept c (hdisjoint c hc)]
      exact h.after c hc
    · exact h'.after c hc
  · intro c hc
    rw [List.mem_append, not_or] at hc
    rw [h'.kept c hc.2, h.kept c hc.1]

/-- If no cell is free any more, each has been taken once. -/
theorem perm [BEq α] [LawfulBEq α] {size : Nat}
    (h : Fills free (Array.replicate size free) cells' list) (hfull : cells'.count free = 0) :
    list.Perm (List.range size) := by
  refine (List.perm_ext_iff_of_nodup h.nodup List.nodup_range).mpr fun c => ?_
  rw [List.mem_range]
  constructor
  · intro hc
    obtain ⟨hlt, -⟩ := Array.getElem?_eq_some_iff.mp (h.before c hc)
    simpa using hlt
  · intro hc
    by_contra hout
    have hfree : cells'[c]? = some free := by
      rw [h.kept c hout]
      rw [Array.getElem?_replicate, if_pos hc]
    exact Array.count_eq_zero.mp hfull (Array.mem_of_getElem? hfree)

end Fills

/-! ### Slices -/

theorem coverCtbs_fills : ∀ {list : List Nat} {cells cells' : Array Bool},
    coverCtbs cells list = .ok cells' → Fills false cells cells' list := by
  intro list
  induction list with
  | nil =>
    intro cells cells' h
    cases h
    exact .nil
  | cons c rest ih =>
    intro cells cells' h
    unfold coverCtbs at h
    split at h
    · rename_i hfree
      exact (Fills.single hfree (by decide)).append (ih h)
    · cases h

/-- **A map that passes the check has every CTB in exactly one slice.** -/
theorem SliceMap.checkCoverage_ok {map : SliceMap} {size : Nat}
    (h : map.checkCoverage size = .ok ()) :
    (map.regions.flatMap (·.ctbs)).Perm (List.range size) := by
  obtain ⟨cells, hcover, h⟩ := except_bind_eq_ok.mp h
  split at h
  · rename_i hfull
    exact (coverCtbs_fills hcover).perm hfull
  · cases h

/-! ### Subpictures -/

theorem claimCtbs_fills {index : Nat} (hindex : index < unclaimed) :
    ∀ {list : List Nat} {cells cells' : Array Nat},
      claimCtbs index cells list = .ok cells' → Fills unclaimed cells cells' list := by
  have hvalue : index % 65536 ≠ unclaimed := by
    unfold unclaimed at hindex ⊢
    omega
  intro list
  induction list with
  | nil =>
    intro cells cells' h
    cases h
    exact .nil
  | cons c rest ih =>
    intro cells cells' h
    unfold claimCtbs at h
    split at h
    · rename_i hfree
      exact (Fills.single hfree hvalue).append (ih h)
    · cases h

/-- An index below the mark tells a subpicture from no subpicture, so there may be no
more than that many. -/
theorem claimSubpictures_fills {width height : Nat} :
    ∀ {rects : List SubpictureRect} {index : Nat} {cells cells' : Array Nat},
      index + rects.length ≤ unclaimed →
      claimSubpictures width height index cells rects = .ok cells' →
        (∀ rect ∈ rects, rect.fits width height) ∧
          Fills unclaimed cells cells' (rects.flatMap (·.ctbs width)) := by
  intro rects
  induction rects with
  | nil =>
    intro index cells cells' _ h
    cases h
    exact ⟨by simp, .nil⟩
  | cons rect rest ih =>
    intro index cells cells' hcount h
    rw [List.length_cons] at hcount
    unfold claimSubpictures at h
    split at h
    · rename_i hfits
      split at h
      · cases h
      · rename_i claimed hclaimed
        obtain ⟨hrest, hfills⟩ := ih (by omega) h
        refine ⟨?_, ?_⟩
        · intro other hother
          rcases List.mem_cons.mp hother with rfl | hother
          · exact hfits
          · exact hrest other hother
        · rw [List.flatMap_cons]
          exact (claimCtbs_fills (by omega) hclaimed).append hfills
    · cases h

/-- **Subpictures that have a map lie in the picture and have every CTB in exactly one of
them.** -/
theorem subpictureMap_ok {width height : Nat} {rects : List SubpictureRect}
    {owners : Array Nat} (hcount : rects.length ≤ unclaimed)
    (h : subpictureMap width height rects = .ok owners) :
    (∀ rect ∈ rects, rect.fits width height) ∧
      (rects.flatMap (·.ctbs width)).Perm (List.range (width * height)) := by
  obtain ⟨cells, hclaim, h⟩ := except_bind_eq_ok.mp h
  split at h
  · rename_i hfull
    obtain ⟨hfits, hfills⟩ := claimSubpictures_fills (by omega) hclaim
    exact ⟨hfits, hfills.perm hfull⟩
  · cases h

/-- A CTB that has been claimed has the index of its subpicture from then on. -/
theorem claimCtbs_index {index : Nat} (hindex : index < unclaimed) :
    ∀ {list : List Nat} {cells cells' : Array Nat},
      claimCtbs index cells list = .ok cells' → ∀ c ∈ list, cells'[c]? = some index := by
  intro list
  induction list with
  | nil => exact fun _ _ h => absurd h List.not_mem_nil
  | cons c rest ih =>
    intro cells cells' h d hd
    unfold claimCtbs at h
    split at h
    · rename_i hfree
      rcases List.mem_cons.mp hd with rfl | hd
      · obtain ⟨hd, -⟩ := Array.getElem?_eq_some_iff.mp hfree
        have hclaimed : (cells.setIfInBounds d (index % 65536))[d]? = some index := by
          rw [Array.getElem?_setIfInBounds_self_of_lt hd]
          unfold unclaimed at hindex
          exact congrArg some (Nat.mod_eq_of_lt (by omega))
        have hfills := claimCtbs_fills hindex h
        have hnot : d ∉ rest := by
          intro hrest
          have hunclaimed := hclaimed.symm.trans (hfills.before d hrest)
          exact hindex.ne (Option.some.inj hunclaimed)
        rw [hfills.kept d hnot]
        exact hclaimed
      · exact ih h d hd
    · cases h

theorem claimSubpictures_index {width height : Nat} {rects : List SubpictureRect} :
    ∀ {index : Nat} {cells cells' : Array Nat}, index + rects.length ≤ unclaimed →
      claimSubpictures width height index cells rects = .ok cells' →
        ∀ {i : Nat} {rect : SubpictureRect}, rects[i]? = some rect →
          ∀ c ∈ rect.ctbs width, cells'[c]? = some (index + i) := by
  induction rects with
  | nil =>
    intro _ _ _ _ _ i rect hrect
    cases hrect
  | cons first rest ih =>
    intro index cells cells' hcount h i rect hrect c hc
    rw [List.length_cons] at hcount
    unfold claimSubpictures at h
    split at h
    · split at h
      · cases h
      · rename_i claimed hclaimed
        have hrest : index + 1 + rest.length ≤ unclaimed := by omega
        cases i with
        | succ i =>
          have hindex := ih hrest h hrect c hc
          rwa [Nat.add_right_comm] at hindex
        | zero =>
          cases hrect
          have hindex := claimCtbs_index (by omega) hclaimed c hc
          have hfills := (claimSubpictures_fills hrest h).2
          -- Nothing that is claimed later on has been claimed by this subpicture.
          have hnot : c ∉ rest.flatMap (·.ctbs width) := by
            intro hlater
            have hunclaimed := Option.some.inj (hindex.symm.trans (hfills.before c hlater))
            omega
          rw [hfills.kept c hnot]
          exact hindex
    · cases h

/-- **The map names the subpicture that a CTB lies in.** -/
theorem subpictureMap_eq_some {width height : Nat} {rects : List SubpictureRect}
    {owners : Array Nat} (hcount : rects.length ≤ unclaimed)
    (h : subpictureMap width height rects = .ok owners) {c i : Nat} :
    owners[c]? = some i ↔ ∃ rect, rects[i]? = some rect ∧ c ∈ rect.ctbs width := by
  have hperm := (subpictureMap_ok hcount h).2
  obtain ⟨cells, hclaim, h⟩ := except_bind_eq_ok.mp h
  split at h
  · cases h
    have hcount : 0 + rects.length ≤ unclaimed := by omega
    have hindex : ∀ {i rect}, rects[i]? = some rect → c ∈ rect.ctbs width →
        owners[c]? = some i := by
      intro i rect hrect hc
      rw [claimSubpictures_index hcount hclaim hrect c hc, Nat.zero_add]
    constructor
    · intro howner
      by_cases hc : c < width * height
      · have hmem := hperm.mem_iff.mpr (List.mem_range.mpr hc)
        obtain ⟨rect, hrect, hc⟩ := List.mem_flatMap.mp hmem
        obtain ⟨j, hj⟩ := List.mem_iff_getElem?.mp hrect
        cases howner.symm.trans (hindex hj hc)
        exact ⟨rect, hj, hc⟩
      · -- The map is no larger than the picture.
        have hout : c ∉ rects.flatMap (·.ctbs width) := fun hmem =>
          hc (List.mem_range.mp (hperm.mem_iff.mp hmem))
        rw [(claimSubpictures_fills hcount hclaim).2.kept c hout, Array.getElem?_replicate,
          if_neg hc] at howner
        cases howner
    · rintro ⟨rect, hrect, hc⟩
      exact hindex hrect hc
  · cases h

end CodedVideo
