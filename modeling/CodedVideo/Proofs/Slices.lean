import CodedVideo.Proofs.Reachable

/-!
# The slices of a session

Whatever NAL units a session has been given, in whatever order and with resets in
between, two things can be relied on.

* `Session.Reachable.slices_partition`: the rectangular slices of every picture parameter
  set it keeps share the CTBs of a picture among themselves, and there are as many as the
  set says.
* `Session.Reachable.addresses_identify_slices`: what a slice header says about its place
  identifies a slice, so headers that name different places have no CTB in common, and no
  header is refused for naming a place that does not exist.

Both hold of sound sets, and all that a session can come to keep is sound.
-/

namespace CodedVideo

/-- The slices of a picture can be told by their places in the lists of the subpictures. -/
structure Pps.Addressed (pps : Pps) : Prop where
  /-- Places and slices correspond one to one. -/
  one_to_one : Set.BijOn (Function.uncurry pps.partition.assignment.slice?)
    pps.partition.assignment.places (some '' Set.Iio pps.partition.slices.regions.length)
  /-- The slices of all places together have every CTB of the picture once. -/
  covers : (pps.partition.assignment.slicesOf.flatten.flatMap fun slice =>
      (pps.partition.slices.regions.getD slice default).ctbs).Perm
    (List.range (pps.widthInCtbs * pps.heightInCtbs))

theorem Pps.Sound.addressed {pps : Pps} (h : pps.Sound)
    (hrectangular : pps.partition.rectangular = true) : pps.Addressed :=
  have hperm := h.slicesOf_perm hrectangular
  ⟨SliceAssignment.bijOn_places hperm,
    SliceAssignment.ctbs_perm (h.partition.partitions hrectangular) hperm⟩

/-- The CTBs of an accepted slice are those of the slice that its place stands for. -/
theorem SliceHeader.Placed.exists_slice? {slice : SliceHeader} (h : slice.Placed)
    (hrectangular : slice.pps.partition.rectangular = true) :
    ∃ index, slice.pps.partition.assignment.slice? slice.place.subpicture slice.place.address =
        some index ∧
      slice.ctbs = (slice.pps.partition.slices.regions.getD index default).ctbs := by
  obtain ⟨index, hindex⟩ := h.place.rectangular hrectangular
  have hctbs := h.ctbs
  rw [SlicePlace.ctbs_of_slice? hrectangular hindex] at hctbs
  exact ⟨index, hindex, (Except.ok.inj hctbs).symm⟩

namespace Session

variable {s : Session}

theorem Reachable.placed (hs : s.Reachable) {nal : Nal} {slice : SliceHeader}
    (h : (s.readSlice nal).1 = .ok slice) : slice.Placed := by
  have hkeeps := (runStep_keeps (keeps_placed nal.header) hs.sound sliceKinds nal).2
  rw [show s.runStep sliceKinds _ nal = s.readSlice nal from rfl, h] at hkeeps
  exact hkeeps

theorem Reachable.not_ofPlace (hs : s.Reachable) {nal : Nal} {fault : Fault}
    (h : (s.readSlice nal).1 = .error (.invalid fault)) : ¬ fault.OfPlace := by
  have hkeeps := (runStep_keeps (keeps_placed nal.header) hs.sound sliceKinds nal).2
  rw [show s.runStep sliceKinds _ nal = s.readSlice nal from rfl, h] at hkeeps
  exact fun hplace => hkeeps fault rfl _ (Fault.ofPlace_iff.mp hplace) rfl

/-- A session with a picture parameter set for pictures of sixteen CTBs in four
subpictures, of which all but the last are cut into two slices. -/
def fourSubpictures : Session :=
  (start false).after (.sequenceSet {
      header := { kind := .sps, temporalIdPlus1 := 1 }
      bytes := [0x00, 0x79, 0x00, 0x09, 0x02, 0x33, 0x00, 0x00, 0x00, 0x40, 0x80, 0x81, 0x48, 0x29,
        0x0a, 0x12, 0x94, 0x23, 0xd0, 0x1e, 0xd8, 0x7c, 0x06, 0x02, 0x08, 0x00, 0x02] })
    |>.after (.pictureSet {
      header := { kind := .pps, temporalIdPlus1 := 1 }
      bytes := [0x00, 0x81, 0x00, 0x00, 0x20, 0x40, 0x40, 0x80, 0x49, 0x24, 0x91, 0xda, 0xad, 0x4c,
        0x20, 0x04] })

theorem fourSubpictures_reachable : fourSubpictures.Reachable := .after _ (.after _ (.start false))

/-- **Slices cover the picture.** -/
theorem Reachable.slices_partition (hs : s.Reachable) {id : Nat} {pps : Pps}
    (hpps : s.pictureSets.get? id = some pps) (hrectangular : pps.partition.rectangular = true) :
    pps.partition.slices.Partitions (pps.partition.slicesMinus1 + 1)
      (pps.widthInCtbs * pps.heightInCtbs) :=
  (hs.sound.pictureSets id pps hpps).partition.partitions hrectangular

theorem slices_partition_fourSubpictures : ∃ pps,
    fourSubpictures.pictureSets.get? 0 = some pps ∧ pps.partition.slices.Partitions 7 16 := by
  have hcheck : (fourSubpictures.pictureSets.get? 0).any (fun pps =>
      pps.partition.rectangular && pps.partition.slicesMinus1 == 6 && pps.widthInCtbs == 4 &&
        pps.heightInCtbs == 4) = true := by
    decide +kernel
  cases hpps : fourSubpictures.pictureSets.get? 0 with
  | none =>
    rw [hpps] at hcheck
    cases hcheck
  | some pps =>
    rw [hpps] at hcheck
    simp only [Option.any_some, Bool.and_eq_true, beq_iff_eq] at hcheck
    obtain ⟨⟨⟨hrectangular, hcount⟩, hwidth⟩, hheight⟩ := hcheck
    have hpartitions := fourSubpictures_reachable.slices_partition hpps hrectangular
    rw [hcount, hwidth, hheight] at hpartitions
    exact ⟨pps, rfl, hpartitions⟩

/-- **Slice addresses identify slices.** -/
theorem Reachable.addresses_identify_slices (hs : s.Reachable) :
    (∀ id pps, s.pictureSets.get? id = some pps → pps.partition.rectangular = true →
      pps.Addressed) ∧
    (∀ nal slice, (s.readSlice nal).1 = .ok slice → slice.pps.partition.rectangular = true →
      (∃ index, slice.pps.partition.assignment.slice? slice.place.subpicture
            slice.place.address = some index ∧
          slice.ctbs = (slice.pps.partition.slices.regions.getD index default).ctbs) ∧
        ∀ s' nal' slice', Reachable s' → (s'.readSlice nal').1 = .ok slice' →
          slice'.pps = slice.pps →
          (slice.place.subpictureId, slice.place.address) ≠
            (slice'.place.subpictureId, slice'.place.address) →
          slice.ctbs.Disjoint slice'.ctbs) ∧
    (∀ nal slice, (s.readSlice nal).1 = .ok slice → slice.pps.partition.rectangular = false →
      slice.place.address + slice.place.tilesMinus1 < slice.pps.partition.grid.tiles) ∧
    ∀ nal, (∀ address, (s.readSlice nal).1 ≠ .error (.invalid (.unknownSlice address))) ∧
      ∀ e, (s.readSlice nal).1 ≠ .error (.invalid (.partition e)) := by
  refine ⟨?_, ?_, ?_, ?_⟩
  · intro id pps hpps hrectangular
    exact (hs.sound.pictureSets id pps hpps).addressed hrectangular
  · intro nal slice hslice hrectangular
    have hplaced := hs.placed hslice
    refine ⟨hplaced.exists_slice? hrectangular, ?_⟩
    intro s' nal' slice' hs' hslice' hpps hne
    exact hplaced.disjoint (hs'.placed hslice') hpps hrectangular hne
  · intro nal slice hslice hraster
    exact (hs.placed hslice).place.raster hraster
  · intro nal
    exact ⟨fun address h => hs.not_ofPlace h (.inl ⟨address, rfl⟩),
      fun e h => hs.not_ofPlace h (.inr ⟨e, rfl⟩)⟩

/-- A slice of the first subpicture; the last byte of the header starts with the address. -/
def sliceOfFirst (last : UInt8) : Nal where
  header := { kind := .idrNoLeading, temporalIdPlus1 := 1 }
  bytes := [0x00, 0x41, 0xc4, 0x00, last]

theorem addresses_identify_slices_fourSubpictures : ∃ slice slice',
    (fourSubpictures.readSlice (sliceOfFirst 0x30)).1 = .ok slice ∧
      (fourSubpictures.readSlice (sliceOfFirst 0xb0)).1 = .ok slice' ∧
        slice.place.address ≠ slice'.place.address ∧ slice.ctbs.Disjoint slice'.ctbs := by
  have hcheck : (match (fourSubpictures.readSlice (sliceOfFirst 0x30)).1,
      (fourSubpictures.readSlice (sliceOfFirst 0xb0)).1 with
    | .ok slice, .ok slice' => slice.pps.partition.rectangular && decide (slice'.pps = slice.pps) &&
      slice.place.address != slice'.place.address
    | _, _ => false) = true := by
    decide +kernel
  have hidentify := fourSubpictures_reachable.addresses_identify_slices.2.1
  split at hcheck
  · rename_i slice slice' hslice hslice'
    simp only [Bool.and_eq_true, decide_eq_true_eq, bne_iff_ne] at hcheck
    obtain ⟨⟨hrectangular, hpps⟩, hne⟩ := hcheck
    refine ⟨slice, slice', hslice, hslice', hne, ?_⟩
    exact (hidentify _ slice hslice hrectangular).2 _ _ slice' fourSubpictures_reachable hslice' hpps
      fun h => hne (Prod.ext_iff.mp h).2
  · cases hcheck

end Session

end CodedVideo
