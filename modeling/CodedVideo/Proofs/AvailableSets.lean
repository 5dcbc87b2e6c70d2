import CodedVideo.Proofs.QpRange

/-!
# The adaptation parameter sets that a slice relies on

A slice takes its loop filters, its mapping of luma values and its scaling matrices from
adaptation parameter sets.  Two facts make sure that they are there when the slice has been
accepted.

A session files each set under its own kind and id, and a set that has filters of some sort has
at least one of them (`Session.Reachable.filed`).  The first is kept by every request: a set is
put into one slot, a reset leaves nothing that was not there, and headers change no slot.

At its end a slice header looks up all that it refers to, and nothing changes the session behind
that check.  So the sets are found in the session that comes of the slice, and with what the
slice needs (`Session.Reachable.supplied`).
-/

namespace CodedVideo

open Parse

/-! ### Filters -/

namespace AlfFilters

variable {α : Type}

/-- The filters for luma, if there are any. -/
def lumaFilters (f : AlfFilters) : Option (List LoopFilter) := f.luma.map (·.filters)

/-- The filters for chroma, if there are any. -/
def chromaFilters (f : AlfFilters) : Option (List LoopFilter) := f.chroma.map (·.filters)

/-- Where there are filters of some sort, there is one at least. -/
structure Filled (f : AlfFilters) : Prop where
  luma : f.lumaFilters ≠ some []
  chroma : f.chromaFilters ≠ some []
  crossCb : f.crossCb ≠ some []
  crossCr : f.crossCr ≠ some []

theorem ensures_collect_ne_nil {count : Nat} {p : Nat → Parse α} :
    (collect (count + 1) p).Ensures (· ≠ []) :=
  ensures_collectFrom.mono fun _ hlength => List.ne_nil_of_length_eq_add_one hlength

theorem readLuma_ne_nil : readLuma.Ensures (·.1.filters ≠ []) := by
  refine .andThen fun clipped => .andThen fun countMinus1 => .andThen fun indices => ?_
  refine ensures_collect_ne_nil.bind fun coefficients hcoefficients => ?_
  refine ensures_collect_ne_nil.bind fun clipping hclipping => ensures_pure.mpr fun hnil => ?_
  exact (List.zipWith_eq_nil_iff.mp hnil).elim hcoefficients hclipping

theorem readChroma_ne_nil : readChroma.Ensures (·.filters ≠ []) :=
  .andThen fun _ => .andThen fun _ => ensures_collect_ne_nil.bind fun _ hfilters =>
    ensures_pure.mpr hfilters

theorem readCrossFilters_ne_nil : readCrossFilters.Ensures (· ≠ []) :=
  .andThen fun _ => ensures_collect_ne_nil

/-- **There are filters of each sort that is read.** -/
theorem read_filled (chroma : Bool) : (AlfFilters.read chroma).Ensures Filled := by
  refine .andThen fun hasLuma => .andThen fun hasChroma => .andThen fun hasCb => ?_
  refine .andThen fun hasCr => .andThen fun _ => ?_
  extract_lets -underBinder withLuma
  refine .optional readLuma_ne_nil fun luma hluma => ?_
  refine .optional readChroma_ne_nil fun chroma hchroma => ?_
  refine .optional readCrossFilters_ne_nil fun crossCb hcrossCb => ?_
  refine .optional readCrossFilters_ne_nil fun crossCr hcrossCr => ensures_pure.mpr ?_
  refine ⟨?_, ?_, fun h => hcrossCb [] h rfl, fun h => hcrossCr [] h rfl⟩
  · cases luma with
    | none => nofun
    | some luma => simpa [lumaFilters] using hluma luma rfl
  · cases chroma with
    | none => nofun
    | some chroma => simpa [chromaFilters] using hchroma chroma rfl

end AlfFilters

namespace Aps

/-- The set is of the kind and has the id, and no sort of filters that it has is empty. -/
structure FiledAs (apsKind : ApsKind) (apsId : Nat) (aps : Aps) : Prop where
  kind : aps.kind = apsKind
  id : aps.id = apsId
  filled : ∀ f, aps.content = .alf f → f.Filled

variable {aps : Aps} {id : Nat}

theorem FiledAs.exists_alf (h : aps.FiledAs .alf id) : ∃ f, aps.content = .alf f := by
  have hkind : aps.content.kind = .alf := h.kind
  cases hcontent : aps.content with
  | alf f => exact ⟨f, rfl⟩
  | lmcs mapping | scalingList lists =>
    rw [hcontent] at hkind
    cases hkind

theorem FiledAs.exists_lmcs (h : aps.FiledAs .lmcs id) : ∃ mapping, aps.content = .lmcs mapping := by
  have hkind : aps.content.kind = .lmcs := h.kind
  cases hcontent : aps.content with
  | lmcs mapping => exact ⟨mapping, rfl⟩
  | alf f | scalingList lists =>
    rw [hcontent] at hkind
    cases hkind

theorem FiledAs.exists_scalingList (h : aps.FiledAs .scalingList id) :
    ∃ lists, aps.content = .scalingList lists := by
  have hkind : aps.content.kind = .scalingList := h.kind
  cases hcontent : aps.content with
  | scalingList lists => exact ⟨lists, rfl⟩
  | alf f | lmcs mapping =>
    rw [hcontent] at hkind
    cases hkind

theorem filled_read (layer : Nat) :
    (read layer).Ensures fun aps => ∀ f, aps.content = .alf f → f.Filled := by
  refine .withExtension ?_ fun _ _ h => h
  refine .andThen fun code => ?_
  cases ApsKind.ofCode? code with
  | none => exact ensures_fail
  | some kind =>
    refine .andThen fun id => .andThen fun chroma => ?_
    refine .bind (P := fun content => ∀ f, content = .alf f → f.Filled) ?_ fun content hcontent => ?_
    · cases kind with
      | alf =>
        refine ensures_map.mpr ((AlfFilters.read_filled chroma).mono fun f hfilled => ?_)
        rintro _ ⟨⟩
        exact hfilled
      | lmcs | scalingList => exact ensures_map.mpr (ensures_of_forall nofun)
    · exact ensures_pure.mpr hcontent

end Aps

/-! ### What a session files -/

namespace ParameterStore

variable {α : Type} {s : ParameterStore α}

/-- A reset leaves nothing that was not there. -/
theorem get?_of_reset {keeping : Bool} {id : Nat} {set : α}
    (h : (s.reset keeping).get? id = some set) : s.get? id = some set := by
  rw [get?_reset] at h
  split at h
  · exact h
  · cases h

end ParameterStore

namespace Session

variable {s s' : Session}

/-- Adaptation parameter sets are filed under their own kind and id. -/
def Filed (s : Session) : Prop :=
  ∀ kind id aps, s.adaptationSet? kind id = some aps → aps.FiledAs kind id

theorem adaptationSet?_setAdaptationSets (s : Session) (sets : ParameterStore Aps)
    (kind other : ApsKind) (id : Nat) :
    (s.setAdaptationSets sets kind).adaptationSet? other id =
      if other = kind then sets.get? id else s.adaptationSet? other id := by
  cases kind <;> cases other <;> rfl

theorem adaptationSet?_reset (s : Session) (keeping : Bool) (kind : ApsKind) (id : Nat) :
    (s.reset keeping).adaptationSet? kind id = ((s.adaptationSets kind).reset keeping).get? id := by
  cases kind <;> rfl

theorem Filed.of_same (h : s.Filed)
    (hsame : ∀ kind id, s'.adaptationSet? kind id = s.adaptationSet? kind id) : s'.Filed :=
  fun kind id aps haps => h kind id aps (hsame kind id ▸ haps)

/-- The set that is put into a slot is filed there. -/
theorem Filed.update (h : s.Filed) {aps : Aps} {sets : ParameterStore Aps}
    (haps : aps.FiledAs aps.kind aps.id)
    (hsets : (s.adaptationSets aps.kind).Updated aps.id aps sets) :
    (s.setAdaptationSets sets aps.kind).Filed := by
  intro kind id held hheld
  rw [adaptationSet?_setAdaptationSets, hsets.get?] at hheld
  split_ifs at hheld with hkind hid
  · cases hheld
    rwa [hkind, hid]
  · exact h kind id held (hkind ▸ hheld)
  · exact h kind id held hheld

theorem Filed.reset (h : s.Filed) (keeping : Bool) : (s.reset keeping).Filed := by
  intro kind id aps haps
  rw [adaptationSet?_reset] at haps
  exact h kind id aps (ParameterStore.get?_of_reset haps)

theorem Filed.after (h : s.Filed) (request : Request) : (s.after request).Filed := by
  cases request with
  | operatingPoint nal | videoSet nal | sequenceSet nal | pictureSet nal =>
    refine register_updated_keeps h (fun _ _ _ => h.of_same fun kind _ => ?_) _ nal
    cases kind <;> rfl
  | adaptationSet nal =>
    refine register_insert_keeps h (Aps.filled_read _) (fun aps _ hfilled hsets => ?_) _ nal
    exact h.update ⟨rfl, rfl, hfilled⟩ (ParameterStore.updated_of_insert hsets)
  | delimiter nal => exact h
  | pictureHeader nal =>
    exact h.of_same (s.readPictureHeader_leavesSets nal).1.sameSets.adaptationSets
  | slice nal => exact h.of_same (s.readSlice_leavesSets nal).1.sameSets.adaptationSets
  | reset keeping => exact h.reset keeping

/-- **Every session files adaptation parameter sets under their own kind and id.** -/
theorem Reachable.filed (h : s.Reachable) : s.Filed := by
  induction h with
  | start escaped =>
    intro kind id aps haps
    cases kind <;> cases haps
  | after request _ ih => exact ih.after request

end Session

/-! ### What a slice looks up -/

/-- There is a set of filters with the id, and it holds some of a sort. -/
def OffersFilters {α : Type} (apsOf : ApsKind → Nat → Option Aps)
    (filters : AlfFilters → Option (List α)) (id : Nat) : Prop :=
  ∃ aps f list, apsOf .alf id = some aps ∧ aps.content = .alf f ∧ filters f = some list ∧ list ≠ []

/-- The filters that a choice refers to are there. -/
structure AlfChoice.Supplied (apsOf : ApsKind → Nat → Option Aps) (alf : AlfChoice) : Prop where
  luma : ∀ id ∈ alf.luma, OffersFilters apsOf AlfFilters.lumaFilters id
  chroma : (alf.cb || alf.cr) = true → OffersFilters apsOf AlfFilters.chromaFilters alf.chroma
  crossCb : ∀ id, alf.crossCb = some id → OffersFilters apsOf AlfFilters.crossCb id
  crossCr : ∀ id, alf.crossCr = some id → OffersFilters apsOf AlfFilters.crossCr id

namespace SliceHeader

variable {apsOf : ApsKind → Nat → Option Aps}

/-- The adaptation parameter sets that a slice relies on are there and hold what it needs. -/
structure Supplied (apsOf : ApsKind → Nat → Option Aps) (slice : SliceHeader) : Prop where
  alf : slice.applied.alf.enabled = true → slice.applied.alf.Supplied apsOf
  mapped : slice.mapped = true → ∃ used aps mapping, slice.picture.mapping = some used ∧
    apsOf .lmcs used.aps = some aps ∧ aps.content = .lmcs mapping
  scaled : slice.scaled = true → ∃ id aps lists, slice.picture.scalingLists = some id ∧
    apsOf .scalingList id = some aps ∧ aps.content = .scalingList lists ∧
    aps.chroma = slice.pps.sps.hasChroma

section

variable (hfiled : ∀ kind id aps, apsOf kind id = some aps → aps.FiledAs kind id)
include hfiled

theorem checkFilters_ensures {α : Type} (filters : AlfFilters → Option (List α))
    {needs : AlfFilters → Bool}
    (hneeds : ∀ f, needs f = (filters f).isSome) (hne : ∀ f, f.Filled → filters f ≠ some [])
    (id : Nat) (lacking : Nat → Fault) :
    (checkFilters apsOf id needs lacking).Ensures fun _ => OffersFilters apsOf filters id := by
  refine .bind (ensures_ofReference.mpr fun aps haps => haps) fun aps haps => ?_
  rw [ensures_refuseIf, Bool.not_eq_false']
  intro hheld
  have hkept := hfiled .alf id aps haps
  obtain ⟨f, hcontent⟩ := hkept.exists_alf
  have hheld : needs f = true := by
    unfold Aps.alf? at hheld
    rwa [hcontent] at hheld
  obtain ⟨list, hlist⟩ := Option.isSome_iff_exists.mp (hneeds f ▸ hheld)
  refine ⟨aps, f, list, haps, hcontent, hlist, ?_⟩
  rintro rfl
  exact hne f (hkept.filled f hcontent) hlist

theorem checkLumaFilters_ensures (ids : List Nat) :
    (checkLumaFilters apsOf ids).Ensures fun _ =>
      ∀ id ∈ ids, OffersFilters apsOf AlfFilters.lumaFilters id := by
  induction ids with
  | nil => exact ensures_pure.mpr nofun
  | cons id rest ih =>
    refine .bind (checkFilters_ensures hfiled AlfFilters.lumaFilters
      (fun f => Option.isSome_map.symm) (fun f h => h.luma) id _) fun _ hid => ?_
    exact ih.mono fun _ hrest => List.forall_mem_cons.mpr ⟨hid, hrest⟩

theorem checkAlf_ensures (alf : AlfChoice) :
    (checkAlf apsOf alf).Ensures fun _ => alf.enabled = true → alf.Supplied apsOf := by
  unfold checkAlf
  split
  case isTrue hdisabled =>
    refine ensures_pure.mpr fun henabled => ?_
    rw [henabled] at hdisabled
    cases hdisabled
  refine (checkLumaFilters_ensures hfiled alf.luma).bind fun _ hluma => ?_
  extract_lets -underBinder withChroma
  have hwithChroma : ((alf.cb || alf.cr) = true →
        OffersFilters apsOf AlfFilters.chromaFilters alf.chroma) →
      (withChroma ()).Ensures fun _ => alf.enabled = true → alf.Supplied apsOf := by
    intro hchroma
    unfold withChroma
    extract_lets -underBinder withCb
    have hwithCb : (∀ id, alf.crossCb = some id → OffersFilters apsOf AlfFilters.crossCb id) →
        (withCb ()).Ensures fun _ => alf.enabled = true → alf.Supplied apsOf := by
      intro hcrossCb
      unfold withCb
      cases hid : alf.crossCr with
      | none =>
        refine ensures_pure.mpr fun _ => ⟨hluma, hchroma, hcrossCb, ?_⟩
        rw [hid]
        nofun
      | some id =>
        refine (checkFilters_ensures hfiled AlfFilters.crossCr (fun _ => rfl)
          (fun _ h => h.crossCr) id _).mono fun _ hcrossCr _ => ⟨hluma, hchroma, hcrossCb, ?_⟩
        rw [hid]
        rintro _ ⟨⟩
        exact hcrossCr
    cases hid : alf.crossCb with
    | none =>
      refine hwithCb ?_
      rw [hid]
      nofun
    | some id =>
      refine (checkFilters_ensures hfiled AlfFilters.crossCb (fun _ => rfl)
        (fun _ h => h.crossCb) id _).bind fun _ hcrossCb => hwithCb ?_
      rw [hid]
      rintro _ ⟨⟩
      exact hcrossCb
  split
  case isTrue =>
    exact (checkFilters_ensures hfiled AlfFilters.chromaFilters
      (fun _ => Option.isSome_map.symm) (fun _ h => h.chroma) _ _).bind
      fun _ hchroma => hwithChroma fun _ => hchroma
  case isFalse hunused => exact hwithChroma fun hused => absurd hused hunused

/-- What is used of the picture header is there. -/
structure UsesPicture (slice : SliceHeader) : Prop where
  mapped : slice.mapped = true → slice.picture.mapping.isSome = true
  scaled : slice.scaled = true → slice.picture.scalingLists.isSome = true

theorem checkReferences_ensures {slice : SliceHeader} (huses : slice.UsesPicture) :
    (checkReferences apsOf slice).Ensures fun _ => slice.Supplied apsOf := by
  unfold checkReferences
  refine (checkAlf_ensures hfiled slice.applied.alf).bind fun _ half => ?_
  extract_lets -underBinder withMapping id
  have hwithMapping : (slice.mapped = true → ∃ used aps mapping,
        slice.picture.mapping = some used ∧ apsOf .lmcs used.aps = some aps ∧
          aps.content = .lmcs mapping) →
      (withMapping ()).Ensures fun _ => slice.Supplied apsOf := by
    intro hmapped
    unfold withMapping
    split
    case isFalse hscaled =>
      exact ensures_pure.mpr ⟨half, hmapped, fun h => absurd h hscaled⟩
    case isTrue hscaled =>
      obtain ⟨id, hid⟩ := Option.isSome_iff_exists.mp (huses.scaled hscaled)
      rw [hid, Option.getD_some]
      refine .bind (ensures_ofReference.mpr fun aps haps => haps) fun aps haps => ?_
      rw [ensures_refuseIf, bne_eq_false_iff_eq]
      intro hchroma
      obtain ⟨lists, hlists⟩ := (hfiled .scalingList id aps haps).exists_scalingList
      exact ⟨half, hmapped, fun _ => ⟨id, aps, lists, hid, haps, hlists, hchroma⟩⟩
  split
  case isFalse hmapped => exact hwithMapping fun h => absurd h hmapped
  case isTrue hmapped =>
    obtain ⟨used, hused⟩ := Option.isSome_iff_exists.mp (huses.mapped hmapped)
    have hid : id = used.aps := by
      show (slice.picture.mapping.map (·.aps)).getD 0 = used.aps
      rw [hused]
      rfl
    rw [hid]
    refine .bind (ensures_ofReference.mpr fun aps haps => haps) fun aps haps => ?_
    obtain ⟨mapping, hmapping⟩ := (hfiled .lmcs used.aps aps haps).exists_lmcs
    exact hwithMapping fun _ => ⟨used, aps, mapping, hused, haps, hmapping⟩

end

theorem readUse_ensures (c : Context) (inPicture : Bool) :
    (readUse c inPicture).Ensures (· = true → inPicture = true) := by
  unfold readUse
  split
  case isTrue h => exact ensures_of_forall fun _ _ => (Bool.and_eq_true_iff.mp h).1
  case isFalse h => exact ensures_pure.mpr fun h => (Bool.and_eq_true_iff.mp h).2

/-- What a slice header has been read from: each part has been read with the parts before it. -/
structure Composed (c : Context) (slice : SliceHeader) : Prop where
  picture : slice.picture = c.picture
  pps : slice.pps = c.pps
  mapped : (readUse c c.picture.mapping.isSome).Gives (.ok slice.mapped)
  scaled : (readUse c c.picture.scalingLists.isSome).Gives (.ok slice.scaled)
  active : (ActiveEntries.read slice.type
    (slice.applied.lists.list0.size, slice.applied.lists.list1.size)
    c.pps.references.defaultActiveMinus1).Gives (.ok slice.active)
  motion : (given (slice.type != .i) (SliceMotion.read slice.type c.pps c.picture
    slice.applied.lists slice.active.counts)).Gives (.ok slice.motion)

theorem read_composed (c : Context) : (read c).Ensures (·.Composed c) := by
  refine .andThen fun start => ensures_bind.mpr fun mapped hmapped => ?_
  refine ensures_bind.mpr fun scaled hscaled => ?_
  unfold readRest
  extract_lets pps sps inPicture
  refine .andThen fun lists => ?_
  extract_lets appliedLists
  refine ensures_bind.mpr fun active hactive => ensures_bind.mpr fun motion hmotion => ?_
  refine .andThen fun qp => .andThen fun saoLuma => .andThen fun saoChroma => ?_
  refine .andThen fun deblockingCoded => ?_
  extract_lets withDeblocking
  have hwithDeblocking : ∀ deblocking, (withDeblocking deblocking).Ensures (·.Composed c) :=
    fun deblocking => .andThen fun residuals => .andThen fun extensionLength => .andThen fun _ =>
      .andThen fun ctbs => .andThen fun streams =>
        ensures_pure.mpr ⟨rfl, rfl, hmapped, hscaled, hactive, hmotion⟩
  split <;> exact .andThen hwithDeblocking

theorem Composed.usesPicture {c : Context} {slice : SliceHeader} (h : slice.Composed c) :
    slice.UsesPicture := by
  have hmapped := readUse_ensures c _ slice.mapped h.mapped
  have hscaled := readUse_ensures c _ slice.scaled h.scaled
  rw [← h.picture] at hmapped hscaled
  exact ⟨hmapped, hscaled⟩

end SliceHeader

namespace Session

variable {s s' : Session}

/-- **Every adaptation parameter set that a slice relies on is available.**  In every session,
sets are filed under their own kind and id.  After a slice, those that it relies on are found and
hold what it needs. -/
theorem Reachable.supplied (hs : s.Reachable) : s.Filed ∧
    ∀ nal slice s', s.readSlice nal = (.ok slice, s') → slice.Supplied s'.adaptationSet? := by
  refine ⟨hs.filed, fun nal slice s' h => ?_⟩
  have hfiled : s'.Filed := by
    have hafter : (s.after (.slice nal)).Filed := (hs.after (.slice nal)).filed
    rwa [Session.after, h] at hafter
  obtain ⟨c, _, _, read, -, hread, hslice⟩ := exists_read_of_readSlice h
  have huses : read.UsesPicture := (SliceHeader.read_composed c read hread).usesPicture
  have huses : slice.UsesPicture := by
    rw [hslice]
    exact { huses with }
  obtain ⟨-, r', hrun⟩ := readSlice_eq_ok.mp h
  obtain ⟨elements, _, r₁, _, -, -, hcheck, ⟨⟩, rfl⟩ := run_sliceStructure_eq_ok.mp hrun
  have huses : elements.UsesPicture := { huses with }
  have hsupplied : elements.Supplied s'.adaptationSet? :=
    (SliceHeader.checkReferences_ensures hfiled huses).of_run (congrArg Prod.fst (hcheck r₁))
  exact { hsupplied with }

/-- A session with two sets of filters, a mapping of luma values and scaling matrices. -/
def filtered : Session :=
  (start false).after (.sequenceSet {
      header := { kind := .sps, temporalIdPlus1 := 1 }
      bytes := [0x00, 0x79, 0x00, 0x0b, 0x03, 0x33, 0xc0, 0x00, 0xe0, 0x10, 0x10, 0x10, 0x23, 0xd2,
        0x47, 0xfd, 0xff, 0xfd, 0x7a, 0xeb, 0xff, 0xbf, 0xff, 0xfe, 0xdf, 0x89, 0xfb, 0xff,
        0xff, 0xff, 0xff, 0x9f, 0xe5, 0x80, 0xfc] })
    |>.after (.pictureSet {
      header := { kind := .pps, temporalIdPlus1 := 1 }
      bytes := [0x00, 0x81, 0x00, 0x00, 0x10, 0x10, 0x10, 0x24, 0x55, 0x25, 0x7f, 0x7f, 0xff,
        0x3f, 0x0f, 0x66] })
    |>.after (.adaptationSet {
      header := { kind := .prefixAps, temporalIdPlus1 := 1 }
      bytes := [0x00, 0x89, 0x00, 0xfb, 0xff, 0xef, 0xf0, 0x00, 0x00, 0x40, 0x00, 0x00, 0x80] })
    |>.after (.adaptationSet {
      header := { kind := .prefixAps, temporalIdPlus1 := 1 }
      bytes := [0x00, 0x89, 0x02, 0xfb, 0xff, 0xef, 0xf0, 0x00, 0x00, 0x40, 0x00, 0x00, 0x80] })
    |>.after (.adaptationSet {
      header := { kind := .prefixAps, temporalIdPlus1 := 1 }
      bytes := [0x00, 0x89, 0x20, 0x70, 0x00, 0x04] })
    |>.after (.adaptationSet {
      header := { kind := .prefixAps, temporalIdPlus1 := 1 }
      bytes := [0x00, 0x89, 0x40, 0xff, 0xff, 0xff, 0xff, 0xff, 0xff, 0xfd] })
    |>.after (.pictureHeader {
      header := { kind := .pictureHeader, temporalIdPlus1 := 1 }
      bytes := [0x00, 0x99, 0x38, 0x07, 0xfc, 0x26, 0x2a, 0xbd, 0x75, 0xf5, 0xff, 0xd5, 0x2c] })

theorem filtered_reachable : filtered.Reachable :=
  .after _ (.after _ (.after _ (.after _ (.after _ (.after _ (.after _ (.start false)))))))

/-- A slice that uses all of them. -/
def filteredSlice : Nal where
  header := { kind := .trail, temporalIdPlus1 := 1 }
  bytes := [0x00, 0x01, 0x3f, 0xf9, 0x18, 0x8a, 0xe0, 0x0e, 0x00, 0xff, 0xff, 0xff, 0xff, 0xe3,
    0xa0]

theorem supplied_filteredSlice : filtered.Reachable ∧ ∃ slice s',
    filtered.readSlice filteredSlice = (.ok slice, s') ∧
    slice.applied.alf = {
      enabled := true, luma := [0], cb := true, cr := true, crossCb := some 0,
      crossCr := some 2 } ∧
    slice.mapped = true ∧ slice.scaled = true ∧ slice.Supplied s'.adaptationSet? ∧
    OffersFilters s'.adaptationSet? AlfFilters.crossCr 2 := by
  have hcheck : (match filtered.readSlice filteredSlice with
    | (.ok slice, _) => slice.applied.alf == {
          enabled := true, luma := [0], cb := true, cr := true, crossCb := some 0,
          crossCr := some 2 } && slice.mapped && slice.scaled
    | _ => false) = true := by
    decide +kernel
  split at hcheck
  · rename_i slice s' hread
    simp only [Bool.and_eq_true, beq_iff_eq] at hcheck
    obtain ⟨⟨half, hmapped⟩, hscaled⟩ := hcheck
    have hsupplied := filtered_reachable.supplied.2 _ slice s' hread
    have hfilters := hsupplied.alf (by rw [half])
    rw [half] at hfilters
    exact ⟨filtered_reachable, slice, s', hread, half, hmapped, hscaled, hsupplied, hfilters.crossCr 2 rfl⟩
  · cases hcheck

end Session

end CodedVideo
