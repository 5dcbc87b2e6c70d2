import CodedVideo.Proofs.QpRange

/-!
# The settings that apply to a slice

Loop filters, reference lists, sample adaptive offsets, deblocking and weights stand either in
the picture header or in the slice headers, and the picture parameter set says where.  A slice
inherits what the picture header carries (`inherit`).  It also inherits where it could have
signalled something and has not, although the picture header has not been asked then.  This
is right because a picture header keeps default values for all that it does not carry
(`PictureHeader.Bare`): those of the picture parameter set for deblocking, and nothing at all
for the rest.

Both headers have to be read against the same picture parameter set for this, and they are if
the slice carries its picture header: see `Session.effective_of_readSlice`.
-/

namespace CodedVideo

open Parse

/-- What is inherited although it is not carried is a default value. -/
theorem inherit_eq {α : Type} {inHeader signalled enabled : Bool} {ofPicture fallback : α}
    (own : α) (hfallback : inHeader = false → ofPicture = fallback)
    (hsignalled : inHeader = false → signalled = enabled) :
    inherit inHeader ofPicture signalled own =
      if inHeader then ofPicture else if enabled then own else fallback := by
  unfold inherit
  cases inHeader with
  | true => rfl
  | false =>
    rw [hfallback rfl, hsignalled rfl]
    rfl

/-! ### What a picture header keeps -/

namespace PictureHeader

/-- The picture header has default values for all that it does not carry. -/
structure Bare (pps : Pps) (h : PictureHeader) : Prop where
  alf : pps.inPictureHeader.alf = false → h.alf = {}
  lists : pps.inPictureHeader.lists = false → h.lists = {}
  saoLuma : pps.inPictureHeader.sao = false → h.saoLuma = false
  saoChroma : pps.inPictureHeader.sao = false → h.saoChroma = false
  deblocking : pps.deblocking.inPictureHeader = false → h.deblocking = pps.deblocking.settings
  weights : pps.inPictureHeader.weights = false → h.motion.weights = none

variable {pps : Pps} {h : PictureHeader}

theorem bare_initial (pps : Pps) (start : PictureStart) : (initial pps start).Bare pps :=
  ⟨fun _ => rfl, fun _ => rfl, fun _ => rfl, fun _ => rfl, fun _ => rfl, fun _ => rfl⟩

theorem Bare.readCount (hh : h.Bare pps) : (readCount pps.sps h).Ensures (·.Bare pps) := by
  have hkept : ∀ lsb recoveryCount msbCycle, Bare pps { h with lsb, recoveryCount, msbCycle } :=
    fun _ _ _ => ⟨hh.alf, hh.lists, hh.saoLuma, hh.saoChroma, hh.deblocking, hh.weights⟩
  cases hlength : pps.sps.headers.msbCycleLengthMinus1 <;>
    simp [PictureHeader.readCount, hlength, hkept]

theorem Bare.readChoices (hh : h.Bare pps) : (readChoices pps h).Ensures (·.Bare pps) := by
  have hkept : ∀ alf mapping scalingLists, (pps.inPictureHeader.alf = false → alf = default) →
      Bare pps { h with alf, mapping, scalingLists } :=
    fun _ _ _ half => ⟨half, hh.lists, hh.saoLuma, hh.saoChroma, hh.deblocking, hh.weights⟩
  cases hin : pps.inPictureHeader.alf <;> simp [PictureHeader.readChoices, hin, hkept]

theorem Bare.readScope (hh : h.Bare pps) (references : Parse Nat) :
    (readScope pps references h).Ensures (·.Bare pps) := by
  have hkept : ∀ boundaries output lists,
      (pps.inPictureHeader.lists = false → lists = default) →
        Bare pps { h with boundaries, output, lists } :=
    fun _ _ _ hlists => ⟨hh.alf, hlists, hh.saoLuma, hh.saoChroma, hh.deblocking, hh.weights⟩
  cases hin : pps.inPictureHeader.lists <;> simp [PictureHeader.readScope, hin, hkept]

theorem Bare.readIntra (hh : h.Bare pps) : (readIntra pps h).Ensures (·.Bare pps) := by
  have hkept : ∀ treesOverridden intraSubdivision trees,
      Bare pps { h with treesOverridden, intraSubdivision, trees } :=
    fun _ _ _ => ⟨hh.alf, hh.lists, hh.saoLuma, hh.saoChroma, hh.deblocking, hh.weights⟩
  simp [PictureHeader.readIntra, hkept]

/-- Weights are read only if the picture header carries them. -/
theorem weights_readMotion (pps : Pps) (lists : RefLists) (m : PictureMotion) :
    (readMotion pps lists m).Ensures fun motion =>
      pps.inPictureHeader.weights = false → motion.weights = none := by
  cases hin : pps.inPictureHeader.weights with
  | true => simp
  | false => simp [readMotion, hin]

theorem Bare.readInter (hh : h.Bare pps) : (readInter pps h).Ensures (·.Bare pps) := by
  unfold PictureHeader.readInter
  split
  · exact ensures_pure.mpr hh
  · dsimp only
    have hkept : ∀ interSubdivision trees,
        (readMotion pps h.lists h.motion).Ensures fun motion =>
          Bare pps { h with interSubdivision, motion, trees } := fun _ _ =>
      (weights_readMotion pps h.lists h.motion).mono fun _ hweights =>
        ⟨hh.alf, hh.lists, hh.saoLuma, hh.saoChroma, hh.deblocking, hweights⟩
    simp [hkept]

theorem Bare.readFilters (hh : h.Bare pps) : (readFilters pps h).Ensures (·.Bare pps) := by
  have hkept : ∀ qpDelta jointSign saoLuma saoChroma deblockingCoded deblocking extensionLength,
      (pps.inPictureHeader.sao = false → saoLuma = false) →
      (pps.inPictureHeader.sao = false → saoChroma = false) →
      (pps.deblocking.inPictureHeader = false → deblocking = h.deblocking) →
        Bare pps { h with
          qpDelta, jointSign, saoLuma, saoChroma, deblockingCoded, deblocking, extensionLength } :=
    fun _ _ _ _ _ _ _ hluma hchroma hdeblocking =>
      ⟨hh.alf, hh.lists, hluma, hchroma, fun hout => (hdeblocking hout).trans (hh.deblocking hout),
        hh.weights⟩
  cases hsao : pps.inPictureHeader.sao <;> cases hdeblocking : pps.deblocking.inPictureHeader <;>
    simp [PictureHeader.readFilters, flagIf, hsao, hdeblocking, hkept]

/-- **A picture header has default values for all that it does not carry.** -/
theorem bare_readRest (pps : Pps) (references : Parse Nat) (start : PictureStart) :
    (readRest pps references start).Ensures (·.Bare pps) :=
  (bare_initial pps start).readCount.bind fun _ h => h.readChoices.bind fun _ h =>
    (h.readScope references).bind fun _ h => h.readIntra.bind fun _ h => h.readInter.bind fun _ h =>
      h.readFilters

end PictureHeader

/-! ### What a slice inherits -/

/-- The weights are inherited, and the slice has some of its own exactly if it signals them. -/
structure SliceMotion.Inherits (type : SliceType) (pps : Pps) (picture : PictureHeader)
    (m : SliceMotion) : Prop where
  weights : m.weights =
    inherit pps.inPictureHeader.weights picture.motion.weights (hasWeights type pps) m.ownWeights
  ownWeights : m.ownWeights.isSome = hasWeights type pps

theorem SliceMotion.inherits_read (type : SliceType) (pps : Pps) (picture : PictureHeader)
    (lists : RefLists) (counts : Nat × Nat) :
    (read type pps picture lists counts).Ensures (Inherits type pps picture) := by
  unfold read
  refine .andThen fun cabacInit => .andThen fun ⟨ownCollocated, collocated⟩ => ?_
  dsimp -zeta only
  extract_lets weighted withWeights
  have hwithWeights : ∀ ownWeights, ownWeights.isSome = weighted →
      (withWeights ownWeights).Ensures (Inherits type pps picture) :=
    fun _ hown => ensures_pure.mpr ⟨rfl, hown⟩
  split
  case isTrue hweighted =>
    rw [ensures_bind, ensures_map]
    exact ensures_of_forall fun _ => hwithWeights _ hweighted.symm
  case isFalse hplain =>
    exact hwithWeights none (Bool.eq_false_iff.mpr hplain).symm

namespace SliceHeader

/-- What applies to the slice is what it signals or what it inherits. -/
structure Inherits (c : Context) (h : SliceHeader) : Prop where
  alf : h.applied.alf = inherit c.pps.inPictureHeader.alf c.picture.alf (hasAlf c) h.own.alf
  lists : h.applied.lists =
    inherit c.pps.inPictureHeader.lists c.picture.lists (hasLists c) h.own.lists
  saoLuma : h.applied.saoLuma =
    inherit c.pps.inPictureHeader.sao c.picture.saoLuma (hasSao c) h.own.saoLuma
  saoChroma : h.applied.saoChroma =
    inherit c.pps.inPictureHeader.sao c.picture.saoChroma (hasSao c) h.own.saoChroma
  deblocking : h.applied.deblocking =
    inherit c.pps.deblocking.inPictureHeader c.picture.deblocking h.deblockingCoded
      h.own.deblocking
  motion : h.type ≠ .i → h.motion.Inherits h.type c.pps c.picture

theorem inherits_readRest (c : Context) (start : Start) (mapped scaled : Bool) :
    (readRest c start mapped scaled).Ensures (·.Inherits c) := by
  unfold readRest
  extract_lets pps sps inPicture
  refine .andThen fun lists => ?_
  extract_lets appliedLists
  refine .andThen fun active => ?_
  refine .bind (P := fun m => start.type ≠ .i → m.Inherits start.type pps c.picture) ?_
    fun motion hmotion => ?_
  · rw [ensures_given]
    have hread := SliceMotion.inherits_read start.type pps c.picture appliedLists active.counts
    refine ⟨fun _ => hread.mono fun _ h _ => h, fun hi hne => ?_⟩
    simp [hne] at hi
  refine .andThen fun qp => .andThen fun saoLuma => .andThen fun saoChroma => ?_
  refine .andThen fun deblockingCoded => ?_
  extract_lets withDeblocking
  have hwithDeblocking : ∀ deblocking, (withDeblocking deblocking).Ensures (·.Inherits c) :=
    fun deblocking => .andThen fun residuals => .andThen fun extensionLength => .andThen fun _ =>
      .andThen fun ctbs => .andThen fun streams =>
        ensures_pure.mpr ⟨rfl, rfl, rfl, rfl, rfl, hmotion⟩
  split <;> exact .andThen hwithDeblocking

theorem inherits_read (c : Context) : (read c).Ensures (·.Inherits c) :=
  .andThen fun start => .andThen fun mapped => .andThen fun scaled =>
    inherits_readRest c start mapped scaled

/-- Which settings apply to a slice: those of the picture header if the picture parameter set
says so, then those that the slice signals itself, and default values otherwise. -/
structure Effective (idr : Bool) (h : SliceHeader) : Prop where
  alf : h.applied.alf =
    if h.pps.inPictureHeader.alf then h.picture.alf
    else if h.pps.sps.filters.alf then h.own.alf else {}
  saoLuma : h.applied.saoLuma =
    if h.pps.inPictureHeader.sao then h.picture.saoLuma
    else if h.pps.sps.filters.sao then h.own.saoLuma else false
  saoChroma : h.applied.saoChroma =
    if h.pps.inPictureHeader.sao then h.picture.saoChroma
    else if h.pps.sps.filters.sao then h.own.saoChroma else false
  /-- An IDR slice has no lists of its own unless the sequence parameter set provides for
  them. -/
  lists : h.applied.lists =
    if h.pps.inPictureHeader.lists then h.picture.lists
    else if idr && !h.pps.sps.references.listsInIdr then {} else h.own.lists
  deblocking : h.applied.deblocking =
    if h.pps.deblocking.inPictureHeader then h.picture.deblocking
    else if h.deblockingCoded then h.own.deblocking else h.pps.deblocking.settings
  /-- Without weights that apply, all entries have the default ones. -/
  weights : h.type ≠ .i → h.motion.weights =
    if h.pps.inPictureHeader.weights then h.picture.motion.weights
    else if SliceMotion.hasWeights h.type h.pps then h.motion.ownWeights else none
  /-- A slice signals weights for the kind of prediction that the picture parameter set names. -/
  ownWeights : h.type ≠ .i → (h.motion.ownWeights.isSome = true ↔
    h.pps.inPictureHeader.weights = false ∧
      (h.pps.references.weighted = true ∧ h.type = .p ∨
        h.pps.references.weightedBi = true ∧ h.type = .b))

/-- What is inherited from a picture header read against the same set is effective. -/
theorem Inherits.effective {c : Context} {h : SliceHeader} (hh : h.Inherits c)
    (hagainst : h.ReadAgainst c) (hbare : c.picture.Bare c.pps) : h.Effective c.kind.isIdr := by
  constructor
  case alf =>
    rw [hh.alf, hagainst.picture, hagainst.pps]
    exact inherit_eq _ hbare.alf fun hout => by simp [hasAlf, hout]
  case saoLuma =>
    rw [hh.saoLuma, hagainst.picture, hagainst.pps]
    exact inherit_eq _ hbare.saoLuma fun hout => by simp [hasSao, hout]
  case saoChroma =>
    rw [hh.saoChroma, hagainst.picture, hagainst.pps]
    exact inherit_eq _ hbare.saoChroma fun hout => by simp [hasSao, hout]
  case lists =>
    rw [hh.lists, hagainst.picture, hagainst.pps]
    have hlists : inherit c.pps.inPictureHeader.lists c.picture.lists (hasLists c) h.own.lists =
        if c.pps.inPictureHeader.lists then c.picture.lists
        else if !c.kind.isIdr || c.pps.sps.references.listsInIdr then h.own.lists else {} :=
      inherit_eq _ hbare.lists fun hout => by simp [hasLists, hout]
    rw [hlists]
    cases c.kind.isIdr <;> cases c.pps.sps.references.listsInIdr <;> rfl
  case deblocking =>
    rw [hh.deblocking, hagainst.picture, hagainst.pps]
    exact inherit_eq _ hbare.deblocking fun _ => rfl
  case weights =>
    intro hinter
    rw [(hh.motion hinter).weights, hagainst.picture, hagainst.pps]
    exact inherit_eq _ hbare.weights fun _ => rfl
  case ownWeights =>
    intro hinter
    rw [(hh.motion hinter).ownWeights, hagainst.pps, SliceMotion.hasWeights]
    simp

end SliceHeader

namespace Session

variable {s : Session}

/-- **Which settings apply to a slice that carries its picture header.**  Both headers are read
against the same picture parameter set, and each of the settings is that of the picture header,
that of the slice or a default value, as the set says. -/
theorem effective_of_readSlice {nal : Nal} {slice : SliceHeader}
    (h : (s.readSlice nal).1 = .ok slice) (hcarries : slice.carriesPicture = true) :
    s.pictureSets.get? slice.picture.start.ppsId = some slice.pps ∧
      slice.Effective nal.header.kind.isIdr := by
  obtain ⟨c, r, reading, read, hcontext, hread, hslice⟩ :=
    exists_read_of_readSlice (Prod.ext h rfl)
  obtain ⟨hkind, -, hcarried⟩ := exists_of_sliceContext hcontext
  obtain ⟨hpps, reading', hrun⟩ := hcarried hcarries
  have hagainst : read.ReadAgainst c := SliceHeader.read_against c read hread
  -- The picture header has been read against the set that the slice is read with.
  obtain ⟨pps, references, hfound, hrest⟩ := exists_readRest_of_run hrun
  obtain rfl := Option.some.inj (hfound.symm.trans hpps)
  have hbare : c.picture.Bare c.pps := PictureHeader.bare_readRest _ _ _ _ hrest
  have heffective := (SliceHeader.inherits_read c read hread).effective hagainst hbare
  rw [← hagainst.picture, ← hagainst.pps] at hpps
  rw [hkind] at heffective
  rw [hslice]
  exact ⟨hpps, heffective.alf, heffective.saoLuma, heffective.saoChroma, heffective.lists,
    heffective.deblocking, heffective.weights, heffective.ownWeights⟩

/-- A session with the sets for a slice that predicts from two pictures. -/
def weighted : Session :=
  (start true).after (.sequenceSet {
      header := { kind := .sps, temporalIdPlus1 := 1 }
      bytes := [0x00, 0x79, 0x00, 0x31, 0x03, 0x23, 0xc0, 0x00, 0x00, 0xe0, 0x61, 0x04, 0x20, 0x9c,
        0x2d, 0xdf, 0x39, 0x0a, 0x88, 0x4f, 0xfb, 0x7a, 0x15, 0x42, 0x04, 0x23, 0x56, 0xa5,
        0x7e, 0xe6, 0x97, 0xba, 0x26, 0xc9, 0xe1, 0x50, 0x4a, 0x42, 0x90, 0x0b, 0x9e, 0x62,
        0xc0, 0xff, 0xfe, 0xb8, 0x94, 0x62, 0xc2, 0xe3, 0x54, 0x28, 0x64, 0x50, 0x40] })
    |>.after (.pictureSet {
      header := { kind := .pps, temporalIdPlus1 := 1 }
      bytes := [0x00, 0x81, 0x00, 0x00, 0x84, 0x10, 0xda, 0x23, 0xb8, 0x91, 0x7a, 0x91, 0x73, 0x08,
        0x5c, 0x40] })
    |>.after (.adaptationSet {
      header := { kind := .prefixAps, temporalIdPlus1 := 1 }
      bytes := [0x00, 0x89, 0x20, 0x70, 0x00, 0x04] })
    |>.after (.adaptationSet {
      header := { kind := .prefixAps, temporalIdPlus1 := 1 }
      bytes := [0x00, 0x89, 0x46, 0xff, 0xff, 0xff, 0xff, 0xff, 0xff, 0xfd] })

/-- A slice that turns deblocking on and has weights of its own. -/
def weightedSlice : Nal where
  header := { kind := .trail, temporalIdPlus1 := 1 }
  bytes := [0x00, 0x01, 0x9c, 0xb7, 0xcc, 0x77, 0xff, 0xf8, 0x59, 0x68, 0x82, 0xe0, 0x10, 0x10,
    0x52, 0x03, 0x14, 0x09, 0x00, 0xc4, 0x01, 0x74, 0x60, 0x3f, 0x82, 0x41, 0xe0, 0x0a, 0xe0,
    0x0a, 0xe0, 0x07, 0xfc, 0x42, 0xbf, 0x39, 0x44, 0x8b, 0x36]

/-- The slice has its own settings for deblocking, which differ from those of the set, and
its own weights. -/
theorem effective_weightedSlice : ∃ slice, (weighted.readSlice weightedSlice).1 = .ok slice ∧
    slice.carriesPicture = true ∧ slice.type = .b ∧
    slice.applied.deblocking = slice.own.deblocking ∧
    slice.own.deblocking ≠ slice.pps.deblocking.settings ∧
    slice.motion.weights = slice.motion.ownWeights ∧ slice.motion.ownWeights.isSome := by
  have hcheck : (match (weighted.readSlice weightedSlice).1 with
    | .ok slice => slice.carriesPicture && slice.type == .b &&
        !slice.pps.deblocking.inPictureHeader && slice.deblockingCoded &&
        decide (slice.own.deblocking ≠ slice.pps.deblocking.settings) &&
        !slice.pps.inPictureHeader.weights && SliceMotion.hasWeights slice.type slice.pps &&
        slice.motion.ownWeights.isSome
    | .error _ => false) = true := by
    decide +kernel
  split at hcheck
  · rename_i slice hslice
    simp only [Bool.and_eq_true, Bool.not_eq_true', beq_iff_eq, decide_eq_true_eq] at hcheck
    obtain ⟨⟨⟨⟨⟨⟨⟨hcarries, htype⟩, hset⟩, hcoded⟩, hdiffer⟩, hout⟩, hweights⟩, hown⟩ := hcheck
    have heffective := (effective_of_readSlice hslice hcarries).2
    refine ⟨slice, hslice, hcarries, htype, ?_, hdiffer, ?_, hown⟩
    · rw [heffective.deblocking, hset, hcoded]
      rfl
    · rw [heffective.weights (by rw [htype]; decide), hout, hweights]
      rfl
  · cases hcheck

end Session

end CodedVideo
