import CodedVideo.Proofs.RefusedHeaders

/-!
# The two sets in use

A picture header puts two sets in use, a picture parameter set and the sequence parameter
set that this one was read against.  A session remembers both by their ids, while a picture
parameter set keeps its sequence parameter set itself.  So the two agree only as long as
nothing else comes to stand behind these ids.

`Session.agrees_iff_never_separates` says which requests set them apart, and that no other
request does: one that registers another set in a slot in use, and a picture header that
names a picture parameter set whose sequence parameter set has been replaced.
-/

namespace CodedVideo

open Parse

namespace ParameterStore

variable {α : Type} {s s' : ParameterStore α}

/-- Registering a set changes the one in use only if this has the same id. -/
theorem Updated.current? {id : Nat} {set : α} (h : s.Updated id set s') :
    s'.current? = if s.currentId = some id then some set else s.current? := by
  unfold ParameterStore.current?
  rw [h.currentId]
  cases s.currentId with
  | none => rfl
  | some current =>
    simp only [Option.bind_some, h.get?, Option.some_inj]

theorem current?_keepCurrent (s : ParameterStore α) : s.keepCurrent.current? = s.current? := by
  cases hcurrent : s.current? with
  | none =>
    rw [keepCurrent_of_none hcurrent]
    rfl
  | some set =>
    obtain ⟨id, hid, hset⟩ := Option.bind_eq_some_iff.mp hcurrent
    rw [ParameterStore.current?, currentId_keepCurrent, hcurrent, hid]
    show s.keepCurrent.get? id = some set
    rw [get?_keepCurrent, if_pos hid, hset]

end ParameterStore

namespace Session

/-! ### Agreement -/

/-- The sequence parameter set in use is the one of the picture parameter set in use. -/
def Agrees (s : Session) : Prop := ∀ pps ∈ s.activePps?, ∀ sps ∈ s.activeSps?, sps = pps.sps

instance (s : Session) : Decidable s.Agrees :=
  inferInstanceAs (Decidable (∀ pps ∈ s.activePps?, ∀ sps ∈ s.activeSps?, sps = pps.sps))

/-- The picture header in front of the reader names a picture parameter set. -/
def Names (s : Session) (r : BitReader) (pps : Pps) : Prop :=
  ∃ start r', PictureHeader.readStart.run r = (.ok start, r') ∧
    s.pictureSets.get? start.ppsId = some pps

/-- The sequence parameter set of a picture parameter set has been replaced. -/
def Outdates (s : Session) (pps : Pps) : Prop :=
  ∃ sps, s.sequenceSets.get? pps.sps.id = some sps ∧ sps ≠ pps.sps

/-- The request sets the two parameter sets in use apart. -/
inductive Separates (s : Session) : Request → Prop
  /-- Another sequence parameter set takes the slot in use. -/
  | sequenceSet {nal : Nal} {sps : Sps} {pps : Pps} {s' : Session} :
    s.readSps nal = (.ok sps, s') → s.sequenceSets.currentId = some sps.id →
      s.activePps? = some pps → sps ≠ pps.sps → Separates s (.sequenceSet nal)
  /-- A picture parameter set of another sequence parameter set takes the slot in use. -/
  | pictureSet {nal : Nal} {sps : Sps} {pps : Pps} {s' : Session} :
    s.readPps nal = (.ok pps, s') → s.pictureSets.currentId = some pps.id →
      s.activeSps? = some sps → sps ≠ pps.sps → Separates s (.pictureSet nal)
  /-- A picture header names a set that is out of date. -/
  | pictureHeader {nal : Nal} {pps : Pps} :
    nal.header.kind = .pictureHeader → s.Names (s.readerFor nal) pps → s.Outdates pps →
      Separates s (.pictureHeader nal)
  /-- The picture header that a slice carries names a set that is out of date. -/
  | slice {nal : Nal} {pps : Pps} {r : BitReader} :
    nal.header.kind ∈ sliceKinds → flag.run (s.readerFor nal) = (.ok true, r) →
      s.Names r pps → s.Outdates pps → Separates s (.slice nal)

variable {s s' : Session} {nal : Nal}

/-- Whether the sets agree depends on nothing but the sets. -/
theorem agrees_congr (hsps : s'.activeSps? = s.activeSps?) (hpps : s'.activePps? = s.activePps?) :
    s'.Agrees ↔ s.Agrees := by
  unfold Agrees
  rw [hsps, hpps]

theorem agrees_activate_iff {id : Nat} {pps : Pps} (h : s.pictureSets.get? id = some pps) :
    (s.activate id pps).Agrees ↔ ¬ s.Outdates pps := by
  have hpps : (s.activate id pps).activePps? = some pps := h
  have hsps : (s.activate id pps).activeSps? = s.sequenceSets.get? pps.sps.id := rfl
  unfold Agrees Outdates
  rw [hpps, hsps]
  constructor
  · rintro hagrees ⟨sps, hget, hne⟩
    exact hne (hagrees pps rfl sps hget)
  · rintro hcurrent _ ⟨⟩ sps hget
    by_contra hne
    exact hcurrent ⟨sps, hget, hne⟩

/-- A picture header keeps the sets together unless it names one that is out of date. -/
theorem Agrees.named_iff (h : s.Agrees) (r : BitReader) :
    (s.named r).Agrees ↔ ¬ ∃ pps, s.Names r pps ∧ s.Outdates pps := by
  unfold named Names
  rcases PictureHeader.readStart.run r with ⟨e | start, r₁⟩
  · refine ⟨fun _ => ?_, fun _ => h⟩
    rintro ⟨_, ⟨_, _, ⟨⟩, _⟩, _⟩
  · dsimp only
    cases hget : s.pictureSets.get? start.ppsId with
    | none =>
      refine ⟨fun _ => ?_, fun _ => h⟩
      rintro ⟨_, ⟨_, _, ⟨⟩, hsome⟩, _⟩
      cases hget.symm.trans hsome
    | some pps =>
      refine (agrees_activate_iff hget).trans (not_congr ⟨fun houtdates => ?_, ?_⟩)
      · exact ⟨pps, ⟨start, r₁, rfl, hget⟩, houtdates⟩
      · rintro ⟨_, ⟨_, _, ⟨⟩, hsome⟩, houtdates⟩
        cases hget.symm.trans hsome
        exact houtdates

/-! ### One request -/

/-- A refused set leaves the sets in use as they are. -/
theorem Commits.agrees_iff {α : Type} {registered : α → Session → Prop}
    {r : Except ParseError α × Session} (hr : s.Commits registered r) (h : s.Agrees)
    {separates : Prop} (hrefused : ∀ e s', r = (.error e, s') → ¬ separates)
    (hregistered : ∀ set s', r = (.ok set, s') → registered set s' → (s'.Agrees ↔ ¬ separates)) :
    r.2.Agrees ↔ ¬ separates := by
  rcases r with ⟨e | set, s'⟩
  · obtain ⟨rfl, -⟩ := hr
    exact ⟨fun _ => hrefused e s' rfl, fun _ => h⟩
  · exact hregistered set s' rfl hr

theorem Sized.agrees_readSps_iff (hsized : s.Sized) (h : s.Agrees) (nal : Nal) :
    (s.readSps nal).2.Agrees ↔ ¬ s.Separates (.sequenceSet nal) := by
  refine (hsized.commits nal).sequenceSet.agrees_iff h (fun e s' hread => ?_) ?_
  · rintro ⟨hother, -⟩
    cases hread.symm.trans hother
  · rintro sps _ hread ⟨sets, hsets, rfl⟩
    have hactive : Session.activeSps? { s with sequenceSets := sets } =
        if s.sequenceSets.currentId = some sps.id then some sps else s.activeSps? :=
      hsets.current?
    by_cases hcurrent : s.sequenceSets.currentId = some sps.id
    · rw [if_pos hcurrent] at hactive
      constructor
      · rintro hagrees (⟨hother, -, hpps, hne⟩ | _ | _ | _)
        cases hread.symm.trans hother
        exact hne (hagrees _ hpps sps hactive)
      · intro hkept pps hpps sps' hsps
        cases hactive.symm.trans hsps
        by_contra hne
        exact hkept (.sequenceSet hread hcurrent hpps hne)
    · rw [if_neg hcurrent] at hactive
      refine (agrees_congr hactive rfl).trans ⟨fun _ => ?_, fun _ => h⟩
      rintro (⟨hother, hsame, -⟩ | _ | _ | _)
      cases hread.symm.trans hother
      exact hcurrent hsame

theorem Sized.agrees_readPps_iff (hsized : s.Sized) (h : s.Agrees) (nal : Nal) :
    (s.readPps nal).2.Agrees ↔ ¬ s.Separates (.pictureSet nal) := by
  refine (hsized.commits nal).pictureSet.agrees_iff h (fun e s' hread => ?_) ?_
  · rintro (_ | ⟨hother, -⟩ | _ | _)
    cases hread.symm.trans hother
  · rintro pps _ hread ⟨sets, hsets, rfl⟩
    have hactive : Session.activePps? { s with pictureSets := sets } =
        if s.pictureSets.currentId = some pps.id then some pps else s.activePps? :=
      hsets.current?
    by_cases hcurrent : s.pictureSets.currentId = some pps.id
    · rw [if_pos hcurrent] at hactive
      constructor
      · rintro hagrees (_ | ⟨hother, -, hsps, hne⟩ | _ | _)
        cases hread.symm.trans hother
        exact hne (hagrees pps hactive _ hsps)
      · intro hkept pps' hpps sps hsps
        cases hactive.symm.trans hpps
        by_contra hne
        exact hkept (.pictureSet hread hcurrent hsps hne)
    · rw [if_neg hcurrent] at hactive
      have hsps : Session.activeSps? { s with pictureSets := sets } = s.activeSps? := rfl
      refine (agrees_congr hsps hactive).trans ⟨fun _ => ?_, fun _ => h⟩
      rintro (_ | ⟨hother, hsame, -⟩ | _ | _)
      cases hread.symm.trans hother
      exact hcurrent hsame

theorem Agrees.readPictureHeader_iff (h : s.Agrees) (nal : Nal) :
    (s.readPictureHeader nal).2.Agrees ↔ ¬ s.Separates (.pictureHeader nal) := by
  have hmem : nal.header.kind ∈ [Nal.Kind.pictureHeader] ↔ nal.header.kind = .pictureHeader :=
    List.mem_singleton
  unfold readPictureHeader
  rw [session_runStep]
  by_cases hkind : nal.header.kind = .pictureHeader
  · rw [if_pos (hmem.mpr hkind)]
    have hnamed : ((separatePicture nal.header.layer).run
        ⟨s, s.readerFor nal⟩).2.session.Agrees ↔ (s.named (s.readerFor nal)).Agrees := by
      rcases session_separatePicture nal.header.layer s (s.readerFor nal) with
        ⟨_, -, hsession⟩ | ⟨_, _, -, -, hsession⟩
      · rw [hsession]
      · rw [hsession]
        exact agrees_congr rfl rfl
    refine (hnamed.trans (h.named_iff _)).trans (not_congr ⟨?_, ?_⟩)
    · rintro ⟨pps, hnames, houtdates⟩
      exact .pictureHeader hkind hnames houtdates
    · rintro (_ | _ | ⟨-, hnames, houtdates⟩ | _)
      exact ⟨_, hnames, houtdates⟩
  · rw [if_neg (mt hmem.mp hkind)]
    refine ⟨fun _ => ?_, fun _ => h⟩
    rintro (_ | _ | ⟨hpicture, -⟩ | _)
    exact hkind hpicture

theorem Agrees.readSlice_iff (h : s.Agrees) (nal : Nal) :
    (s.readSlice nal).2.Agrees ↔ ¬ s.Separates (.slice nal) := by
  have hseparates : s.Separates (.slice nal) ↔ nal.header.kind ∈ sliceKinds ∧
      ∃ r, flag.run (s.readerFor nal) = (.ok true, r) ∧
        ∃ pps, s.Names r pps ∧ s.Outdates pps := by
    constructor
    · rintro (_ | _ | _ | ⟨hkind, hflag, hnames, houtdates⟩)
      exact ⟨hkind, _, hflag, _, hnames, houtdates⟩
    · rintro ⟨hkind, r, hflag, pps, hnames, houtdates⟩
      exact .slice hkind hflag hnames houtdates
  rw [hseparates]
  unfold readSlice
  rw [session_runStep]
  by_cases hkind : nal.header.kind ∈ sliceKinds
  · rw [if_pos hkind, session_sliceStructure, Step.run_ofParse_bind]
    rcases flag.run (s.readerFor nal) with ⟨e | carriesPicture, r⟩
    · refine ⟨fun _ => ?_, fun _ => h⟩
      rintro ⟨-, _, ⟨⟩, -⟩
    · cases carriesPicture with
      | false =>
        dsimp only
        rw [still_pictureOfSlice]
        refine ⟨fun _ => ?_, fun _ => h⟩
        rintro ⟨-, _, ⟨⟩, -⟩
      | true =>
        dsimp only
        rw [session_pictureOfSlice]
        have hcarried : (s.carried nal.header.layer r).Agrees ↔ (s.named r).Agrees := by
          unfold carried
          split
          · rfl
          · exact agrees_congr rfl rfl
        refine (hcarried.trans (h.named_iff r)).trans (not_congr ⟨?_, ?_⟩)
        · intro hnames
          exact ⟨hkind, r, rfl, hnames⟩
        · rintro ⟨-, _, ⟨⟩, hnames⟩
          exact hnames
  · rw [if_neg hkind]
    exact ⟨fun _ hmem => hkind hmem.1, fun _ => h⟩

/-- A reset keeps both sets in use, or neither. -/
theorem Agrees.reset (h : s.Agrees) (keeping : Bool) : (s.reset keeping).Agrees := by
  cases keeping with
  | false => rintro _ ⟨⟩
  | true =>
    refine (agrees_congr ?_ ?_).mpr h
    · exact s.sequenceSets.current?_keepCurrent
    · exact s.pictureSets.current?_keepCurrent

/-- **One request keeps the sets together, or is one of those that set them apart.** -/
theorem Sized.agrees_after_iff (hsized : s.Sized) (h : s.Agrees) (request : Request) :
    (s.after request).Agrees ↔ ¬ s.Separates request := by
  cases request with
  | operatingPoint nal =>
    refine (hsized.commits nal).operatingPoint.agrees_iff h (fun _ _ _ => nofun) ?_
    rintro _ _ - ⟨_, -, rfl⟩
    exact (agrees_congr rfl rfl).trans ⟨fun _ => nofun, fun _ => h⟩
  | videoSet nal =>
    refine (hsized.commits nal).videoSet.agrees_iff h (fun _ _ _ => nofun) ?_
    rintro _ _ - ⟨_, -, rfl⟩
    exact (agrees_congr rfl rfl).trans ⟨fun _ => nofun, fun _ => h⟩
  | sequenceSet nal => exact hsized.agrees_readSps_iff h nal
  | pictureSet nal => exact hsized.agrees_readPps_iff h nal
  | adaptationSet nal =>
    refine (hsized.commits nal).adaptationSet.agrees_iff h (fun _ _ _ => nofun) ?_
    rintro aps _ - ⟨sets, -, rfl⟩
    refine Iff.trans ?_ ⟨fun _ => nofun, fun _ => h⟩
    cases aps.kind <;> exact agrees_congr rfl rfl
  | delimiter nal => exact ⟨fun _ => nofun, fun _ => h⟩
  | pictureHeader nal => exact h.readPictureHeader_iff nal
  | slice nal => exact h.readSlice_iff nal
  | reset keeping => exact ⟨fun _ => nofun, fun _ => h.reset keeping⟩

/-! ### Runs -/

/-- The session after a sequence of requests. -/
def afterAll (s : Session) (requests : List Request) : Session := requests.foldl after s

theorem Reachable.afterAll (h : s.Reachable) (requests : List Request) :
    (s.afterAll requests).Reachable := by
  induction requests generalizing s with
  | nil => exact h
  | cons first rest ih => exact ih (h.after first)

/-- The sets agree at all times of a run exactly if they do in the beginning and no request
sets them apart. -/
theorem Sized.agrees_afterAll_iff (hsized : s.Sized) (h : s.Agrees) (requests : List Request) :
    (∀ before, before <+: requests → (s.afterAll before).Agrees) ↔
      ∀ before request, before ++ [request] <+: requests →
        ¬ (s.afterAll before).Separates request := by
  induction requests generalizing s with
  | nil =>
    constructor
    · intro _ before request hprefix
      have hnil := List.prefix_nil.mp hprefix
      simp at hnil
    · intro _ before hprefix
      obtain rfl := List.prefix_nil.mp hprefix
      exact h
  | cons first rest ih =>
    constructor
    · intro hagrees
      have hfirst : (s.after first).Agrees :=
        hagrees [first] (List.prefix_append [first] rest)
      have hrest := (ih (hsized.after first) hfirst).mp fun before hprefix =>
        hagrees (first :: before) ((List.prefix_cons_inj first).mpr hprefix)
      intro before request hprefix
      cases before with
      | nil =>
        obtain ⟨rfl, -⟩ := List.cons_prefix_cons.mp hprefix
        exact (hsized.agrees_after_iff h request).mp hfirst
      | cons other before =>
        obtain ⟨rfl, htail⟩ := List.cons_prefix_cons.mp hprefix
        exact hrest before request htail
    · intro hkept
      have hfirst : (s.after first).Agrees :=
        (hsized.agrees_after_iff h first).mpr
          (hkept [] first (List.prefix_append [first] rest))
      have hrest := (ih (hsized.after first) hfirst).mpr fun before request hprefix =>
        hkept (first :: before) request ((List.prefix_cons_inj first).mpr hprefix)
      intro before hprefix
      cases before with
      | nil => exact h
      | cons other before =>
        obtain ⟨rfl, htail⟩ := List.cons_prefix_cons.mp hprefix
        exact hrest before htail

/-- **The sets in use agree until a request sets them apart.** -/
theorem agrees_iff_never_separates (escaped : Bool) (requests : List Request) :
    (∀ before, before <+: requests → ((start escaped).afterAll before).Agrees) ↔
      ∀ before request, before ++ [request] <+: requests →
        ¬ ((start escaped).afterAll before).Separates request :=
  (start_sized escaped).agrees_afterAll_iff (fun _ h => by cases h) requests

/-- A sequence parameter set.  The bytes that vary are the one that starts with its id and
the one with the number of low bits of order counts. -/
def smallPictures (id counts : UInt8) : Nal where
  header := { kind := .sps, temporalIdPlus1 := 1 }
  bytes := [0x00, 0x79, id, 0x09, 0x02, 0x33, 0x80, 0x00, 0x00, 0x82, 0x04, 0x11, counts, 0x02,
    0xf6, 0xc3, 0xe0, 0x30, 0x10, 0x40, 0x00, 0x10]

/-- A picture parameter set; the byte that varies names its sequence parameter set. -/
def smallSlices (sequence : UInt8) : Nal where
  header := { kind := .pps, temporalIdPlus1 := 1 }
  bytes := [0x00, 0x81, 0x00, sequence, 0x41, 0x02, 0x08, 0x98, 0x40, 0x80]

/-- A session with two sequence parameter sets, the first of which a picture header has put
in use. -/
def firstInUse : Session :=
  (start false).afterAll [.sequenceSet (smallPictures 0x00 0x88),
    .sequenceSet (smallPictures 0x10 0x88), .pictureSet (smallSlices 0x00),
    .pictureHeader {
      header := { kind := .pictureHeader, temporalIdPlus1 := 1 }
      bytes := [0x00, 0x99, 0x88, 0x04] }]

/-- The sets in use agree at first.  Then a picture parameter set of the second sequence
parameter set, or another sequence parameter set with the id of the first, sets them apart. -/
theorem sets_in_use_disagree : firstInUse.Reachable ∧ firstInUse.Agrees ∧
    ¬ (firstInUse.after (.pictureSet (smallSlices 0x40))).Agrees ∧
    ¬ (firstInUse.after (.sequenceSet (smallPictures 0x00 0x80))).Agrees := by
  refine ⟨(Reachable.start false).afterAll _, ?_⟩
  decide +kernel

end Session

end CodedVideo
