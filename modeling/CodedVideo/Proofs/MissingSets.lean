import CodedVideo.Decoder
import CodedVideo.Proofs.Outcome
import CodedVideo.Proofs.Reads

/-!
# Headers whose parameter sets are missing

Besides the picture parameter set that they name, headers look up other sets for two reasons
only.  Slices may name adaptation parameter sets, and reference lists depend on how many
layers there are, which a video parameter set tells.

Where these sets are missing, a header is read as before or refused for a missing set
(`PictureHeader.lacks_readRest`, `SliceHeader.lacks_read`).  Which of the two it is depends
on the sets and the elements read alone: `Sps.NeedsVps` and the presence of lists for video
parameter sets, `SliceHeader.NeedsAps` for adaptation parameter sets.
-/

namespace CodedVideo

open Parse

/-! ### Structures that lack what they refer to -/

namespace Parse

variable {α β : Type} {p p' : Parse α}

/-- The structure does what another one does, or reports a set missing. -/
def Lacks (p' p : Parse α) : Prop :=
  ∀ r, p'.run r = p.run r ∨ ∃ reference id, (p'.run r).1 = .error (.missing reference id)

theorem Lacks.refl (p : Parse α) : p.Lacks p := fun _ => .inl rfl

theorem lacks_missing (reference : Reference) (id : Nat) (p : Parse α) :
    (fail (.missing reference id)).Lacks p :=
  fun _ => .inr ⟨reference, id, rfl⟩

theorem Lacks.bind {f f' : α → Parse β} (hp : p'.Lacks p) (hf : ∀ a, (f' a).Lacks (f a)) :
    (p' >>= f').Lacks (p >>= f) := by
  intro r
  rw [run_bind, run_bind]
  rcases hp r with hsame | ⟨reference, id, hmissing⟩
  · rw [hsame]
    rcases p.run r with ⟨e | a, r₁⟩
    · exact .inl rfl
    · exact hf a r₁
  · right
    rcases hrun : p'.run r with ⟨e | a, r₁⟩
    · rw [hrun] at hmissing
      cases hmissing
      exact ⟨reference, id, rfl⟩
    · rw [hrun] at hmissing
      cases hmissing

theorem Lacks.given [Inhabited α] (present : Bool) (h : p'.Lacks p) :
    (given present p').Lacks (given present p) := by
  cases present with
  | false => exact .refl _
  | true => exact h

theorem Lacks.ite {c : Prop} [Decidable c] {q q' : Parse α} (hp : p'.Lacks p) (hq : q'.Lacks q) :
    (if c then p' else q').Lacks (if c then p else q) := by
  split
  · exact hp
  · exact hq

/-- The structure is always refused. -/
def Never (p : Parse α) : Prop := p.Ensures fun _ => False

theorem Never.bind (h : p.Never) (f : α → Parse β) : (p >>= f).Never :=
  Ensures.bind h fun _ hfalse => hfalse.elim

theorem never_andThen {f : α → Parse β} (h : ∀ a, (f a).Never) : (p >>= f).Never := .andThen h

theorem Never.not_accepted (h : p.Never) {r r' : BitReader} {a : α} : p.run r ≠ (.ok a, r') :=
  fun hrun => Ensures.of_run h (congrArg Prod.fst hrun)

end Parse

/-! ### Layers that a header can refer to -/

namespace Sps

variable {sps : Sps} {vpsOf vpsOf' : Nat → Option Vps} {layer : Nat}

/-- How many layers a header can refer to is told by a video parameter set. -/
def NeedsVps (sps : Sps) : Prop := sps.references.interLayer = true ∧ sps.vpsId ≠ 0

instance (sps : Sps) : Decidable sps.NeedsVps := inferInstanceAs (Decidable (_ ∧ _))

theorem headerReferences_of_not_needsVps (h : ¬ sps.NeedsVps) :
    headerReferences vpsOf layer sps = pure 0 := by
  unfold headerReferences referenceCount
  split_ifs with hlayers hid
  · rfl
  · exact absurd ⟨hlayers, hid⟩ h
  · rfl

theorem headerReferences_of_missing (h : sps.NeedsVps) (hmissing : vpsOf sps.vpsId = none) :
    headerReferences vpsOf layer sps = fail (.missing .vps sps.vpsId) := by
  unfold headerReferences referenceCount
  rw [if_pos h.1, if_neg h.2, hmissing]
  rfl

theorem lacks_headerReferences (hmissing : ∀ id, vpsOf' id = none) :
    (headerReferences vpsOf' layer sps).Lacks (headerReferences vpsOf layer sps) := by
  by_cases h : sps.NeedsVps
  · rw [headerReferences_of_missing h (hmissing _)]
    exact lacks_missing _ _ _
  · rw [headerReferences_of_not_needsVps h, headerReferences_of_not_needsVps h]
    exact .refl _

end Sps

namespace PictureHeader

variable {pps : Pps} {references references' : Parse Nat}

theorem lacks_readScope (h : references'.Lacks references) (pps : Pps) (picture : PictureHeader) :
    (readScope pps references' picture).Lacks (readScope pps references picture) := by
  unfold readScope
  extract_lets sps afterBounds' afterBounds
  refine (Lacks.refl _).bind fun bounded => ?_
  have hbounds : ∀ boundaries, (afterBounds' boundaries).Lacks (afterBounds boundaries) := by
    intro boundaries
    unfold afterBounds' afterBounds
    extract_lets afterOutput' afterOutput
    have houtput : ∀ output, (afterOutput' output).Lacks (afterOutput output) := fun output =>
      .bind (.given _ (h.bind fun _ => .refl _)) fun _ => .refl _
    exact .ite (.bind (.refl _) houtput) (.bind (.refl _) houtput)
  exact .ite (.bind (.refl _) hbounds) (.bind (.refl _) hbounds)

theorem lacks_readRest (h : references'.Lacks references) (pps : Pps) (start : PictureStart) :
    (readRest pps references' start).Lacks (readRest pps references start) :=
  (Lacks.refl _).bind fun _ => (Lacks.refl _).bind fun picture =>
    (lacks_readScope h pps picture).bind fun _ => .refl _

/-- Without reference lists, it does not matter how many layers there are. -/
theorem readRest_of_lists (h : pps.inPictureHeader.lists = false) :
    readRest pps references' = readRest pps references := by
  have hscope : readScope pps references' = readScope pps references := by
    funext picture
    unfold readScope
    rw [h]
    rfl
  funext start
  unfold readRest
  rw [hscope]

/-- With reference lists, nothing can be read if the number of layers cannot be found. -/
theorem readRest_never (h : pps.inPictureHeader.lists = true) (hnever : references.Never)
    (start : PictureStart) : (readRest pps references start).Never := by
  have hscope : ∀ picture, (readScope pps references picture).Never := by
    intro picture
    unfold readScope
    extract_lets sps afterBounds
    have hbounds : ∀ boundaries, (afterBounds boundaries).Never := by
      intro boundaries
      unfold afterBounds
      rw [h]
      extract_lets afterOutput
      have houtput : ∀ output, (afterOutput output).Never := fun output =>
        (hnever.bind _).bind _
      split <;> exact never_andThen houtput
    refine never_andThen fun bounded => ?_
    split <;> exact never_andThen hbounds
  exact never_andThen fun _ => never_andThen fun picture => (hscope picture).bind _

end PictureHeader

namespace SliceHeader

variable {c : Context} {references references' : Parse Nat}

/-- The context in which the number of layers that the slice can refer to is found otherwise. -/
def Context.counting (c : Context) (references : Parse Nat) : Context := { c with references }

theorem lacks_read (h : references'.Lacks references) (c : Context) :
    (read (c.counting references')).Lacks (read (c.counting references)) := by
  have hlists : (readLists (c.counting references')).Lacks (readLists (c.counting references)) :=
    .given _ (h.bind fun _ => .refl _)
  exact (Lacks.refl (readStart c)).bind fun _ => (Lacks.refl (readUse c _)).bind fun _ =>
    (Lacks.refl (readUse c _)).bind fun _ => hlists.bind fun _ => .refl _

theorem read_of_lists (h : hasLists c = false) :
    read (c.counting references') = read (c.counting references) := by
  have hlists : readLists (c.counting references') = readLists (c.counting references) := by
    show given (hasLists c) _ = given (hasLists c) _
    rw [h]
    rfl
  show (readStart c >>= fun start => readUse c _ >>= fun mapped => readUse c _ >>= fun scaled =>
    readRest (c.counting references') start mapped scaled) = _
  unfold readRest
  rw [hlists]
  rfl

theorem read_never (h : hasLists c = true) (hnever : references.Never) :
    (read (c.counting references)).Never := by
  have hlists : (readLists (c.counting references)).Never := by
    show (given (hasLists c) (references >>= _)).Never
    rw [h]
    exact hnever.bind _
  exact never_andThen fun _ => never_andThen fun _ => never_andThen fun _ => hlists.bind _

end SliceHeader

/-! ### Adaptation parameter sets -/

/-- Filters are taken from adaptation parameter sets. -/
def AlfChoice.NeedsAps (alf : AlfChoice) : Prop :=
  alf.enabled = true ∧ (alf.luma ≠ [] ∨ alf.cb = true ∨ alf.cr = true ∨
    alf.crossCb.isSome = true ∨ alf.crossCr.isSome = true)

instance (alf : AlfChoice) : Decidable alf.NeedsAps := inferInstanceAs (Decidable (_ ∧ _))

namespace SliceHeader

variable {apsOf : ApsKind → Nat → Option Aps} {slice : SliceHeader}

/-- The slice refers to adaptation parameter sets. -/
def NeedsAps (slice : SliceHeader) : Prop :=
  slice.applied.alf.NeedsAps ∨ slice.mapped = true ∨ slice.scaled = true

instance (slice : SliceHeader) : Decidable slice.NeedsAps := inferInstanceAs (Decidable (_ ∨ _))

theorem checkAlf_of_not_needsAps {alf : AlfChoice} (h : ¬ alf.NeedsAps) :
    checkAlf apsOf alf = pure () := by
  obtain ⟨enabled, luma, cb, cr, chroma, crossCb, crossCr⟩ := alf
  unfold AlfChoice.NeedsAps at h
  cases enabled with
  | false => rfl
  | true =>
    simp only [true_and, not_or, not_not, Bool.not_eq_true, Option.isSome_eq_false_iff,
      Option.isNone_iff_eq_none] at h
    obtain ⟨rfl, rfl, rfl, rfl, rfl⟩ := h
    rfl

theorem checkAlf_of_needsAps {alf : AlfChoice} (h : alf.NeedsAps)
    (hmissing : ∀ kind id, apsOf kind id = none) :
    ∃ id, checkAlf apsOf alf = fail (.missing .alfAps id) := by
  obtain rfl : apsOf = fun _ _ => none := funext₂ hmissing
  obtain ⟨enabled, luma, cb, cr, chroma, crossCb, crossCr⟩ := alf
  obtain ⟨rfl, h⟩ := h
  rcases luma with _ | ⟨id, rest⟩
  · rcases cb with _ | _
    · rcases cr with _ | _
      · rcases crossCb with _ | id
        · rcases crossCr with _ | id
          · simp at h
          · exact ⟨id, rfl⟩
        · exact ⟨id, rfl⟩
      · exact ⟨chroma, rfl⟩
    · exact ⟨chroma, rfl⟩
  · exact ⟨id, rfl⟩

theorem checkReferences_of_not_needsAps (h : ¬ slice.NeedsAps) :
    checkReferences apsOf slice = pure () := by
  unfold NeedsAps at h
  simp only [not_or, Bool.not_eq_true] at h
  obtain ⟨half, hmapped, hscaled⟩ := h
  unfold checkReferences
  rw [checkAlf_of_not_needsAps half, hmapped, hscaled]
  rfl

theorem checkReferences_of_needsAps (h : slice.NeedsAps)
    (hmissing : ∀ kind id, apsOf kind id = none) :
    ∃ reference id, checkReferences apsOf slice = fail (.missing reference id) := by
  obtain rfl : apsOf = fun _ _ => none := funext₂ hmissing
  unfold checkReferences
  by_cases half : slice.applied.alf.NeedsAps
  · obtain ⟨id, hcheck⟩ := checkAlf_of_needsAps half hmissing
    rw [hcheck]
    exact ⟨.alfAps, id, rfl⟩
  · rw [checkAlf_of_not_needsAps half]
    cases hmapped : slice.mapped with
    | true => exact ⟨.lmcsAps, _, rfl⟩
    | false =>
      have hscaled : slice.scaled = true := by
        simpa [NeedsAps, half, hmapped] using h
      rw [hscaled]
      exact ⟨.scalingListAps, _, rfl⟩

end SliceHeader

end CodedVideo
