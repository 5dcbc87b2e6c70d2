import CodedVideo.Proofs.BufferRuns

/-!
# Pictures that a decoder holds

A decoder notes a picture as displayed and output at once, so a picture of its buffer can be
dropped as soon as it is no reference.  Pictures are dropped between an update and the storing
of the next picture: what is held after a step are references (`Held`), while an update leaves
others with them (`Shown`).

Of the pictures of its own layer a picture leaves those in the buffer that its lists name and,
unless it flushes the buffer, those that share its order count.  It finds no place only if
references take up the whole buffer.
-/

namespace CodedVideo

namespace PictureBuffer

/-! ### What an update leaves -/

section Update

variable {b : PictureBuffer} {flushing : Bool} {q : RefQuery} {lists : ResolvedLists}
  {e : StoredPicture}

/-- The lists find the references of the buffer, unless these have been flushed. -/
theorem Coherent.isReference_atLists_eq (hb : b.Coherent) (he : e ∈ b.entries) :
    (b.atLists flushing q e.number e.picture).isReference =
      (!flushing && e.picture.isReference) := by
  have hflushed : ⟨e.number, afterFlush flushing e.picture⟩ ∈ (b.beforeLists flushing).entries := by
    rw [beforeLists_eq]
    exact mem_mapEntries.mpr ⟨e, he, rfl⟩
  have hcoherent : (b.beforeLists flushing).Coherent := by
    rw [beforeLists_eq]
    exact hb.mapEntries _
  have hsame := hcoherent.isReference_afterPromote q hflushed
  rw [atLists, hsame]
  cases flushing with
  | false => rfl
  | true => exact e.picture.isReference_retire

theorem isReference_afterRetire {n : Nat} {p : Picture} :
    (afterRetire q lists n p).isReference = true ↔
      p.isReference = true ∧ (some n ∈ lists.list0 ++ lists.list1 ∨ p.layer ≠ q.layer
        ∨ p.orderCount = q.orderCount) := by
  unfold afterRetire
  simp only [List.contains_iff_mem]
  split
  · rename_i hkept
    exact (and_iff_left hkept).symm
  · rename_i hkept
    rw [Picture.isReference_retire]
    exact ⟨fun h => absurd h Bool.false_ne_true, fun h => absurd h.2 hkept⟩

/-- **A reference of the current layer is left one exactly if it is listed or, unless the
buffer has been flushed, shares the current order count.** -/
theorem Coherent.isReference_update (hb : b.Coherent) (he : e ∈ b.entries)
    (href : e.picture.isReference = true) (hlayer : e.picture.layer = q.layer)
    (hlists : (b.update flushing q).1 = lists) :
    (afterRetire q lists e.number (b.atLists flushing q e.number e.picture)).isReference = true ↔
      some e.number ∈ lists.list0 ++ lists.list1 ∨
        flushing = false ∧ e.picture.orderCount = q.orderCount := by
  have hcore : (b.atLists flushing q e.number e.picture).core = e.picture.core := by
    rw [atLists, core_afterPromote, core_afterFlush]
  have hseen : (b.atLists flushing q e.number e.picture).isReference = true ↔ flushing = false := by
    rw [hb.isReference_atLists_eq he, href, Bool.and_true, Bool.not_eq_true']
  rw [isReference_afterRetire, hseen, Picture.layer_eq_of_core hcore,
    Picture.orderCount_eq_of_core hcore]
  constructor
  · rintro ⟨hflushing, hlisted | hother | hcount⟩
    · exact .inl hlisted
    · exact absurd hlayer hother
    · exact .inr ⟨hflushing, hcount⟩
  · rintro (hlisted | ⟨hflushing, hcount⟩)
    · exact ⟨hseen.mp (hb.isReference_atLists he hlists hlisted), .inl hlisted⟩
    · exact ⟨hflushing, .inr (.inr hcount)⟩

/-- What an update leaves of the references of the current layer, told by their numbers. -/
theorem Coherent.numbers_update (hb : b.Coherent) (href : b.All fun p => p.isReference = true)
    (hlists : (b.update flushing q).1 = lists) :
    (((b.update flushing q).2.entries.filter fun e => e.picture.isReference).filter fun e =>
        e.picture.layer = q.layer).map (·.number) =
      (b.entries.filter fun e => e.picture.layer = q.layer ∧
        (some e.number ∈ lists.list0 ++ lists.list1 ∨
          flushing = false ∧ e.picture.orderCount = q.orderCount)).map (·.number) := by
  rw [update_snd, hlists]
  show (((b.entries.map _).filter _).filter _).map _ = _
  rw [List.filter_filter, List.filter_map, List.map_map]
  show (List.filter _ _).map StoredPicture.number = (List.filter _ _).map StoredPicture.number
  congr 1
  apply List.filter_congr
  intro e he
  have hlayer : (afterRetire q lists e.number (b.atLists flushing q e.number e.picture)).layer =
      e.picture.layer := Picture.layer_eq_of_core (hb.remarked he hlists).core
  rw [Bool.eq_iff_iff, Function.comp_apply, Bool.and_eq_true, decide_eq_true_eq, decide_eq_true_eq,
    hlayer]
  exact and_congr_right fun hin => hb.isReference_update he (href e he) hin hlists

end Update

end PictureBuffer

/-! ### Held pictures -/

/-- The picture has been displayed and output. -/
def Picture.Done (p : Picture) : Prop := p.displayed = true ∧ p.outputDone = true

theorem Picture.Done.of_core {p p' : Picture} (h : p.Done) (hcore : p'.core = p.core) : p'.Done :=
  ⟨(congrArg (·.displayed) hcore).trans h.1, (congrArg (·.outputDone) hcore).trans h.2⟩

namespace PictureBuffer

/-- The pictures of a buffer have been displayed and output. -/
structure Shown (capacity : Nat) (b : PictureBuffer) : Prop where
  sound : b.Sound
  capacity_eq : b.capacity = capacity
  length_le : b.entries.length ≤ capacity
  balanced : b.All Picture.Balanced
  done : b.All Picture.Done

/-- Nothing but references is left of them. -/
structure Held (capacity : Nat) (b : PictureBuffer) : Prop extends Shown capacity b where
  isReference : b.All fun p => p.isReference = true

variable {capacity : Nat} {b b' : PictureBuffer}

theorem held_of_nil (hb : b.Sound) (hcapacity : b.capacity = capacity) (hnil : b.entries = []) :
    Held capacity b := by
  have hall : ∀ P : Picture → Prop, b.All P := by
    intro P e he
    rw [hnil] at he
    exact absurd he List.not_mem_nil
  refine ⟨⟨hb, hcapacity, ?_, hall _, hall _⟩, hall _⟩
  rw [hnil]
  exact Nat.zero_le _

theorem Shown.update (h : Shown capacity b) (flushing : Bool) (q : RefQuery) :
    Shown capacity (b.update flushing q).2 := by
  constructor
  case sound => exact h.sound.update flushing q
  case capacity_eq =>
    rw [update_snd]
    exact h.capacity_eq
  case length_le =>
    rw [update_snd]
    show (b.entries.map _).length ≤ capacity
    rw [List.length_map]
    exact h.length_le
  case balanced => exact h.sound.balanced_update h.balanced flushing q
  case done =>
    rw [update_snd]
    intro e' he'
    obtain ⟨e, he, rfl⟩ := mem_mapEntries.mp he'
    exact (h.done e he).of_core (h.sound.coherent.remarked he rfl).core

/-- Where everything has been shown, what is dropped are the pictures that are no references. -/
theorem Shown.entries_removeDisposable (h : Shown capacity b) :
    b.removeDisposable.entries = b.entries.filter fun e => e.picture.isReference := by
  apply List.filter_congr
  intro e he
  have hdisposable := (h.balanced e he).isDisposable_iff
  by_cases hunused : e.picture.marking = .unused
  · rw [hdisposable.mpr ⟨hunused, h.done e he⟩, Picture.isReference, hunused]
    rfl
  · have hkept : e.picture.isDisposable = false := by
      rw [← Bool.not_eq_true, hdisposable]
      exact fun h => hunused h.1
    rw [hkept, Picture.isReference_iff.mpr hunused]
    rfl

theorem Shown.removeDisposable (h : Shown capacity b) : Held capacity b.removeDisposable where
  sound := h.sound.removeDisposable
  capacity_eq := h.capacity_eq
  length_le := (List.length_filter_le _ _).trans h.length_le
  balanced e he := h.balanced e (List.mem_of_mem_filter he)
  done e he := h.done e (List.mem_of_mem_filter he)
  isReference e he := by
    rw [h.entries_removeDisposable] at he
    exact (List.mem_filter.mp he).2

theorem core_asDecoded (p : Picture) : (asDecoded p).core = p.core := Picture.core_mark p .shortTerm

theorem Held.store (h : Held capacity b) {p : Picture} (hfresh : p.Fresh) (hdone : p.Done)
    (hstore : b.store p = .ok b') : Held capacity b' := by
  have hsound := h.sound.store hstore
  have hbalanced := balanced_store h.balanced hfresh hstore
  obtain ⟨hplace, rfl⟩ := eq_of_store hstore
  constructor
  case isReference =>
    apply h.isReference.append_singleton (e := ⟨b.nextNumber, asDecoded p⟩) _ rfl
    show (p.mark .shortTerm).isReference = true
    rw [Picture.isReference, Picture.marking_mark]
    rfl
  constructor
  case sound => exact hsound
  case capacity_eq => exact h.capacity_eq
  case length_le =>
    rw [List.length_append, List.length_singleton, ← h.capacity_eq]
    exact hplace
  case balanced => exact hbalanced
  case done =>
    apply h.done.append_singleton (e := ⟨b.nextNumber, asDecoded p⟩) _ rfl
    exact hdone.of_core (core_asDecoded p)

end PictureBuffer

namespace Decoder

open PictureBuffer

variable {capacity : Nat}

/-! ### Taking up a picture -/

/-- What is stored comes after the references that there are. -/
theorem store_of_none {b : PictureBuffer} {p : Picture} (hb : Shown capacity b)
    (h : (store b p).1 = none) :
    (store b p).2.entries =
      (b.entries.filter fun e => e.picture.isReference) ++ [⟨b.nextNumber, asDecoded p⟩] := by
  unfold store at h ⊢
  cases hstore : b.removeDisposable.store p with
  | error e =>
    rw [hstore] at h
    cases h
  | ok b' =>
    obtain ⟨-, rfl⟩ := eq_of_store hstore
    rw [← hb.entries_removeDisposable]
    rfl

/-- What is refused is so because references take up the whole buffer. -/
theorem store_of_ne_none {b : PictureBuffer} {p : Picture} (hb : Shown capacity b)
    (h : (store b p).1 ≠ none) :
    b.removeDisposable.entries.length = capacity ∧
      b.removeDisposable.All fun p => p.isReference = true := by
  have hheld := hb.removeDisposable
  refine ⟨le_antisymm hheld.length_le ?_, hheld.isReference⟩
  by_contra hplace
  have hplace : b.removeDisposable.entries.length < b.removeDisposable.capacity := by
    rw [hheld.capacity_eq]
    exact Nat.lt_of_not_le hplace
  apply h
  unfold store PictureBuffer.store
  rw [if_pos hplace]

theorem held_store {b : PictureBuffer} {p : Picture} (hb : Shown capacity b) (hfresh : p.Fresh)
    (hdone : p.Done) : Held capacity (store b p).2 := by
  have hsound : (store b p).2.Sound := sound_store hb.sound p
  unfold store at hsound ⊢
  cases hstore : b.removeDisposable.store p with
  | ok b' => exact hb.removeDisposable.store hfresh hdone hstore
  | error e =>
    rw [hstore] at hsound
    exact held_of_nil hsound hb.capacity_eq rfl

/-- **What is held of a layer after a picture of it has been stored**, told by numbers. -/
theorem numbers_store {b marked : PictureBuffer} {flushing : Bool} {q : RefQuery}
    {lists : ResolvedLists} {picture : Picture} (hb : Held capacity b)
    (hupdate : b.update flushing q = (lists, marked)) (hlayer : q.layer = picture.layer)
    (hcount : q.orderCount = picture.orderCount) (hstored : (store marked picture).1 = none) :
    ⟨b.nextNumber, asDecoded picture⟩ ∈ (store marked picture).2.entries ∧
      ((store marked picture).2.entries.filter fun e =>
          e.picture.layer = picture.layer).map (·.number) =
        (b.entries.filter fun e => e.picture.layer = picture.layer ∧
          (some e.number ∈ lists.list0 ++ lists.list1 ∨
            flushing = false ∧ e.picture.orderCount = picture.orderCount)).map (·.number) ++
          [b.nextNumber] := by
  have hmarked := hb.toShown.update flushing q
  have hkept := hb.sound.coherent.numbers_update hb.isReference (congrArg Prod.fst hupdate)
  have hnext : (b.update flushing q).2.nextNumber = b.nextNumber := by
    rw [update_snd]
    rfl
  rw [hupdate] at hmarked hkept hnext
  dsimp only at hmarked hkept hnext
  rw [store_of_none hmarked hstored, hnext]
  have hnew : (asDecoded picture).layer = picture.layer :=
    Picture.layer_eq_of_core (core_asDecoded picture)
  constructor
  · exact List.mem_append_right _ (List.mem_singleton.mpr rfl)
  · rw [List.filter_append, List.map_append, ← hlayer, hkept, hcount, List.filter_singleton,
      hnew, hlayer]
    simp

/-- A slice has no order count and is refused, or the buffer is updated and the picture stored. -/
theorem startPicture_cases (d : Decoder) (header : Nal.Header) (slice : SliceHeader) :
    (∃ e, (d.startPicture header slice).1 = .error e ∧
      (d.startPicture header slice).2.buffer = d.buffer) ∨
    ∃ q picture lists marked,
      picture.Fresh ∧ picture.Done ∧ q.layer = picture.layer ∧ q.orderCount = picture.orderCount ∧
      d.buffer.update (flushes header slice) q = (lists, marked) ∧
      (d.startPicture header slice).1 =
        .ok { picture, lists, marked, refused := (store marked picture).1 } ∧
      (d.startPicture header slice).2.buffer = (store marked picture).2 := by
  unfold startPicture
  dsimp only
  split
  · exact .inl ⟨_, rfl, rfl⟩
  · exact .inr ⟨_, _, _, _, ⟨rfl, rfl, rfl⟩, ⟨rfl, rfl⟩, rfl, rfl, rfl, rfl, rfl⟩

theorem held_startPicture {d : Decoder} (hd : Held capacity d.buffer) (header : Nal.Header)
    (slice : SliceHeader) : Held capacity (d.startPicture header slice).2.buffer := by
  rcases d.startPicture_cases header slice with
    ⟨_, -, hbuffer⟩ | ⟨q, picture, lists, marked, hfresh, hdone, -, -, hupdate, -, hbuffer⟩
  · rw [hbuffer]
    exact hd
  · rw [hbuffer]
    have hmarked := hd.toShown.update (flushes header slice) q
    rw [hupdate] at hmarked
    exact held_store hmarked hfresh hdone

theorem Running.held {d : Decoder} (hd : d.Running capacity) : Held capacity d.buffer := by
  induction hd with
  | start h =>
    rw [h]
    exact held_of_nil (sound_empty capacity) rfl rfl
  | picture _ header slice ih => exact held_startPicture ih header slice
  | other _ h ih =>
    rw [h]
    exact ih

theorem run_held (data : List UInt8) (escaped : Bool) (capacity : Nat) :
    ∀ step ∈ run data (start escaped capacity), Held capacity step.2.2.buffer :=
  fun step hstep => (running_run data escaped capacity step hstep).held

/-- **A decoder does not leak pictures.**  It holds no more than its capacity, and nothing but
references.  Of the layer of a picture that has been stored these are the picture itself and
those before it that its lists name or that share its order count and have not been flushed.
A picture is refused only if references take up the whole buffer. -/
theorem Running.holds_references {d : Decoder} (hd : d.Running capacity) (header : Nal.Header)
    (slice : SliceHeader) :
    let result := (d.startPicture header slice).1
    let after := (d.startPicture header slice).2.buffer
    after.entries.length ≤ capacity ∧
    (∀ e ∈ after.entries, e.picture.isReference = true) ∧
    (∀ e, result = .error e → after = d.buffer) ∧
    ∀ outcome, result = .ok outcome →
      (outcome.refused = none →
        ⟨d.buffer.nextNumber, asDecoded outcome.picture⟩ ∈ after.entries ∧
        (after.entries.filter fun e => e.picture.layer = outcome.picture.layer).map (·.number) =
          (d.buffer.entries.filter fun e => e.picture.layer = outcome.picture.layer ∧
            (some e.number ∈ outcome.lists.list0 ++ outcome.lists.list1 ∨
              flushes header slice = false ∧
                e.picture.orderCount = outcome.picture.orderCount)).map (·.number) ++
            [d.buffer.nextNumber]) ∧
      (outcome.refused ≠ none →
        outcome.marked.removeDisposable.entries.length = capacity ∧
        ∀ e ∈ outcome.marked.removeDisposable.entries, e.picture.isReference = true) := by
  intro result after
  have hheld := hd.held
  have hafter := held_startPicture hheld header slice
  refine ⟨hafter.length_le, hafter.isReference, ?_⟩
  rcases d.startPicture_cases header slice with ⟨fault, hresult, hbuffer⟩ |
    ⟨q, picture, lists, marked, -, -, hlayer, hcount, hupdate, hresult, hbuffer⟩
  · refine ⟨fun _ _ => hbuffer, ?_⟩
    intro outcome hok
    cases hresult.symm.trans hok
  · constructor
    · intro e herror
      cases hresult.symm.trans herror
    · intro outcome hok
      cases hresult.symm.trans hok
      have hmarked := hheld.toShown.update (flushes header slice) q
      rw [hupdate] at hmarked
      refine ⟨?_, store_of_ne_none hmarked⟩
      intro hstored
      rw [show after = (store marked picture).2 from hbuffer]
      exact numbers_store hheld hupdate hlayer hcount hstored

/-- A slice whose picture refers to the one before it. -/
def nextSlice (lsb : Nat) : SliceHeader :=
  { mixedSlice with
    applied := { lists := { list0 := { content := { entries := [.shortTerm 3 (-4)] } } } }
    picture := { mixedSlice.picture with lsb } }

/-- A decoder of two pictures at most that has received some of a chain. -/
def chained : Nat → Decoder
  | 0 => start false 2
  | n + 1 => ((chained n).startPicture { kind := .trail } (nextSlice (4 * n))).2

theorem running_chained (n : Nat) : (chained n).Running 2 := by
  induction n with
  | zero => exact .start rfl
  | succ n ih => exact ih.picture _ _

/-- The third picture takes the place of the first. -/
theorem holds_references_chained :
    (chained 2).Running 2 ∧
    (chained 3).buffer.entries.length ≤ 2 ∧
    (∀ e ∈ (chained 3).buffer.entries, e.picture.isReference = true) ∧
    (chained 2).buffer.entries.map (·.number) = [0, 1] ∧
    (chained 3).buffer.entries.map (·.number) = [1, 2] := by
  have hholds := (running_chained 2).holds_references { kind := .trail } (nextSlice 8)
  exact ⟨running_chained 2, hholds.1, hholds.2.1, by decide +kernel, by decide +kernel⟩

end Decoder

end CodedVideo
