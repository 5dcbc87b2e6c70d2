import CodedVideo.Proofs.SliceBoundary

/-!
# The bits that a structure consumes

A structure that asks for nothing but bits and is accepted has consumed a string of bits,
and reads the same off any other reader that has this string in front of it
(`Parse.exists_reads_of_run`).  Therefore what two structures read, one after the other,
comes apart into the bits of the one and the bits of the other (`Parse.Reads.of_bind`).

`Step.Takes` says the same of a part of a header, which may also change the session.
-/

namespace CodedVideo

open Parse

namespace Parse

variable {α β : Type}

theorem reads_bits {next : Nat → Parse α} {front back : List Bool} {value : α}
    (h32 : front.length ≤ 32) (h : (next (ofBits front)).Reads back value) :
    (bits front.length next).Reads (front ++ back) value := by
  intro r rest hr
  rw [List.append_assoc] at hr
  have hlength : front.length ≤ r.unread.length := by
    rw [hr, List.length_append]
    exact Nat.le_add_right _ _
  obtain ⟨r₁, hread, hunread, hposition⟩ := r.readBits_of_le h32 hlength
  rw [hr, List.take_left' rfl] at hread
  rw [hr, List.drop_left' rfl] at hunread
  obtain ⟨r₂, hrun, hrest, hback⟩ := h r₁ rest hunread
  refine ⟨r₂, ?_, hrest, ?_⟩
  · rw [run, hread]
    exact hrun
  · rw [hback, hposition, List.length_append, Nat.add_assoc]

/-- What is accepted has been read off the bits in front. -/
theorem exists_reads_of_run {p : Parse α} (h : p.Within (· = .place)) {r r' : BitReader}
    {value : α} (hrun : p.run r = (.ok value, r')) :
    ∃ consumed, r.unread = consumed ++ r'.unread ∧ p.Reads consumed value := by
  induction p generalizing r with
  | done a =>
    cases hrun
    exact ⟨[], rfl, reads_pure value⟩
  | fail error => cases hrun
  | bits count next ih =>
    rw [run] at hrun
    rcases hread : r.readBits count with ⟨e | n, r₁⟩
    · rw [hread] at hrun
      cases hrun
    · rw [hread] at hrun
      obtain ⟨h32, hlength, rfl, hunread, -⟩ := BitReader.readBits_eq_ok hread
      have hcount := List.length_take_of_le hlength
      obtain ⟨back, hback, hreads⟩ := ih _ (h _ (readBits_lt hread)) hrun
      refine ⟨r.unread.take count ++ back, ?_, ?_⟩
      · rw [List.append_assoc, ← hback, hunread, List.take_append_drop]
      · have hbits := reads_bits (by rw [hcount]; exact h32) hreads
        rwa [hcount] at hbits
  | moreData next ih | align next ih | position next ih => cases h.1
  | skipData next ih | checkOverrun next ih => cases h.1

/-- Of strings that start with each other a structure reads only one. -/
theorem Reads.unique {p : Parse α} {consumed consumed' rest rest' : List Bool} {value value' : α}
    (h : p.Reads consumed value) (h' : p.Reads consumed' value')
    (hsame : consumed ++ rest = consumed' ++ rest') :
    consumed = consumed' ∧ value = value' ∧ rest = rest' := by
  obtain ⟨r, more, hr⟩ := BitReader.exists_unread (consumed ++ rest)
  obtain ⟨r₁, hrun, -, hposition⟩ := h r (rest ++ more) (by rw [hr, List.append_assoc])
  obtain ⟨r₁', hrun', -, hposition'⟩ := h' r (rest' ++ more) (by
    rw [hr, hsame, List.append_assoc])
  rw [hrun] at hrun'
  cases hrun'
  obtain ⟨hconsumed, hrest⟩ := List.append_inj hsame (by omega)
  exact ⟨hconsumed, rfl, hrest⟩

/-- What two structures read comes apart. -/
theorem Reads.of_bind {p : Parse α} {f : α → Parse β} {consumed : List Bool} {value : β}
    (hp : p.Within (· = .place)) (hf : ∀ a, (f a).Within (· = .place))
    (h : (p >>= f).Reads consumed value) :
    ∃ a front back, p.Reads front a ∧ (f a).Reads back value ∧ consumed = front ++ back := by
  -- Some reader is needed to tell where the first structure stops.
  obtain ⟨r, rest, hr⟩ := BitReader.exists_unread consumed
  obtain ⟨r₂, hrun, hrest, -⟩ := h r rest hr
  obtain ⟨a, r₁, hrunFront, hrunBack⟩ := run_bind_eq_ok.mp hrun
  obtain ⟨front, hfront, hreadsFront⟩ := exists_reads_of_run hp hrunFront
  obtain ⟨back, hback, hreadsBack⟩ := exists_reads_of_run (hf a) hrunBack
  refine ⟨a, front, back, hreadsFront, hreadsBack, ?_⟩
  rw [hr, hback, hrest, ← List.append_assoc] at hfront
  exact List.append_cancel_right hfront

theorem Reads.of_bind_of_reads {p : Parse α} {f : α → Parse β} {front back : List Bool} {a : α}
    {value : β} (hp : p.Within (· = .place)) (hf : ∀ a, (f a).Within (· = .place))
    (h : (p >>= f).Reads (front ++ back) value) (hfront : p.Reads front a) :
    (f a).Reads back value := by
  obtain ⟨a', front', back', hfront', hback', hsame⟩ := h.of_bind hp hf
  obtain ⟨rfl, rfl, rfl⟩ := hfront.unique hfront' hsame
  exact hback'

end Parse

namespace Session.Step

variable {α β : Type} {s s₁ s₂ : Session} {front back : List Bool}

/-- The part takes `consumed` off any bits that start with it, yields `value` and leaves
the session `s'`. -/
def Takes (step : Step α) (s : Session) (consumed : List Bool) (value : α) (s' : Session) :
    Prop :=
  ∀ ⦃r : BitReader⦄ ⦃rest : List Bool⦄, r.unread = consumed ++ rest →
    ∃ r', step.run ⟨s, r⟩ = (.ok value, ⟨s', r'⟩) ∧ r'.unread = rest ∧
      r'.position = r.position + consumed.length

/-- Nothing else can come of the part. -/
theorem Takes.of_run {p : Step α} {a b : α} (h : p.Takes s front a s₁) {r r' : BitReader}
    {rest : List Bool} (hr : r.unread = front ++ rest) {s' : Session}
    (hrun : p.run ⟨s, r⟩ = (.ok b, ⟨s', r'⟩)) :
    b = a ∧ s' = s₁ ∧ r'.unread = rest ∧ r'.position = r.position + front.length := by
  obtain ⟨_, hrun', hrest, hposition⟩ := h hr
  rw [hrun] at hrun'
  cases hrun'
  exact ⟨rfl, rfl, hrest, hposition⟩

theorem takes_ofParse {content : Parse α} {value : α} (h : content.Reads front value)
    (s : Session) : (ofParse content).Takes s front value s := by
  intro r rest hr
  obtain ⟨r', hrun, hrest, hposition⟩ := h r rest hr
  exact ⟨r', run_ofParse_eq_ok.mpr ⟨r', hrun, rfl⟩, hrest, hposition⟩

theorem takes_pure (a : α) (s : Session) : (pure a : Step α).Takes s [] a s :=
  fun r _ hr => ⟨r, rfl, hr, rfl⟩

theorem takes_update (f : Session → Session) (s : Session) : (update f).Takes s [] () (f s) :=
  fun r _ hr => ⟨r, rfl, hr, rfl⟩

theorem takes_session (s : Session) : session.Takes s [] s s :=
  fun r _ hr => ⟨r, rfl, hr, rfl⟩

theorem Takes.bind {p : Step α} {f : α → Step β} {a : α} {value : β}
    (hp : p.Takes s front a s₁) (hf : (f a).Takes s₁ back value s₂) :
    (p >>= f).Takes s (front ++ back) value s₂ := by
  intro r rest hr
  rw [List.append_assoc] at hr
  obtain ⟨r₁, hrun, hrest, hposition⟩ := hp hr
  obtain ⟨r₂, hrun', hrest', hposition'⟩ := hf hrest
  refine ⟨r₂, run_bind_eq_ok.mpr ⟨a, _, hrun, hrun'⟩, hrest', ?_⟩
  rw [hposition', hposition, List.length_append, Nat.add_assoc]

/-- The first of two parts may take nothing. -/
theorem Takes.bind_left {p : Step α} {f : α → Step β} {a : α} {value : β}
    (hp : p.Takes s [] a s₁) (hf : (f a).Takes s₁ back value s₂) :
    (p >>= f).Takes s back value s₂ :=
  hp.bind hf

/-- The second of two parts may take nothing. -/
theorem Takes.bind_right {p : Step α} {f : α → Step β} {a : α} {value : β}
    (hp : p.Takes s front a s₁) (hf : (f a).Takes s₁ [] value s₂) :
    (p >>= f).Takes s front value s₂ := by
  have h := hp.bind hf
  rwa [List.append_nil] at h

theorem takes_ofReference {reference : Reference} {id : Nat} {found : Option α} {set : α}
    (h : found = some set) (s : Session) :
    (ofParse (Parse.ofReference reference id found)).Takes s [] set s := by
  rw [h]
  exact takes_ofParse (reads_pure set) s

theorem takes_pictureSet {id : Nat} {pps : Pps} (h : s.pictureSets.get? id = some pps) :
    (pictureSet id).Takes s [] pps s :=
  (takes_session s).bind_left (takes_ofReference h s)

end Session.Step

namespace Session

/-- A picture header is accepted for the bits that it takes. -/
theorem exists_takes_of_run {layer : Nat} {s s' : Session} {r r' : BitReader}
    {picture : PictureHeader} (h : (pictureStructure layer).run ⟨s, r⟩ = (.ok picture, ⟨s', r'⟩)) :
    ∃ consumed, r.unread = consumed ++ r'.unread ∧
      (pictureStructure layer).Takes s consumed picture s' := by
  obtain ⟨start, pps, r₁, r₂, hstart, hpps, hrest, ⟨⟩⟩ := run_pictureStructure_eq_ok.mp h
  obtain ⟨front, hfront, hreadsFront⟩ := exists_reads_of_run PictureHeader.within_readStart hstart
  obtain ⟨back, hback, hreadsBack⟩ := exists_reads_of_run
    (PictureHeader.within_readRest pps (Sps.within_headerReferences _ _ _) start) hrest
  refine ⟨front ++ back, by rw [hfront, hback, List.append_assoc], ?_⟩
  refine (Step.takes_ofParse hreadsFront s).bind ?_
  refine (Step.takes_pictureSet hpps).bind_left ?_
  refine (Step.takes_update _ s).bind_left ?_
  exact (Step.takes_session _).bind_left (Step.takes_ofParse hreadsBack _)

end Session

end CodedVideo
