import CodedVideo.Proofs.InterLayerReferences

/-!
# Marking twice

An update looks for pictures, marks some of those that it finds for the long term and
retires others, so a second update with the same lists searches another buffer.  It comes
to the same, because of what a search can lose on the way: a picture that has been found
is listed and stays as it is, and the others at most stop being references.  So the first
match of every entry stays the first match (`answer_retireUnlisted`), pictures that are to
be marked for the long term are so already (`Coherent.promote_update`), and those that are
to be retired have been retired (`afterRetire_afterRetire`).

Together: `Coherent.update_update`, and `Coherent.update_again` for a slice and the picture
that it starts.
-/

namespace CodedVideo

namespace Picture

/-- A picture whose lists have been resolved: it is flawed if a reference is missing, or if
it has been flawed before. -/
def flawedBy (p : Picture) (lists : ResolvedLists) : Picture :=
  { p with missingReference := p.missingReference || lists.missing }

theorem flawedBy_flawedBy (p : Picture) (lists : ResolvedLists) :
    (p.flawedBy lists).flawedBy lists = p.flawedBy lists := by
  unfold flawedBy
  rw [Bool.or_assoc, Bool.or_self]

theorem retire_eq_self {p : Picture} (hmarking : p.marking = .unused)
    (hreferenced : p.referenced = false) : p.retire = p := by
  rw [retire, mark_of_marking_eq hmarking, ← hreferenced]

theorem retire_retire (p : Picture) : p.retire.retire = p.retire :=
  retire_eq_self (marking_mark p .unused) rfl

end Picture

namespace PictureBuffer

variable {b : PictureBuffer} {q : RefQuery} {lists : ResolvedLists}

/-! ### Searching what is left -/

/-- A search comes to the same if no more elements match than before and the one that has
been found still does. -/
theorem find?_eq_of_imp {α : Type} {before after : α → Bool} {xs : List α}
    (himp : ∀ x ∈ xs, after x = true → before x = true)
    (hfound : ∀ x, xs.find? before = some x → after x = true) :
    xs.find? after = xs.find? before := by
  induction xs with
  | nil => rfl
  | cons x xs ih =>
    obtain ⟨hx, hxs⟩ := List.forall_mem_cons.mp himp
    by_cases hbefore : before x = true
    · have hafter := hfound x (List.find?_cons_of_pos hbefore)
      rw [List.find?_cons_of_pos hbefore, List.find?_cons_of_pos hafter]
    · rw [List.find?_cons_of_neg hbefore] at hfound ⊢
      rw [List.find?_cons_of_neg (mt hx hbefore)]
      exact ih hxs hfound

theorem afterRetire_of_mem {n : Nat} (h : some n ∈ lists.list0 ++ lists.list1) (p : Picture) :
    afterRetire q lists n p = p :=
  if_pos (.inl (List.contains_iff_mem.mpr h))

/-- A picture that is a reference after the unlisted ones have been retired is as it was. -/
theorem afterRetire_eq_self {n : Nat} {p : Picture}
    (h : (afterRetire q lists n p).isReference = true) : afterRetire q lists n p = p := by
  unfold afterRetire at h ⊢
  split at h
  case isTrue hkept => exact if_pos hkept
  case isFalse =>
    rw [Picture.isReference_retire] at h
    exact absurd h Bool.false_ne_true

/-- **Entries are answered as before once the unlisted pictures have been retired**, as long
as the answers are listed. -/
theorem answer_retireUnlisted {count : Int} {entry : RefEntry}
    (hlisted : ∀ n, b.answer q count entry = some n → some n ∈ lists.list0 ++ lists.list1) :
    (b.retireUnlisted q lists).answer q count entry = b.answer q count entry := by
  obtain ⟨p, hreference, hsearch⟩ := exists_search q count entry
  rw [hsearch, hsearch, retireUnlisted_eq, findNumber_mapEntries_eq, findNumber]
  congr 1
  apply find?_eq_of_imp
  · -- What still matches is a reference, so it has not been retired.
    intro e _ hafter
    rwa [afterRetire_eq_self (hreference _ hafter)] at hafter
  · -- What has been found is listed, so it stays as it is.
    intro e he
    have hmem : some e.number ∈ lists.list0 ++ lists.list1 := by
      refine hlisted e.number ?_
      rw [hsearch, findNumber, he, Option.map_some]
    rw [afterRetire_of_mem hmem]
    exact List.find?_some (p := fun e : StoredPicture => p e.picture) he

/-! ### The second update -/

theorem mem_pickFrom_of_answer {base : Int} {entries : List RefEntry} {j : Nat}
    {entry : RefEntry} {n : Nat} (hentry : entries[j]? = some entry)
    (h : b.answer q (wrapCount (base + ((entries.take (j + 1)).map RefEntry.distance).sum))
      entry = some n) : some n ∈ b.pickFrom q base entries := by
  rw [List.mem_iff_getElem?]
  exact ⟨j, by rw [getElem?_pickFrom, hentry, Option.map_some, h]⟩

/-- The lists name the same pictures once the pictures that they do not name have been
retired. -/
theorem pick_retireUnlisted {request : RefRequest}
    (hlisted : b.pick q request ⊆ lists.list0 ++ lists.list1) :
    (b.retireUnlisted q lists).pick q request = b.pick q request := by
  apply List.ext_getElem?
  intro j
  unfold pick at hlisted ⊢
  rw [getElem?_pickFrom, getElem?_pickFrom]
  cases hentry : request.entries[j]? with
  | none => rfl
  | some entry =>
    rw [Option.map_some, Option.map_some, answer_retireUnlisted]
    intro n hn
    exact hlisted (mem_pickFrom_of_answer hentry hn)

/-- What has been promoted is listed. -/
theorem Coherent.listed_of_promoted (hb : b.Coherent) {n : Nat} (h : n ∈ b.promoted q) :
    some n ∈ (b.resolve q).1.list0 ++ (b.resolve q).1.list1 := by
  obtain ⟨a, ha, j, lsb, msbCycle, hnames⟩ := hb.namesLongTerm_iff.mpr h
  have hmem := List.mem_of_getElem? hnames.number_eq
  rcases List.mem_cons.mp ha with rfl | ha
  · exact List.mem_append_left _ hmem
  · obtain rfl := List.mem_singleton.mp ha
    exact List.mem_append_right _ hmem

/-- The long-term entries of the lists find the same pictures after an update. -/
theorem Coherent.findLongTerm_update (hb : b.Coherent) {lsb : Nat} {msbCycle : Option Nat}
    (hentry : .longTerm lsb msbCycle ∈ q.list0.entries ++ q.list1.entries) :
    (b.update false q).2.findLongTerm q lsb msbCycle = b.findLongTerm q lsb msbCycle := by
  have hanswer : (b.update false q).2.answer q 0 (.longTerm lsb msbCycle) =
      (b.promote q).answer q 0 (.longTerm lsb msbCycle) := by
    refine answer_retireUnlisted fun n hn => hb.listed_of_promoted ?_
    have hfind : (b.promote q).findLongTerm q lsb msbCycle = some n := hn
    rw [hb.findLongTerm_promote] at hfind
    exact mem_promoted.mpr ⟨lsb, msbCycle, hentry, hfind⟩
  rw [answer, answer, hb.findLongTerm_promote] at hanswer
  exact hanswer

theorem mapEntries_eq_self {f : Nat → Picture → Picture}
    (h : ∀ e ∈ b.entries, f e.number e.picture = e.picture) : b.mapEntries f = b := by
  have hentries : (b.entries.map fun e => { e with picture := f e.number e.picture }) =
      b.entries := by
    conv_rhs => rw [← List.map_id b.entries]
    refine List.map_congr_left fun e he => ?_
    rw [h e he]
    rfl
  unfold mapEntries
  rw [hentries]

/-- **After an update the long-term entries find nothing that is left to be marked.** -/
theorem Coherent.promote_update (hb : b.Coherent) (q : RefQuery) :
    (b.update false q).2.promote q = (b.update false q).2 := by
  rw [promote_eq]
  refine mapEntries_eq_self fun e' he' => ?_
  rw [update_snd] at he'
  obtain ⟨e, he, rfl⟩ := mem_mapEntries.mp he'
  unfold afterPromote
  split
  case isFalse => rfl
  case isTrue hagain =>
    obtain ⟨lsb, msbCycle, hentry, hfind⟩ := mem_promoted.mp hagain
    rw [hb.findLongTerm_update hentry] at hfind
    have hpromoted : e.number ∈ b.promoted q := mem_promoted.mpr ⟨lsb, msbCycle, hentry, hfind⟩
    have hkept : some e.number ∈ (b.update false q).1.list0 ++ (b.update false q).1.list1 :=
      hb.listed_of_promoted hpromoted
    have hmarked : b.atLists false q e.number e.picture = e.picture.mark .longTerm :=
      if_pos hpromoted
    dsimp only
    rw [afterRetire_of_mem hkept, hmarked]
    exact Picture.mark_of_marking_eq (Picture.marking_mark _ _)

theorem afterRetire_afterRetire (q : RefQuery) (lists : ResolvedLists) (n : Nat) (p : Picture) :
    afterRetire q lists n (afterRetire q lists n p) = afterRetire q lists n p := by
  by_cases hkept : (lists.list0 ++ lists.list1).contains (some n) ∨ p.layer ≠ q.layer ∨
      p.orderCount = q.orderCount
  · have hself : afterRetire q lists n p = p := if_pos hkept
    rw [hself, hself]
  · have hretired : afterRetire q lists n p = p.retire := if_neg hkept
    have hcore := Picture.core_retire p
    have hagain : afterRetire q lists n p.retire = p.retire.retire := by
      refine if_neg ?_
      rw [Picture.layer_eq_of_core hcore, Picture.orderCount_eq_of_core hcore]
      exact hkept
    rw [hretired, hagain, Picture.retire_retire]

theorem retireUnlisted_retireUnlisted (b : PictureBuffer) (q : RefQuery) (lists : ResolvedLists) :
    (b.retireUnlisted q lists).retireUnlisted q lists = b.retireUnlisted q lists := by
  rw [retireUnlisted_eq, retireUnlisted_eq, mapEntries_mapEntries]
  congr 1
  funext n p
  exact afterRetire_afterRetire q lists n p

/-- The lists are resolved as before after an update. -/
theorem Coherent.resolve_update (hb : b.Coherent) (q : RefQuery) :
    (b.update false q).2.resolve q = ((b.update false q).1, (b.update false q).2) := by
  have hlist0 : (b.update false q).2.pick q q.list0 = (b.update false q).1.list0 :=
    pick_retireUnlisted (List.subset_append_left _ _)
  have hlist1 : (b.update false q).2.pick q q.list1 = (b.update false q).1.list1 :=
    pick_retireUnlisted (List.subset_append_right _ _)
  unfold resolve
  rw [hb.promote_update]
  dsimp only
  rw [hlist0, hlist1]
  rfl

/-! ### After a flush -/

theorem retire_afterFlush (p : Picture) : (afterFlush true p).retire = afterFlush true p :=
  Picture.retire_eq_self (Picture.marking_mark p .unused) rfl

theorem flush_eq (b : PictureBuffer) : b.flush = b.mapEntries fun _ p => afterFlush true p :=
  b.beforeLists_eq true

theorem flush_flush (b : PictureBuffer) : b.flush.flush = b.flush := by
  rw [flush_eq, flush_eq, mapEntries_mapEntries]
  congr 1
  funext n p
  have hagain : afterFlush true (afterFlush true p) =
      { (afterFlush true p).retire with beforeIdr := true } := rfl
  rw [hagain, retire_afterFlush]
  rfl

/-- Nothing is left to be retired after a flush. -/
theorem retireUnlisted_flush (b : PictureBuffer) (q : RefQuery) (lists : ResolvedLists) :
    b.flush.retireUnlisted q lists = b.flush := by
  rw [retireUnlisted_eq, flush_eq, mapEntries_mapEntries]
  congr 1
  funext n p
  unfold afterRetire
  split
  case isTrue => rfl
  case isFalse => exact retire_afterFlush p

theorem update_flush (b : PictureBuffer) (q : RefQuery) : (b.update true q).2 = b.flush := by
  have hupdate : (b.update true q).2 =
      (b.flush.promote q).retireUnlisted q (b.update true q).1 := rfl
  rw [hupdate, promote_flush, retireUnlisted_flush]

/-! ### Updating twice -/

/-- **A second update comes to the same as the first one.** -/
theorem Coherent.update_update (hb : b.Coherent) (flushing : Bool) (q : RefQuery) :
    (b.update flushing q).2.update flushing q = b.update flushing q := by
  cases flushing with
  | true =>
    rw [update_flush]
    unfold update
    rw [if_pos rfl, if_pos rfl, flush_flush]
  | false =>
    have hagain : (b.update false q).2.update false q =
        (((b.update false q).2.resolve q).1,
          ((b.update false q).2.resolve q).2.retireUnlisted q ((b.update false q).2.resolve q).1) :=
      rfl
    rw [hagain, hb.resolve_update]
    exact congrArg (Prod.mk _) (retireUnlisted_retireUnlisted _ q _)

/-- **Marking is idempotent**: the same slice finds the same pictures again at the same places,
and neither the pictures of the buffer nor the flaws of the picture that the slice starts
change any more. -/
theorem Coherent.update_again (hb : b.Coherent) (header : Nal.Header) (slice : SliceHeader)
    (layers : Option LayerTable) (current : Picture) :
    let flushing := Decoder.flushes header slice
    let updated := b.update flushing (Decoder.queryOf layers slice current)
    let flawed := current.flawedBy updated.1
    let again := updated.2.update flushing (Decoder.queryOf layers slice flawed)
    again = updated ∧ flawed.flawedBy again.1 = flawed := by
  intro flushing updated flawed again
  -- What the slice asks for does not depend on flaws of the picture.
  have hagain : again = updated :=
    hb.update_update flushing (Decoder.queryOf layers slice current)
  rw [hagain]
  exact ⟨rfl, current.flawedBy_flawedBy updated.1⟩

/-- The first update marks two pictures for the long term and retires two. -/
theorem update_again_mixed :
    let current : Picture := { orderCount := 24 }
    let flushing := Decoder.flushes { kind := .trail } mixedSlice
    let updated := twoLayers.update flushing (Decoder.queryOf none mixedSlice current)
    let flawed := current.flawedBy updated.1
    let again := updated.2.update flushing (Decoder.queryOf none mixedSlice flawed)
    twoLayers.Coherent ∧ updated.2 ≠ twoLayers ∧
      updated.1 = { list0 := [some 1, some 0], list1 := [some 4], missing := false } ∧
      again = updated ∧ flawed.flawedBy again.1 = flawed := by
  have hcoherent : twoLayers.Coherent := by decide
  exact ⟨hcoherent, by decide +kernel, by decide +kernel,
    hcoherent.update_again { kind := .trail } mixedSlice none { orderCount := 24 }⟩

end PictureBuffer

/-- The picture that a slice starts is flawed by the lists of the slice. -/
theorem Decoder.exists_flawedBy_of_startPicture {d : Decoder} {header : Nal.Header}
    {slice : SliceHeader} {outcome : PictureOutcome}
    (h : (d.startPicture header slice).1 = .ok outcome) :
    ∃ orderCount, outcome.picture =
      { (pictureOf header slice orderCount).flawedBy outcome.lists with
        displayed := true, outputDone := true } := by
  unfold startPicture at h
  dsimp only at h
  split at h
  case h_1 => cases h
  case h_2 orderCount counter hnext =>
    obtain rfl := Except.ok.inj h
    exact ⟨orderCount, rfl⟩

end CodedVideo
