import CodedVideo.Decoder
import Mathlib.Tactic

/-!
# Marking of reference pictures

A buffer tells pictures apart by their numbers.  So entries with the same number have to
hold the same picture (`Coherent`); every operation on a buffer keeps this, together with
the next number being new (`Sound`), and so does a decoder that follows any stream
(`Decoder.run_sound`).

An entry of a list finds a reference picture or none.  Long-term entries come first, and
what they change is the marking of pictures that are references before and after, so
they do not get in the way of each other.  A picture of the current layer is therefore
a reference after an update exactly if it is listed, unless it shares the order count of
the current picture: see `Remarked`, which says of one entry what an update does to it,
and `Coherent.forall₂_remarked`.
-/

namespace CodedVideo

/-! ### Changing the marking of a picture -/

namespace Picture

/-- The picture without what reference management changes. -/
def core (p : Picture) : Picture :=
  { p with marking := .unused, referenced := false, references := 0, beforeIdr := false }

theorem mark_eq (p : Picture) (m : Marking) :
    ∃ k, p.mark m = { p with marking := m, references := k } := by
  unfold mark
  simp only
  split
  · exact ⟨_, rfl⟩
  · exact ⟨_, rfl⟩
  · exact ⟨_, rfl⟩

@[simp] theorem marking_mark (p : Picture) (m : Marking) : (p.mark m).marking = m := by
  obtain ⟨k, hk⟩ := p.mark_eq m
  rw [hk]

/-- Marking a picture as it is marked changes nothing. -/
theorem mark_of_marking_eq {p : Picture} {m : Marking} (h : p.marking = m) :
    p.mark m = p := by
  have hset : p.setMarking m = p := by rw [← h]; rfl
  unfold mark
  simp only [hset]
  cases p.isReference <;> rfl

@[simp] theorem core_mark (p : Picture) (m : Marking) : (p.mark m).core = p.core := by
  obtain ⟨k, hk⟩ := p.mark_eq m
  rw [hk]
  rfl

@[simp] theorem core_retire (p : Picture) : p.retire.core = p.core := core_mark p .unused

theorem layer_eq_of_core {p p' : Picture} (h : p.core = p'.core) : p.layer = p'.layer :=
  congrArg (·.layer) h

theorem orderCount_eq_of_core {p p' : Picture} (h : p.core = p'.core) :
    p.orderCount = p'.orderCount :=
  congrArg (·.orderCount) h

@[simp] theorem isReference_mark_longTerm (p : Picture) : (p.mark .longTerm).isReference = true := by
  rw [isReference, marking_mark]
  rfl

@[simp] theorem isReference_retire (p : Picture) : p.retire.isReference = false := by
  have hmarking : p.retire.marking = .unused := marking_mark p .unused
  rw [isReference, hmarking]
  rfl

end Picture

namespace PictureBuffer

/-! ### Buffers that tell their pictures apart -/

/-- Entries with the same number hold the same picture. -/
def Coherent (b : PictureBuffer) : Prop :=
  ∀ e ∈ b.entries, ∀ e' ∈ b.entries, e.number = e'.number → e.picture = e'.picture

instance (b : PictureBuffer) : Decidable b.Coherent :=
  inferInstanceAs (Decidable (∀ e ∈ b.entries, ∀ e' ∈ b.entries, e.number = e'.number →
    e.picture = e'.picture))

/-- A coherent buffer whose next number is new. -/
structure Sound (b : PictureBuffer) : Prop where
  coherent : b.Coherent
  fresh : ∀ e ∈ b.entries, e.number < b.nextNumber

/-- Each entry is changed by its number and picture alone. -/
def mapEntries (b : PictureBuffer) (f : Nat → Picture → Picture) : PictureBuffer :=
  { b with entries := b.entries.map fun e => { e with picture := f e.number e.picture } }

theorem modify_eq (b : PictureBuffer) (numbers : List Nat) (f : Picture → Picture) :
    b.modify numbers f = b.mapEntries fun n p => if n ∈ numbers then f p else p := by
  unfold modify mapEntries
  congr 2
  funext e
  dsimp only
  split <;> rfl

@[simp] theorem mapEntries_mapEntries (b : PictureBuffer) (f g : Nat → Picture → Picture) :
    (b.mapEntries f).mapEntries g = b.mapEntries fun n p => g n (f n p) := by
  unfold mapEntries
  rw [List.map_map]
  rfl

theorem mem_mapEntries {b : PictureBuffer} {f : Nat → Picture → Picture} {e' : StoredPicture} :
    e' ∈ (b.mapEntries f).entries ↔ ∃ e ∈ b.entries, ⟨e.number, f e.number e.picture⟩ = e' :=
  List.mem_map

theorem Coherent.mapEntries {b : PictureBuffer} (hb : b.Coherent) (f : Nat → Picture → Picture) :
    (b.mapEntries f).Coherent := by
  intro e₁ he₁ e₁' he₁' hnumber
  obtain ⟨e, he, rfl⟩ := mem_mapEntries.mp he₁
  obtain ⟨e', he', rfl⟩ := mem_mapEntries.mp he₁'
  have hnumber : e.number = e'.number := hnumber
  have hpicture : e.picture = e'.picture := hb e he e' he' hnumber
  rw [hnumber, hpicture]

theorem Sound.mapEntries {b : PictureBuffer} (hb : b.Sound) (f : Nat → Picture → Picture) :
    (b.mapEntries f).Sound where
  coherent := hb.coherent.mapEntries f
  fresh e₁ he₁ := by
    obtain ⟨e, he, rfl⟩ := mem_mapEntries.mp he₁
    exact hb.fresh e he

theorem Sound.of_subset {b : PictureBuffer} (hb : b.Sound) {entries : List StoredPicture}
    (h : entries ⊆ b.entries) : Sound { b with entries } where
  coherent e he e' he' := hb.coherent e (h he) e' (h he')
  fresh e he := hb.fresh e (h he)

theorem sound_empty (capacity : Nat) : Sound { capacity } where
  coherent _ he := absurd he List.not_mem_nil
  fresh _ he := absurd he List.not_mem_nil

theorem Sound.store {b b' : PictureBuffer} (hb : b.Sound) {p : Picture} (h : b.store p = .ok b') :
    b'.Sound := by
  unfold PictureBuffer.store at h
  split at h
  case isFalse => cases h
  case isTrue =>
    obtain rfl := Except.ok.inj h
    -- The new number is unlike those of the entries before.
    have hnew : ∀ e ∈ b.entries, e.number ≠ b.nextNumber := fun e he => (hb.fresh e he).ne
    constructor
    · intro e he e' he' hnumber
      rcases List.mem_append.mp he with he | he <;> rcases List.mem_append.mp he' with he' | he'
      · exact hb.coherent e he e' he' hnumber
      · rw [List.mem_singleton.mp he'] at hnumber
        exact absurd hnumber (hnew e he)
      · rw [List.mem_singleton.mp he] at hnumber
        exact absurd hnumber.symm (hnew e' he')
      · rw [List.mem_singleton.mp he, List.mem_singleton.mp he']
    · intro e he
      rcases List.mem_append.mp he with he | he
      · exact (hb.fresh e he).trans (Nat.lt_succ_self _)
      · rw [List.mem_singleton.mp he]
        exact Nat.lt_succ_self _

theorem Sound.storeAgain {b b' : PictureBuffer} (hb : b.Sound) {e : StoredPicture}
    (he : e ∈ b.entries) (h : b.storeAgain e = .ok b') : b'.Sound := by
  unfold PictureBuffer.storeAgain at h
  split at h
  case isFalse => cases h
  case isTrue =>
    obtain rfl := Except.ok.inj h
    -- The entry added is the changed one, so the buffer is one of the changed entries.
    have hadded : (⟨e.number, asDecoded e.picture⟩ : StoredPicture) ∈
        (b.modify [e.number] asDecoded).entries :=
      List.mem_map.mpr ⟨e, he, if_pos (List.mem_singleton.mpr rfl)⟩
    rw [modify_eq] at hadded ⊢
    exact (hb.mapEntries _).of_subset
      (List.append_subset.mpr ⟨List.Subset.refl _, List.cons_subset.mpr ⟨hadded, List.nil_subset _⟩⟩)

/-! ### What the entries of a list find -/

theorem exists_of_findNumber {b : PictureBuffer} {p : Picture → Bool} {n : Nat}
    (h : b.findNumber p = some n) : ∃ e ∈ b.entries, e.number = n ∧ p e.picture := by
  obtain ⟨e, he, hn⟩ := Option.map_eq_some_iff.mp h
  have hp := List.find?_some (p := fun e : StoredPicture => p e.picture) he
  exact ⟨e, List.mem_of_find?_eq_some he, hn, hp⟩

/-- A long-term entry finds a reference picture of the current layer. -/
theorem exists_of_findLongTerm {b : PictureBuffer} {q : RefQuery} {lsb n : Nat}
    {msbCycle : Option Nat} (h : b.findLongTerm q lsb msbCycle = some n) :
    ∃ e ∈ b.entries, e.number = n ∧ e.picture.isReference ∧ e.picture.layer = q.layer := by
  unfold findLongTerm findReference findByLsb at h
  cases msbCycle with
  | some cycle =>
    obtain ⟨e, he, hn, hp⟩ := exists_of_findNumber h
    simp only [Bool.and_eq_true, beq_iff_eq] at hp
    exact ⟨e, he, hn, hp.1.1, hp.1.2⟩
  | none =>
    obtain ⟨e, he, hn, hp⟩ := exists_of_findNumber h
    simp only [Bool.and_eq_true, beq_iff_eq] at hp
    exact ⟨e, he, hn, hp.1.1, hp.1.2⟩

theorem exists_of_findShortTerm {b : PictureBuffer} {orderCount : Int} {layer n : Nat}
    (h : b.findShortTerm orderCount layer = some n) :
    ∃ e ∈ b.entries, e.number = n ∧ e.picture.isReference := by
  obtain ⟨e, he, hn, hp⟩ := exists_of_findNumber h
  simp only [Bool.and_eq_true, beq_iff_eq] at hp
  exact ⟨e, he, hn, by rw [Picture.isReference, hp.1.1]; rfl⟩

theorem exists_of_findInterLayer {b : PictureBuffer} {q : RefQuery} {reference n : Nat}
    (h : b.findInterLayer q reference = some n) :
    ∃ e ∈ b.entries, e.number = n ∧ e.picture.isReference := by
  obtain ⟨layers, -, h⟩ := Option.bind_eq_some_iff.mp h
  obtain ⟨layer, -, h⟩ := Option.bind_eq_some_iff.mp h
  obtain ⟨e, he, hn, hp⟩ := exists_of_findNumber h
  simp only [Bool.and_eq_true] at hp
  exact ⟨e, he, hn, hp.1.1⟩

/-- Whatever is listed is a reference picture of the buffer. -/
theorem exists_of_mem_pickFrom {b : PictureBuffer} {q : RefQuery} {base : Int}
    {entries : List RefEntry} {n : Nat} (h : some n ∈ b.pickFrom q base entries) :
    ∃ e ∈ b.entries, e.number = n ∧ e.picture.isReference := by
  induction entries generalizing base with
  | nil => exact absurd h List.not_mem_nil
  | cons entry rest ih =>
    cases entry with
    | shortTerm delta =>
      rcases List.mem_cons.mp h with h | h
      · exact exists_of_findShortTerm h.symm
      · exact ih h
    | longTerm lsb msbCycle =>
      rcases List.mem_cons.mp h with h | h
      · obtain ⟨e, he, hn, href, -⟩ := exists_of_findLongTerm h.symm
        exact ⟨e, he, hn, href⟩
      · exact ih h
    | interLayer reference =>
      rcases List.mem_cons.mp h with h | h
      · exact exists_of_findInterLayer h.symm
      · exact ih h

theorem mem_longTermPicks {b : PictureBuffer} {q : RefQuery} {entries : List RefEntry} {n : Nat} :
    n ∈ b.longTermPicks q entries ↔
      ∃ lsb msbCycle, .longTerm lsb msbCycle ∈ entries ∧ b.findLongTerm q lsb msbCycle = some n := by
  unfold longTermPicks
  rw [List.mem_filterMap]
  constructor
  · rintro ⟨entry, hmem, h⟩
    cases entry with
    | longTerm lsb msbCycle => exact ⟨lsb, msbCycle, hmem, h⟩
    | shortTerm => cases h
    | interLayer => cases h
  · rintro ⟨lsb, msbCycle, hmem, h⟩
    exact ⟨_, hmem, h⟩

/-! ### What an update does to one picture -/

/-- A picture after an IDR picture has flushed the buffer, if it has. -/
def afterFlush (flushing : Bool) (p : Picture) : Picture :=
  if flushing then { p.retire with beforeIdr := true } else p

/-- The pictures that the long-term entries of both lists find. -/
def promoted (b : PictureBuffer) (q : RefQuery) : List Nat :=
  b.longTermPicks q q.list0.entries ++ b.longTermPicks q q.list1.entries

/-- The picture with number `n` after the long-term entries have been resolved. -/
def afterPromote (b : PictureBuffer) (q : RefQuery) (n : Nat) (p : Picture) : Picture :=
  if n ∈ b.promoted q then p.mark .longTerm else p

/-- The picture with number `n` after the unlisted ones have been retired. -/
def afterRetire (q : RefQuery) (lists : ResolvedLists) (n : Nat) (p : Picture) : Picture :=
  if (lists.list0 ++ lists.list1).contains (some n) ∨ p.layer ≠ q.layer
      ∨ p.orderCount = q.orderCount then p
  else p.retire

@[simp] theorem core_afterFlush (flushing : Bool) (p : Picture) :
    (afterFlush flushing p).core = p.core := by
  cases flushing with
  | false => rfl
  | true => exact Picture.core_retire p

@[simp] theorem core_afterPromote (b : PictureBuffer) (q : RefQuery) (n : Nat) (p : Picture) :
    (b.afterPromote q n p).core = p.core := by
  unfold afterPromote
  split
  · exact Picture.core_mark p _
  · rfl

@[simp] theorem core_afterRetire (q : RefQuery) (lists : ResolvedLists) (n : Nat) (p : Picture) :
    (afterRetire q lists n p).core = p.core := by
  unfold afterRetire
  split
  · rfl
  · exact Picture.core_retire p

/-- The buffer as the lists of a picture find it. -/
def beforeLists (b : PictureBuffer) (flushing : Bool) : PictureBuffer :=
  if flushing then b.flush else b

theorem beforeLists_eq (b : PictureBuffer) (flushing : Bool) :
    b.beforeLists flushing = b.mapEntries fun _ p => afterFlush flushing p := by
  cases flushing with
  | true => rfl
  | false => simp [beforeLists, mapEntries, afterFlush]

theorem promote_eq (b : PictureBuffer) (q : RefQuery) :
    b.promote q = b.mapEntries (b.afterPromote q) :=
  modify_eq b _ _

theorem retireUnlisted_eq (b : PictureBuffer) (q : RefQuery) (lists : ResolvedLists) :
    b.retireUnlisted q lists = b.mapEntries (afterRetire q lists) := by
  unfold retireUnlisted mapEntries afterRetire
  congr 2
  funext e
  simp only [List.contains_iff_mem]
  split <;> rfl

/-- The picture with number `n` as the short-term entries see it. -/
def atLists (b : PictureBuffer) (flushing : Bool) (q : RefQuery) (n : Nat) (p : Picture) :
    Picture :=
  (b.beforeLists flushing).afterPromote q n (afterFlush flushing p)

theorem promote_beforeLists (b : PictureBuffer) (flushing : Bool) (q : RefQuery) :
    (b.beforeLists flushing).promote q = b.mapEntries (b.atLists flushing q) := by
  rw [promote_eq]
  conv_lhs => rw [beforeLists_eq b flushing]
  rw [mapEntries_mapEntries, ← beforeLists_eq b flushing]
  rfl

theorem update_snd (b : PictureBuffer) (flushing : Bool) (q : RefQuery) :
    (b.update flushing q).2 = b.mapEntries fun n p =>
      afterRetire q (b.update flushing q).1 n (b.atLists flushing q n p) := by
  have hupdate : (b.update flushing q).2 =
      ((b.beforeLists flushing).promote q).retireUnlisted q (b.update flushing q).1 := rfl
  rw [hupdate, promote_beforeLists, retireUnlisted_eq, mapEntries_mapEntries]

theorem mem_promoted {b : PictureBuffer} {q : RefQuery} {n : Nat} :
    n ∈ b.promoted q ↔ ∃ lsb msbCycle,
      .longTerm lsb msbCycle ∈ q.list0.entries ++ q.list1.entries ∧
        b.findLongTerm q lsb msbCycle = some n := by
  simp only [promoted, List.mem_append, mem_longTermPicks, ← exists_or, or_and_right]

theorem Coherent.of_mem_promoted {b : PictureBuffer} (hb : b.Coherent) {q : RefQuery}
    {e : StoredPicture} (he : e ∈ b.entries) (h : e.number ∈ b.promoted q) :
    e.picture.isReference ∧ e.picture.layer = q.layer := by
  obtain ⟨lsb, msbCycle, -, hfind⟩ := mem_promoted.mp h
  obtain ⟨e', he', hn, href, hlayer⟩ := exists_of_findLongTerm hfind
  rw [hb e he e' he' hn.symm]
  exact ⟨href, hlayer⟩

/-- Promotion does not change whether a picture is a reference. -/
theorem Coherent.isReference_afterPromote {b : PictureBuffer} (hb : b.Coherent) (q : RefQuery)
    {e : StoredPicture} (he : e ∈ b.entries) :
    (b.afterPromote q e.number e.picture).isReference = e.picture.isReference := by
  unfold afterPromote
  split
  · rename_i hmem
    rw [Picture.isReference_mark_longTerm, (hb.of_mem_promoted he hmem).1]
  · rfl

/-! ### What an update does -/

/-- A listed picture is in the buffer that the short-term entries see, as a reference. -/
theorem exists_of_mem_resolve {b : PictureBuffer} {q : RefQuery} {n : Nat}
    (h : some n ∈ (b.resolve q).1.list0 ++ (b.resolve q).1.list1) :
    ∃ e ∈ (b.promote q).entries, e.number = n ∧ e.picture.isReference := by
  rcases List.mem_append.mp h with h | h
  · exact exists_of_mem_pickFrom h
  · exact exists_of_mem_pickFrom h

/-- What an update that yields `lists` makes of an entry of the buffer. -/
structure Remarked (b : PictureBuffer) (flushing : Bool) (q : RefQuery) (lists : ResolvedLists)
    (e e' : StoredPicture) : Prop where
  number : e'.number = e.number
  /-- The picture is the same but for its marking. -/
  core : e'.picture.core = e.picture.core
  /-- A picture of the current layer is a reference if and only if it is listed. -/
  isReference_iff : e.picture.layer = q.layer → e.picture.orderCount ≠ q.orderCount →
    (e'.picture.isReference ↔ some e.number ∈ lists.list0 ++ lists.list1)
  /-- A listed picture is a reference, whatever its layer and order count. -/
  isReference_of_mem : some e.number ∈ lists.list0 ++ lists.list1 → e'.picture.isReference
  /-- A picture of another layer stays as it is. -/
  eq_of_layer_ne : flushing = false → e.picture.layer ≠ q.layer → e' = e
  /-- A picture of the current layer that shares the current order count stays as it is
  unless a long-term entry finds it. -/
  found_of_ne : flushing = false → e.picture.layer = q.layer →
    e.picture.orderCount = q.orderCount → e' ≠ e →
      ∃ lsb msbCycle, .longTerm lsb msbCycle ∈ q.list0.entries ++ q.list1.entries ∧
        b.findLongTerm q lsb msbCycle = some e.number

section Update

variable {b : PictureBuffer} {flushing : Bool} {q : RefQuery} {lists : ResolvedLists}
  {e : StoredPicture}

theorem Coherent.isReference_atLists (hb : b.Coherent) (he : e ∈ b.entries)
    (hlists : (b.update flushing q).1 = lists)
    (h : some e.number ∈ lists.list0 ++ lists.list1) :
    (b.atLists flushing q e.number e.picture).isReference := by
  rw [← hlists] at h
  obtain ⟨e', he', hn, href⟩ := exists_of_mem_resolve (b := b.beforeLists flushing) h
  rw [promote_beforeLists] at he'
  have hseen : ⟨e.number, b.atLists flushing q e.number e.picture⟩ ∈
      (b.mapEntries (b.atLists flushing q)).entries := mem_mapEntries.mpr ⟨e, he, rfl⟩
  have hpicture : b.atLists flushing q e.number e.picture = e'.picture :=
    hb.mapEntries _ _ hseen e' he' hn.symm
  rw [hpicture]
  exact href

/-- Without a flush the long-term entries change nothing but what they find. -/
theorem atLists_eq_self (hfound : e.number ∉ b.promoted q) :
    b.atLists false q e.number e.picture = e.picture :=
  if_neg hfound

theorem Coherent.remarked (hb : b.Coherent) (he : e ∈ b.entries)
    (hlists : (b.update flushing q).1 = lists) :
    b.Remarked flushing q lists e
      ⟨e.number, afterRetire q lists e.number (b.atLists flushing q e.number e.picture)⟩ := by
  have hcore : (b.atLists flushing q e.number e.picture).core = e.picture.core := by
    rw [atLists, core_afterPromote, core_afterFlush]
  have hlayer := Picture.layer_eq_of_core hcore
  have hcount := Picture.orderCount_eq_of_core hcore
  constructor
  case number => rfl
  case core => exact (core_afterRetire ..).trans hcore
  case isReference_iff =>
    -- What is listed has been found as a reference and is kept; what is not is retired.
    intro hin hne
    by_cases hmem : some e.number ∈ lists.list0 ++ lists.list1
    · simp only [afterRetire, List.contains_iff_mem, hmem, true_or, if_true, iff_true]
      exact hb.isReference_atLists he hlists hmem
    · simp only [afterRetire, List.contains_iff_mem, hmem, hlayer, hcount, hin, hne, ne_eq,
        not_true_eq_false, or_self, if_false, Picture.isReference_retire, Bool.false_eq_true]
  case isReference_of_mem =>
    intro hmem
    simp only [afterRetire, List.contains_iff_mem, hmem, true_or, if_true]
    exact hb.isReference_atLists he hlists hmem
  case eq_of_layer_ne =>
    rintro rfl hout
    have hfound : e.number ∉ b.promoted q := fun h => hout (hb.of_mem_promoted he h).2
    simp [afterRetire, atLists_eq_self hfound, hout]
  case found_of_ne =>
    rintro rfl hin heq hchanged
    by_contra hnone
    have hfound : e.number ∉ b.promoted q := fun h => hnone (mem_promoted.mp h)
    exact hchanged (by simp [afterRetire, atLists_eq_self hfound, heq])

/-- **An update keeps the entries in their order and makes exactly the listed ones of the
current layer references.** -/
theorem Coherent.forall₂_remarked (hb : b.Coherent) (flushing : Bool) (q : RefQuery) :
    List.Forall₂ (b.Remarked flushing q (b.update flushing q).1) b.entries
      (b.update flushing q).2.entries := by
  rw [update_snd]
  exact List.forall₂_map_right_iff.mpr (List.forall₂_same.mpr fun e he => hb.remarked he rfl)

theorem Coherent.exists_of_mem_update (hb : b.Coherent) {n : Nat}
    (h : some n ∈ (b.update flushing q).1.list0 ++ (b.update flushing q).1.list1) :
    ∃ e ∈ (b.update flushing q).2.entries, e.number = n ∧ e.picture.isReference := by
  obtain ⟨e₁, he₁, rfl, -⟩ := exists_of_mem_resolve (b := b.beforeLists flushing) h
  rw [promote_beforeLists] at he₁
  obtain ⟨e, he, rfl⟩ := mem_mapEntries.mp he₁
  rw [update_snd]
  exact ⟨_, mem_mapEntries.mpr ⟨e, he, rfl⟩, rfl, (hb.remarked he rfl).isReference_of_mem h⟩

/-- **The marking of references is exact.**  When a slice starts a picture, the entries of
the buffer keep their order and each is remarked as the lists say, which name nothing but
references of the buffer. -/
theorem Coherent.marks_listed (hb : b.Coherent) (header : Nal.Header) (slice : SliceHeader)
    (layers : Option LayerTable) (current : Picture) :
    let flushing := Decoder.flushes header slice
    let q := Decoder.queryOf layers slice current
    let updated := b.update flushing q
    List.Forall₂ (b.Remarked flushing q updated.1) b.entries updated.2.entries ∧
      ∀ n, some n ∈ updated.1.list0 ++ updated.1.list1 →
        ∃ e ∈ updated.2.entries, e.number = n ∧ e.picture.isReference :=
  ⟨hb.forall₂_remarked _ _, fun _ h => hb.exists_of_mem_update h⟩

end Update

/-- Short-term reference pictures of two layers.  Two of them share an order count, one is
stored twice, and two share the order count 24 of the picture that follows. -/
def twoLayers : PictureBuffer where
  entries := [
    ⟨0, stored 0 0⟩, ⟨1, stored 0 20⟩, ⟨2, stored 0 22⟩, ⟨3, stored 0 20⟩, ⟨1, stored 0 20⟩,
    ⟨4, stored 0 24⟩, ⟨5, stored 1 24⟩]
  capacity := 8
  nextNumber := 6
where
  /-- A picture that has been stored. -/
  stored (layer : Nat) (orderCount : Int) : Picture := asDecoded { layer, orderCount }

/-- A slice whose first list names the order counts 20 and, for the long term, 0, and whose
second list names 24 for the long term. -/
def mixedSlice : SliceHeader where
  carriesPicture := false
  place := {}
  type := default
  noOutputOfPrior := false
  mapped := false
  scaled := false
  active := { counts := (2, 1) }
  motion := default
  qp := default
  deblockingCoded := false
  residuals := default
  extensionLength := 0
  streams := default
  own := {}
  applied := { lists := {
    list0 := {
      content := { entries := [.shortTerm 3 (-4), .longTerm none] }
      longTerm := [{ codedLsb := some 0, codedCycle := some 1, lsb := 0, cycle := 1 }] }
    list1 := {
      content := { entries := [.longTerm none] }
      longTerm := [{ codedLsb := some 8, codedCycle := none, lsb := 8, cycle := 0 }] } } }
  ctbs := []
  picture := { motion := {
    opticalFlowOff := false, refinementOff := false, affineRefinementOff := false } }
  pps := {}

/-- Picture 2 and the second one with the order count 20 are retired. -/
theorem marks_listed_mixed :
    let current : Picture := { orderCount := 24 }
    let flushing := Decoder.flushes { kind := .trail } mixedSlice
    let q := Decoder.queryOf none mixedSlice current
    let updated := twoLayers.update flushing q
    List.Forall₂ (twoLayers.Remarked flushing q updated.1) twoLayers.entries
        updated.2.entries ∧
      updated.1 = { list0 := [some 1, some 0], list1 := [some 4], missing := false } ∧
      updated.2.entries.map (fun e => (e.number, e.picture.marking)) =
        [(0, .longTerm), (1, .shortTerm), (2, .unused), (3, .unused), (1, .shortTerm),
          (4, .longTerm), (5, .shortTerm)] := by
  have hcoherent : twoLayers.Coherent := by decide
  exact ⟨(hcoherent.marks_listed { kind := .trail } mixedSlice none { orderCount := 24 }).1,
    by decide +kernel, by decide +kernel⟩

end PictureBuffer

/-! ### Buffers of a decoder -/

namespace PictureBuffer

theorem Sound.update {b : PictureBuffer} (hb : b.Sound) (flushing : Bool) (q : RefQuery) :
    (b.update flushing q).2.Sound := by
  rw [update_snd]
  exact hb.mapEntries _

theorem Sound.removeDisposable {b : PictureBuffer} (hb : b.Sound) : b.removeDisposable.Sound :=
  hb.of_subset (List.filter_subset_self _)

theorem Sound.clear {b : PictureBuffer} (hb : b.Sound) : b.clear.Sound :=
  hb.of_subset (List.nil_subset _)

end PictureBuffer

namespace Decoder

open PictureBuffer

theorem sound_store {b : PictureBuffer} (hb : b.Sound) (p : Picture) : (store b p).2.Sound := by
  unfold store
  split
  · rename_i hstore
    exact hb.removeDisposable.store hstore
  · exact (hb.removeDisposable.mapEntries fun _ p => p.retire).clear

theorem sound_startPicture {d : Decoder} (hd : d.buffer.Sound) (header : Nal.Header)
    (slice : SliceHeader) : (d.startPicture header slice).2.buffer.Sound := by
  unfold startPicture
  dsimp only
  split
  · exact hd
  · exact sound_store (hd.update _ _) _

/-- A decoder that has kept at most `capacity` pictures from its start on.  What else it
receives between two pictures leaves its buffer as it is. -/
inductive Running (capacity : Nat) : Decoder → Prop where
  | start {d : Decoder} (h : d.buffer = { capacity }) : Running capacity d
  | picture {d : Decoder} (hd : Running capacity d) (header : Nal.Header) (slice : SliceHeader) :
    Running capacity (d.startPicture header slice).2
  | other {d d' : Decoder} (hd : Running capacity d) (h : d'.buffer = d.buffer) :
    Running capacity d'

variable {capacity : Nat} {d : Decoder}

theorem Running.sound (hd : d.Running capacity) : d.buffer.Sound := by
  induction hd with
  | start h =>
    rw [h]
    exact sound_empty capacity
  | picture _ header slice ih => exact sound_startPicture ih header slice
  | other _ h ih =>
    rw [h]
    exact ih

theorem Running.receiveSlice (hd : d.Running capacity) (nal : Nal) :
    (d.receiveSlice nal).2.Running capacity := by
  unfold Decoder.receiveSlice
  split
  · exact hd.other rfl
  · rename_i slice session _
    have hread : Running capacity { d with session } := hd.other rfl
    dsimp only
    split
    · exact hread
    · have hstart := hread.picture nal.header slice
      split <;> rename_i heq
      · rw [heq] at hstart
        exact hstart
      · rw [heq] at hstart
        exact hstart

/-- **What a decoder receives are pictures and what leaves its buffer as it is.** -/
theorem Running.receive (hd : d.Running capacity) (nal : Nal) :
    (d.receive nal).2.Running capacity := by
  unfold Decoder.receive
  split
  all_goals try exact hd.other rfl
  · split
    · exact hd.receiveSlice nal
    · exact hd

theorem Running.runFrom (data : List UInt8) (limit cursor : Nat) (hd : d.Running capacity) :
    ∀ step ∈ Decoder.runFrom data limit cursor d, step.2.2.Running capacity := by
  induction limit generalizing cursor d with
  | zero => exact fun _ h => absurd h List.not_mem_nil
  | succ limit ih =>
    rw [Decoder.runFrom]
    split
    · exact List.forall_mem_singleton.mpr hd
    · exact List.forall_mem_cons.mpr ⟨hd, ih _ hd⟩
    · exact List.forall_mem_cons.mpr ⟨hd.receive _, ih _ (hd.receive _)⟩

theorem running_run (data : List UInt8) (escaped : Bool) (capacity : Nat) :
    ∀ step ∈ run data (start escaped capacity), step.2.2.Running capacity :=
  Running.runFrom data _ 0 (.start rfl)

/-- **Every buffer of a run is sound.** -/
theorem run_sound (data : List UInt8) (escaped : Bool) (capacity : Nat) :
    ∀ step ∈ run data (start escaped capacity), step.2.2.buffer.Sound :=
  fun step hstep => (running_run data escaped capacity step hstep).sound

end Decoder

end CodedVideo
