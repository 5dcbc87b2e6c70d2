import CodedVideo.Proofs.ListTargets
import Mathlib.Tactic

/-!
# How the entries of both lists share the buffer

The lists of a slice are resolved in two rounds.  In the first one the long-term entries of
both lists mark the pictures that they find, in the second one the short-term entries look
among the pictures that are left.  What a long-term entry finds are references before and
after they are marked, so it does not matter how many of the other long-term entries have
had their turn: `resolveInTurn` takes the entries one after the other, each with its effect
on the buffer, and has the same outcome as `resolve` (`Coherent.resolveInTurn_eq`).

The second round changes nothing.  So the answer to an entry is told by the entry and by the
distances of the short-term ones before it (`getElem?_pickFrom`).  Two facts follow: a
picture is never named both for the short and for the long term
(`Coherent.shortTerm_apart`), and it does not matter which list comes first
(`update_exchange`).
-/

namespace CodedVideo

/-! ### Answers -/

/-- How far an entry moves the order count from which the next short-term one is counted. -/
def RefEntry.distance : RefEntry → Int
  | shortTerm delta => delta
  | longTerm .. => 0
  | interLayer .. => 0

/-- The order count for which entry `j` of a list looks if it is a short-term one. -/
def RefQuery.countAt (q : RefQuery) (request : RefRequest) (j : Nat) : Int :=
  wrapCount (q.orderCount + ((request.entries.take (j + 1)).map RefEntry.distance).sum)

/-- A list that is asked for and what it has been resolved to. -/
structure RefAnswer where
  request : RefRequest
  list : RefList

/-- Entry `j` of a list is `entry` and names the picture with number `n`. -/
structure RefAnswer.Names (a : RefAnswer) (j : Nat) (entry : RefEntry) (n : Nat) : Prop where
  entry_eq : a.request.entries[j]? = some entry
  number_eq : a.list[j]? = some (some n)

namespace RefQuery

/-- The answers to both lists. -/
def answers (q : RefQuery) (lists : ResolvedLists) : List RefAnswer :=
  [⟨q.list0, lists.list0⟩, ⟨q.list1, lists.list1⟩]

/-- A short-term entry of either list names the picture with number `n`. -/
def NamesShortTerm (q : RefQuery) (lists : ResolvedLists) (n : Nat) : Prop :=
  ∃ a ∈ q.answers lists, ∃ j delta, a.Names j (.shortTerm delta) n

/-- A long-term entry of either list names the picture with number `n`. -/
def NamesLongTerm (q : RefQuery) (lists : ResolvedLists) (n : Nat) : Prop :=
  ∃ a ∈ q.answers lists, ∃ j lsb msbCycle, a.Names j (.longTerm lsb msbCycle) n

end RefQuery

namespace PictureBuffer

variable {b : PictureBuffer} {q : RefQuery}

/-- The picture that an entry names, `count` being the order count for which it looks if it is
a short-term one. -/
def answer (b : PictureBuffer) (q : RefQuery) (count : Int) : RefEntry → Option Nat
  | .shortTerm _ => b.findShortTerm count q.layer
  | .longTerm lsb msbCycle => b.findLongTerm q lsb msbCycle
  | .interLayer reference => b.findInterLayer q reference

/-- **An entry of a list is told by itself and by the distances up to it.** -/
theorem getElem?_pickFrom (b : PictureBuffer) (q : RefQuery) (base : Int)
    (entries : List RefEntry) (j : Nat) :
    (b.pickFrom q base entries)[j]? = entries[j]?.map
      (b.answer q (wrapCount (base + ((entries.take (j + 1)).map RefEntry.distance).sum))) := by
  induction entries generalizing base j with
  | nil => rfl
  | cons entry rest ih =>
    rw [List.take_succ_cons, List.map_cons, List.sum_cons]
    cases j with
    | zero =>
      rw [List.take_zero, List.map_nil, List.sum_nil, add_zero]
      cases entry with
      | shortTerm delta => rfl
      | longTerm lsb msbCycle => rfl
      | interLayer reference => rfl
    | succ j =>
      cases entry with
      | shortTerm delta =>
        -- The count of the first entry is reduced to 32 bits before the others are added.
        rw [pickFrom, List.getElem?_cons_succ, ih, List.getElem?_cons_succ, RefEntry.distance,
          ← add_assoc]
        unfold wrapCount
        rw [Int.bmod_add_bmod]
      | longTerm lsb msbCycle =>
        rw [pickFrom, List.getElem?_cons_succ, ih, List.getElem?_cons_succ, RefEntry.distance,
          zero_add]
      | interLayer reference =>
        rw [pickFrom, List.getElem?_cons_succ, ih, List.getElem?_cons_succ, RefEntry.distance,
          zero_add]

theorem length_pickFrom (b : PictureBuffer) (q : RefQuery) (base : Int)
    (entries : List RefEntry) : (b.pickFrom q base entries).length = entries.length := by
  induction entries generalizing base with
  | nil => rfl
  | cons entry rest ih =>
    cases entry with
    | shortTerm delta => exact congrArg (· + 1) (ih _)
    | longTerm lsb msbCycle => exact congrArg (· + 1) (ih _)
    | interLayer reference => exact congrArg (· + 1) (ih _)

/-- Both answers are picked from the buffer in which the long-term entries have been marked. -/
theorem mem_answers {a : RefAnswer} : a ∈ q.answers (b.resolve q).1 ↔
    ∃ request ∈ [q.list0, q.list1], a = ⟨request, (b.promote q).pick q request⟩ := by
  simp [RefQuery.answers, resolve]

theorem getElem?_answer {a : RefAnswer} (ha : a ∈ q.answers (b.resolve q).1) (j : Nat) :
    a.list[j]? =
      a.request.entries[j]?.map ((b.promote q).answer q (q.countAt a.request j)) := by
  obtain ⟨request, -, rfl⟩ := mem_answers.mp ha
  exact getElem?_pickFrom ..

/-! ### Short-term entries -/

/-- A picture that a short-term entry may name: one with the right order count that is marked
for the short term and that no entry names for the long term. -/
structure Selectable (b : PictureBuffer) (q : RefQuery) (lists : ResolvedLists) (count : Int)
    (e : StoredPicture) : Prop where
  mem : e ∈ b.entries
  layer : e.picture.layer = q.layer
  marking : e.picture.marking = .shortTerm
  orderCount : e.picture.orderCount = count
  apart : ¬ q.NamesLongTerm lists e.number

theorem exists_answer_of_mem {entry : RefEntry} (hmem : entry ∈ q.list0.entries ++ q.list1.entries)
    (lists : ResolvedLists) :
    ∃ a ∈ q.answers lists, ∃ j : Nat, a.request.entries[j]? = some entry := by
  rcases List.mem_append.mp hmem with hmem | hmem
  · obtain ⟨j, hj⟩ := List.mem_iff_getElem?.mp hmem
    exact ⟨_, List.mem_cons_self, j, hj⟩
  · obtain ⟨j, hj⟩ := List.mem_iff_getElem?.mp hmem
    exact ⟨_, List.mem_cons_of_mem _ List.mem_cons_self, j, hj⟩

theorem mem_entries_of_answer {a : RefAnswer} {lists : ResolvedLists} (ha : a ∈ q.answers lists)
    {j : Nat} {entry : RefEntry} (hj : a.request.entries[j]? = some entry) :
    entry ∈ q.list0.entries ++ q.list1.entries := by
  have hmem := List.mem_of_getElem? hj
  rcases List.mem_cons.mp ha with rfl | ha
  · exact List.mem_append_left _ hmem
  · obtain rfl := List.mem_singleton.mp ha
    exact List.mem_append_right _ hmem

/-- The pictures that have been marked are those that the long-term entries name. -/
theorem Coherent.namesLongTerm_iff (hb : b.Coherent) {n : Nat} :
    q.NamesLongTerm (b.resolve q).1 n ↔ n ∈ b.promoted q := by
  rw [mem_promoted]
  constructor
  · rintro ⟨a, ha, j, lsb, msbCycle, hentry, hnumber⟩
    refine ⟨lsb, msbCycle, mem_entries_of_answer ha hentry, ?_⟩
    rw [getElem?_answer ha, hentry] at hnumber
    rw [← hb.findLongTerm_promote q]
    exact Option.some.inj hnumber
  · rintro ⟨lsb, msbCycle, hmem, hfind⟩
    obtain ⟨a, ha, j, hentry⟩ := exists_answer_of_mem hmem (b.resolve q).1
    refine ⟨a, ha, j, lsb, msbCycle, hentry, ?_⟩
    rw [getElem?_answer ha, hentry, Option.map_some, answer, hb.findLongTerm_promote, hfind]

/-- What is looked for among the promoted pictures are the short-term ones left. -/
theorem matches_promoted {count : Int} {e : StoredPicture} :
    ((b.afterPromote q e.number e.picture).marking == .shortTerm &&
        (b.afterPromote q e.number e.picture).layer == q.layer &&
        (b.afterPromote q e.number e.picture).orderCount == count) = true ↔
      e.number ∉ b.promoted q ∧ e.picture.marking = .shortTerm ∧ e.picture.layer = q.layer ∧
        e.picture.orderCount = count := by
  simp only [Bool.and_eq_true, beq_iff_eq, layer_afterPromote, orderCount_afterPromote, and_assoc]
  by_cases hmem : e.number ∈ b.promoted q
  · rw [afterPromote, if_pos hmem, Picture.marking_mark]
    simp [hmem]
  · rw [afterPromote, if_neg hmem]
    simp [hmem]

/-- What a short-term entry names is selectable. -/
theorem Coherent.selectable_of_findShortTerm (hb : b.Coherent) {count : Int} {n : Nat}
    (h : (b.promote q).findShortTerm count q.layer = some n) :
    ∃ e, b.Selectable q (b.resolve q).1 count e ∧ e.number = n := by
  rw [promote_eq] at h
  obtain ⟨e', he', rfl, hp⟩ := exists_of_findNumber h
  obtain ⟨e, he, rfl⟩ := mem_mapEntries.mp he'
  obtain ⟨hapart, hmarking, hlayer, hcount⟩ := matches_promoted.mp hp
  exact ⟨e, ⟨he, hlayer, hmarking, hcount, mt hb.namesLongTerm_iff.mp hapart⟩, rfl⟩

/-- A short-term entry is resolved if there is something to select. -/
theorem Coherent.findShortTerm_of_selectable (hb : b.Coherent) {count : Int} {e : StoredPicture}
    (h : b.Selectable q (b.resolve q).1 count e) :
    ∃ n, (b.promote q).findShortTerm count q.layer = some n := by
  have hapart : e.number ∉ b.promoted q := mt hb.namesLongTerm_iff.mpr h.apart
  have hmatches := matches_promoted.mpr ⟨hapart, h.marking, h.layer, h.orderCount⟩
  have hmem : ⟨e.number, b.afterPromote q e.number e.picture⟩ ∈ (b.promote q).entries := by
    rw [promote_eq]
    exact mem_mapEntries.mpr ⟨e, h.mem, rfl⟩
  rw [← Option.isSome_iff_exists, findShortTerm, findNumber, Option.isSome_map,
    List.find?_isSome]
  exact ⟨_, hmem, hmatches⟩

theorem Coherent.exists_selectable (hb : b.Coherent) {a : RefAnswer}
    (ha : a ∈ q.answers (b.resolve q).1) {j : Nat} {delta : Int} {n : Nat}
    (h : a.Names j (.shortTerm delta) n) :
    ∃ e, b.Selectable q (b.resolve q).1 (q.countAt a.request j) e ∧ e.number = n := by
  have hnumber := h.number_eq
  rw [getElem?_answer ha, h.entry_eq] at hnumber
  exact hb.selectable_of_findShortTerm (Option.some.inj hnumber)

theorem Coherent.exists_names (hb : b.Coherent) {a : RefAnswer}
    (ha : a ∈ q.answers (b.resolve q).1) {j : Nat} {delta : Int} {e : StoredPicture}
    (hentry : a.request.entries[j]? = some (.shortTerm delta))
    (he : b.Selectable q (b.resolve q).1 (q.countAt a.request j) e) :
    ∃ n, a.Names j (.shortTerm delta) n := by
  obtain ⟨n, hn⟩ := hb.findShortTerm_of_selectable he
  refine ⟨n, hentry, ?_⟩
  rw [getElem?_answer ha, hentry, Option.map_some, answer, hn]

/-! ### Entries without a picture -/

theorem lacksActive_iff {request : RefRequest} {list : RefList} :
    lacksActive request list = true ↔ ∃ j < request.active, list[j]? = some none := by
  rw [lacksActive, List.any_eq_true]
  constructor
  · rintro ⟨number, hmem, hnone⟩
    obtain rfl := Option.isNone_iff_eq_none.mp hnone
    obtain ⟨j, hj⟩ := List.mem_iff_getElem?.mp hmem
    rw [List.getElem?_take] at hj
    split at hj
    case isTrue hactive => exact ⟨j, hactive, hj⟩
    case isFalse => cases hj
  · rintro ⟨j, hactive, hj⟩
    refine ⟨none, List.mem_iff_getElem?.mpr ⟨j, ?_⟩, rfl⟩
    rw [List.getElem?_take, if_pos hactive, hj]

theorem missing_resolve_iff : (b.resolve q).1.missing = true ↔
    ∃ a ∈ q.answers (b.resolve q).1, ∃ j < a.request.active, a.list[j]? = some none := by
  have hmissing : (b.resolve q).1.missing =
      (lacksActive q.list0 (b.resolve q).1.list0 || lacksActive q.list1 (b.resolve q).1.list1) :=
    rfl
  rw [hmissing, Bool.or_eq_true, lacksActive_iff, lacksActive_iff]
  simp [RefQuery.answers]

/-- **Short-term and long-term entries do not get in the way of each other.**  Every entry has
an answer.  A short-term one is resolved exactly if there is a picture for it that no entry
names for the long term, and then to such a picture.  A reference is missing exactly if an
active entry has not been resolved. -/
theorem Coherent.shortTerm_apart (hb : b.Coherent) (layers : Option LayerTable)
    (slice : SliceHeader) (current : Picture) :
    let q := Decoder.queryOf layers slice current
    let lists := (b.resolve q).1
    (∀ a ∈ q.answers lists,
      a.list.length = a.request.entries.length ∧
      ∀ j delta, a.request.entries[j]? = some (.shortTerm delta) →
        ((∃ n, a.Names j (.shortTerm delta) n) ↔
          ∃ e, b.Selectable q lists (q.countAt a.request j) e) ∧
        ∀ n, a.Names j (.shortTerm delta) n →
          ∃ e, b.Selectable q lists (q.countAt a.request j) e ∧ e.number = n) ∧
    (∀ n, ¬ (q.NamesShortTerm lists n ∧ q.NamesLongTerm lists n)) ∧
    (lists.missing = true ↔
      ∃ a ∈ q.answers lists, ∃ j < a.request.active, a.list[j]? = some none) := by
  intro q lists
  refine ⟨?_, ?_, missing_resolve_iff⟩
  · intro a ha
    constructor
    · obtain ⟨request, -, rfl⟩ := mem_answers.mp ha
      exact length_pickFrom ..
    · intro j delta hentry
      refine ⟨⟨?_, ?_⟩, fun n hn => hb.exists_selectable ha hn⟩
      · rintro ⟨n, hn⟩
        obtain ⟨e, he, -⟩ := hb.exists_selectable ha hn
        exact ⟨e, he⟩
      · rintro ⟨e, he⟩
        exact hb.exists_names ha hentry he
  · rintro n ⟨⟨a, ha, j, delta, hnames⟩, hlong⟩
    obtain ⟨e, he, rfl⟩ := hb.exists_selectable ha hnames
    exact he.apart hlong

/-- A slice with a short-term entry for each of the order counts 20 and 22, and with a
long-term entry for each of them. -/
def contestedSlice : SliceHeader :=
  { mixedSlice with
    applied := { lists := {
      list0 := {
        content := { entries := [.shortTerm 3 (-4), .shortTerm 1 2, .longTerm none] }
        longTerm := [{ codedLsb := some 6, codedCycle := none, lsb := 6, cycle := 0 }] }
      list1 := {
        content := { entries := [.longTerm none] }
        longTerm := [{ codedLsb := some 4, codedCycle := none, lsb := 4, cycle := 0 }] } } } }

/-- One of two pictures with the order count 20 is left for the short-term entry, but none
with the order count 22. -/
theorem shortTerm_apart_contested :
    let q := Decoder.queryOf none contestedSlice { orderCount := 24 }
    let lists := (twoLayers.resolve q).1
    twoLayers.Coherent ∧
      lists = { list0 := [some 3, none, some 2], list1 := [some 1], missing := true } ∧
      (∃ e, twoLayers.Selectable q lists 20 e ∧ e.number = 3) ∧
      (¬ ∃ e, twoLayers.Selectable q lists 22 e) ∧
      ¬ q.NamesShortTerm lists 2 := by
  intro q lists
  have hcoherent : twoLayers.Coherent := by decide
  have hlists : lists =
      { list0 := [some 3, none, some 2], list1 := [some 1], missing := true } := by
    decide +kernel
  have happart := hcoherent.shortTerm_apart none contestedSlice { orderCount := 24 }
  have hlist0 := (happart.1 ⟨q.list0, lists.list0⟩ List.mem_cons_self).2
  refine ⟨hcoherent, hlists, ?_, ?_, ?_⟩
  · exact (hlist0 0 (-4) (by decide)).2 3 ⟨by decide, by rw [hlists]; rfl⟩
  · intro he
    obtain ⟨n, -, hn⟩ := (hlist0 1 2 (by decide)).1.mpr he
    rw [hlists] at hn
    cases hn
  · intro hshort
    refine happart.2.1 2 ⟨hshort, _, List.mem_cons_self, 2, 6, none, by decide, ?_⟩
    exact congrArg (fun lists => lists.list0[2]?) hlists

/-! ### One entry after the other -/

/-- What long-term entries find, each of them marking it before the next one has its turn.
The other entries are left open. -/
def searchInTurn (q : RefQuery) : PictureBuffer → List RefEntry → RefList × PictureBuffer
  | b, [] => ([], b)
  | b, .longTerm lsb msbCycle :: rest =>
    let found := b.findLongTerm q lsb msbCycle
    let (others, b) := searchInTurn q (b.modify found.toList (·.mark .longTerm)) rest
    (found :: others, b)
  | b, _ :: rest =>
    let (others, b) := searchInTurn q b rest
    (none :: others, b)

/-- The pictures that entries name, given what the long-term ones have found. -/
def completeFrom (b : PictureBuffer) (q : RefQuery) : Int → List RefEntry → RefList → RefList
  | base, .shortTerm delta :: rest, _ :: others =>
    let base := wrapCount (base + delta)
    b.findShortTerm base q.layer :: completeFrom b q base rest others
  | base, .longTerm .. :: rest, found :: others => found :: completeFrom b q base rest others
  | base, .interLayer reference :: rest, _ :: others =>
    b.findInterLayer q reference :: completeFrom b q base rest others
  | _, _, _ => []

/-- Resolves the entries of both lists one after the other. -/
def resolveInTurn (b : PictureBuffer) (q : RefQuery) : ResolvedLists × PictureBuffer :=
  let (found0, b) := searchInTurn q b q.list0.entries
  let (found1, b) := searchInTurn q b q.list1.entries
  let list0 := b.completeFrom q q.orderCount q.list0.entries found0
  let list1 := b.completeFrom q q.orderCount q.list1.entries found1
  ({ list0, list1, missing := lacksActive q.list0 list0 || lacksActive q.list1 list1 }, b)

/-- What an entry of a list has found if it is a long-term one. -/
def foundLongTerm (b : PictureBuffer) (q : RefQuery) : RefEntry → Option Nat
  | .longTerm lsb msbCycle => b.findLongTerm q lsb msbCycle
  | _ => none

@[simp] theorem markLongTerm_nil (b : PictureBuffer) : b.markLongTerm [] = b := by
  simp [markLongTerm, modify]

theorem markLongTerm_markLongTerm (b : PictureBuffer) (numbers others : List Nat) :
    (b.markLongTerm numbers).markLongTerm others = b.markLongTerm (numbers ++ others) := by
  simp only [markLongTerm, modify_eq, mapEntries_mapEntries]
  congr 1
  funext n p
  have hagain : (p.mark .longTerm).mark .longTerm = p.mark .longTerm :=
    Picture.mark_of_marking_eq (Picture.marking_mark p .longTerm)
  by_cases hn : n ∈ numbers <;> by_cases ho : n ∈ others <;> simp [hn, ho, hagain]

theorem Coherent.references_longTermPicks (hb : b.Coherent) (q : RefQuery)
    (entries : List RefEntry) : b.References (b.longTermPicks q entries) := by
  intro e he hmem
  obtain ⟨lsb, msbCycle, -, hfind⟩ := mem_longTermPicks.mp hmem
  obtain ⟨e', he', hn, href, -⟩ := exists_of_findLongTerm hfind
  rw [hb e he e' he' hn.symm]
  exact href

theorem longTermPicks_cons (b : PictureBuffer) (q : RefQuery) (entry : RefEntry)
    (rest : List RefEntry) :
    b.longTermPicks q (entry :: rest) =
      (b.foundLongTerm q entry).toList ++ b.longTermPicks q rest := by
  have hpicks : ∀ entries, b.longTermPicks q entries = entries.filterMap (b.foundLongTerm q) :=
    fun _ => rfl
  rw [hpicks, hpicks, List.filterMap_cons]
  cases b.foundLongTerm q entry <;> rfl

/-- An entry has its turn: what it has found is marked, and the others come after it. -/
theorem searchInTurn_cons (b : PictureBuffer) (q : RefQuery) (entry : RefEntry)
    (rest : List RefEntry) :
    searchInTurn q b (entry :: rest) =
      (b.foundLongTerm q entry ::
          (searchInTurn q (b.markLongTerm (b.foundLongTerm q entry).toList) rest).1,
        (searchInTurn q (b.markLongTerm (b.foundLongTerm q entry).toList) rest).2) := by
  cases entry with
  | longTerm lsb msbCycle => rfl
  | shortTerm delta =>
    show _ = (none :: (searchInTurn q (b.markLongTerm []) rest).1,
      (searchInTurn q (b.markLongTerm []) rest).2)
    rw [markLongTerm_nil]
    rfl
  | interLayer reference =>
    show _ = (none :: (searchInTurn q (b.markLongTerm []) rest).1,
      (searchInTurn q (b.markLongTerm []) rest).2)
    rw [markLongTerm_nil]
    rfl

theorem References.foundLongTerm_markLongTerm {numbers : List Nat} (h : b.References numbers)
    (q : RefQuery) (entry : RefEntry) :
    (b.markLongTerm numbers).foundLongTerm q entry = b.foundLongTerm q entry := by
  cases entry with
  | longTerm lsb msbCycle => exact h.findLongTerm_markLongTerm q lsb msbCycle
  | shortTerm delta => rfl
  | interLayer reference => rfl

/-- **What other entries have marked before does not change what the entries find.** -/
theorem Coherent.searchInTurn_eq (hb : b.Coherent) (q : RefQuery) (entries : List RefEntry)
    {numbers : List Nat} (h : b.References numbers) :
    searchInTurn q (b.markLongTerm numbers) entries =
      (entries.map (b.foundLongTerm q),
        b.markLongTerm (numbers ++ b.longTermPicks q entries)) := by
  induction entries generalizing numbers with
  | nil =>
    rw [longTermPicks, List.filterMap_nil, List.append_nil]
    rfl
  | cons entry rest ih =>
    have hfound : b.References (numbers ++ (b.foundLongTerm q entry).toList) := by
      intro e he hmem
      rcases List.mem_append.mp hmem with hmem | hmem
      · exact h e he hmem
      · apply hb.references_longTermPicks q (entry :: rest) e he
        rw [longTermPicks_cons]
        exact List.mem_append_left _ hmem
    rw [searchInTurn_cons, h.foundLongTerm_markLongTerm, markLongTerm_markLongTerm, ih hfound,
      longTermPicks_cons, List.append_assoc, List.map_cons]

/-- The second round sees the long-term entries as the first one has left them. -/
theorem completeFrom_eq {b' : PictureBuffer} (q : RefQuery)
    (h : ∀ lsb msbCycle, b'.findLongTerm q lsb msbCycle = b.findLongTerm q lsb msbCycle)
    (base : Int) (entries : List RefEntry) :
    b'.completeFrom q base entries (entries.map (b.foundLongTerm q)) =
      b'.pickFrom q base entries := by
  induction entries generalizing base with
  | nil => rfl
  | cons entry rest ih =>
    cases entry with
    | shortTerm delta => rw [List.map_cons, completeFrom, pickFrom, ih]
    | longTerm lsb msbCycle =>
      rw [List.map_cons, foundLongTerm, completeFrom, pickFrom, ih, h]
    | interLayer reference => rw [List.map_cons, completeFrom, pickFrom, ih]

/-- **Taking the entries one after the other has the same outcome as resolving them.** -/
theorem Coherent.resolveInTurn_eq (hb : b.Coherent) (q : RefQuery) :
    b.resolveInTurn q = b.resolve q := by
  have hpicks := hb.references_longTermPicks q q.list0.entries
  have hfirst : searchInTurn q b q.list0.entries =
      (q.list0.entries.map (b.foundLongTerm q),
        b.markLongTerm (b.longTermPicks q q.list0.entries)) := by
    have hstart : b.References [] := fun _ _ hmem => absurd hmem List.not_mem_nil
    have hsearch := hb.searchInTurn_eq q q.list0.entries hstart
    rwa [markLongTerm_nil, List.nil_append] at hsearch
  have hsecond : searchInTurn q (b.markLongTerm (b.longTermPicks q q.list0.entries))
      q.list1.entries = (q.list1.entries.map (b.foundLongTerm q), b.promote q) :=
    hb.searchInTurn_eq q q.list1.entries hpicks
  have hfind := fun lsb msbCycle => hb.findLongTerm_promote q q lsb msbCycle
  unfold resolveInTurn
  rw [hfirst]
  dsimp only
  rw [hsecond]
  dsimp only
  rw [completeFrom_eq q hfind, completeFrom_eq q hfind]
  rfl

end PictureBuffer

/-! ### Exchanging the lists -/

/-- The lists, each in the place of the other. -/
def RefLists.exchange (r : RefLists) : RefLists := { list0 := r.list1, list1 := r.list0 }

/-- A slice with its reference lists and the numbers of their active entries exchanged. -/
def SliceHeader.exchangeLists (h : SliceHeader) : SliceHeader :=
  { h with
    applied := { h.applied with lists := h.applied.lists.exchange }
    active := { h.active with counts := h.active.counts.swap } }

/-- A query with its lists exchanged. -/
def RefQuery.exchange (q : RefQuery) : RefQuery := { q with list0 := q.list1, list1 := q.list0 }

/-- What has been found, with the lists exchanged. -/
def ResolvedLists.exchange (r : ResolvedLists) : ResolvedLists :=
  { r with list0 := r.list1, list1 := r.list0 }

namespace PictureBuffer

variable (b : PictureBuffer) (q : RefQuery)

/-- What an entry names does not depend on the list in which it stands. -/
theorem pickFrom_exchange (base : Int) (entries : List RefEntry) :
    b.pickFrom q.exchange base entries = b.pickFrom q base entries := by
  have hanswer : ∀ count, b.answer q.exchange count = b.answer q count := by
    intro count
    funext entry
    cases entry <;> rfl
  apply List.ext_getElem?
  intro j
  rw [getElem?_pickFrom, getElem?_pickFrom, hanswer]

theorem promote_exchange : b.promote q.exchange = b.promote q := by
  rw [promote_eq, promote_eq]
  congr 1
  funext n p
  have hmem : n ∈ b.promoted q.exchange ↔ n ∈ b.promoted q :=
    List.mem_append.trans (or_comm.trans List.mem_append.symm)
  simp only [afterPromote, hmem]

theorem resolve_exchange :
    b.resolve q.exchange = ((b.resolve q).1.exchange, (b.resolve q).2) := by
  have hpick : ∀ request, (b.promote q.exchange).pick q.exchange request =
      (b.promote q).pick q request := by
    intro request
    rw [promote_exchange]
    exact pickFrom_exchange ..
  unfold resolve
  dsimp only
  rw [hpick, hpick, promote_exchange, Bool.or_comm]
  rfl

theorem retireUnlisted_exchange (lists : ResolvedLists) :
    b.retireUnlisted q.exchange lists.exchange = b.retireUnlisted q lists := by
  rw [retireUnlisted_eq, retireUnlisted_eq]
  congr 1
  funext n p
  have hmem : (lists.exchange.list0 ++ lists.exchange.list1).contains (some n) =
      (lists.list0 ++ lists.list1).contains (some n) := by
    rw [List.contains_append, List.contains_append, Bool.or_comm]
    rfl
  unfold afterRetire
  rw [hmem]
  rfl

theorem update_exchange_query (flushing : Bool) :
    b.update flushing q.exchange =
      ((b.update flushing q).1.exchange, (b.update flushing q).2) := by
  have hupdate : ∀ q, b.update flushing q =
      (((b.beforeLists flushing).resolve q).1,
        ((b.beforeLists flushing).resolve q).2.retireUnlisted q
          ((b.beforeLists flushing).resolve q).1) := fun _ => rfl
  rw [hupdate, hupdate, resolve_exchange, retireUnlisted_exchange]

/-- Marks the pictures of the buffer once the entries of both lists have been resolved one after
the other. -/
def updateInTurn (b : PictureBuffer) (flushing : Bool) (q : RefQuery) :
    ResolvedLists × PictureBuffer :=
  let (lists, b) := (b.beforeLists flushing).resolveInTurn q
  (lists, b.retireUnlisted q lists)

variable {b} in
theorem Coherent.updateInTurn_eq (hb : b.Coherent) (flushing : Bool) (q : RefQuery) :
    b.updateInTurn flushing q = b.update flushing q := by
  have hlists : (b.beforeLists flushing).Coherent := by
    rw [beforeLists_eq]
    exact hb.mapEntries _
  unfold updateInTurn
  rw [hlists.resolveInTurn_eq]
  rfl

/-- **It does not matter which of the lists comes first.**  With the lists of a slice
exchanged the same pictures are found, the same marks are left in the buffer, and a
reference is missing or not as before.  That is so although the entries have their effects one
after the other. -/
theorem update_exchange (header : Nal.Header) (slice : SliceHeader)
    (layers : Option LayerTable) (current : Picture) :
    let updated := b.update (Decoder.flushes header slice) (Decoder.queryOf layers slice current)
    let inTurn := b.updateInTurn (Decoder.flushes header slice)
      (Decoder.queryOf layers slice current)
    b.update (Decoder.flushes header slice.exchangeLists)
        (Decoder.queryOf layers slice.exchangeLists current) =
      ({ list0 := updated.1.list1, list1 := updated.1.list0, missing := updated.1.missing },
        updated.2) ∧
    (b.Coherent → b.updateInTurn (Decoder.flushes header slice.exchangeLists)
        (Decoder.queryOf layers slice.exchangeLists current) =
      ({ list0 := inTurn.1.list1, list1 := inTurn.1.list0, missing := inTurn.1.missing },
        inTurn.2)) := by
  intro updated inTurn
  have hexchange := b.update_exchange_query (Decoder.queryOf layers slice current)
    (Decoder.flushes header slice)
  refine ⟨hexchange, fun hb => ?_⟩
  have hinTurn : inTurn = updated := hb.updateInTurn_eq _ _
  rw [hinTurn, hb.updateInTurn_eq]
  exact hexchange

/-- A long-term entry of the second list takes the picture for which the short-term one of the
first list looks, in either order. -/
theorem update_exchange_contested :
    let q := Decoder.queryOf none contestedSlice { orderCount := 24 }
    let q' := Decoder.queryOf none contestedSlice.exchangeLists { orderCount := 24 }
    twoLayers.Coherent ∧
      (twoLayers.updateInTurn false q).1 =
        { list0 := [some 3, none, some 2], list1 := [some 1], missing := true } ∧
      (twoLayers.updateInTurn false q').1 =
        { list0 := [some 1], list1 := [some 3, none, some 2], missing := true } ∧
      (twoLayers.updateInTurn false q').2 = (twoLayers.updateInTurn false q).2 := by
  intro q q'
  have hcoherent : twoLayers.Coherent := by decide
  have hlists : (twoLayers.updateInTurn false q).1 =
      { list0 := [some 3, none, some 2], list1 := [some 1], missing := true } := by
    decide +kernel
  have hexchange : twoLayers.updateInTurn false q' = _ :=
    (twoLayers.update_exchange { kind := .trail, temporalIdPlus1 := 1 } contestedSlice none
      { orderCount := 24 }).2 hcoherent
  refine ⟨hcoherent, hlists, ?_, ?_⟩
  · rw [hexchange]
    show ResolvedLists.exchange (twoLayers.updateInTurn false q).1 = _
    rw [hlists]
    rfl
  · rw [hexchange]
    rfl

end PictureBuffer

end CodedVideo
