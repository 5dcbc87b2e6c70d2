import CodedVideo.Proofs.ListResolution

/-!
# References to other layers

An inter-layer entry names the picture of the same time in a layer that the current one
refers to.  Marking pictures for the long term does not keep it from being found
(`Coherent.findInterLayer_promote`), but an IDR picture retires the pictures of all layers
before its lists are resolved, and every entry is answered by a search for a reference
(`exists_search`), so after a flush nothing is found at all (`answer_flush`).

So `Coherent.interLayer_named_iff` has two sides: the entry is resolved, and to a picture of
the right kind, exactly if there is one and the buffer has not been flushed.
-/

namespace CodedVideo

namespace PictureBuffer

variable {b : PictureBuffer} {q : RefQuery}

/-- A picture that an inter-layer entry may name: a reference of the layer that it refers to
with the order count of the current picture. -/
structure InterLayerMatch (b : PictureBuffer) (q : RefQuery) (reference : Nat)
    (e : StoredPicture) : Prop where
  mem : e ∈ b.entries
  isReference : e.picture.isReference
  layer : q.layers.bind (·.referenceId? q.layer reference) = some e.picture.layer
  orderCount : e.picture.orderCount = q.orderCount

/-! ### Every entry searches for a reference -/

theorem findInterLayer_eq (b : PictureBuffer) (q : RefQuery) (reference : Nat) :
    b.findInterLayer q reference =
      (q.layers.bind (·.referenceId? q.layer reference)).bind (b.findReference q.orderCount) := by
  unfold findInterLayer
  rw [Option.bind_assoc]
  rfl

/-- **Every entry is answered by a search for a reference.** -/
theorem exists_search (q : RefQuery) (count : Int) (entry : RefEntry) :
    ∃ p : Picture → Bool, (∀ picture, p picture = true → picture.isReference = true) ∧
      ∀ b : PictureBuffer, b.answer q count entry = b.findNumber p := by
  cases entry with
  | shortTerm delta =>
    refine ⟨fun p => p.marking == .shortTerm && p.layer == q.layer && p.orderCount == count,
      fun picture hp => ?_, fun b => rfl⟩
    simp only [Bool.and_eq_true, beq_iff_eq] at hp
    rw [Picture.isReference, hp.1.1]
    rfl
  | longTerm lsb msbCycle =>
    cases msbCycle with
    | some cycle =>
      refine ⟨fun p => p.isReference && p.layer == q.layer && p.orderCount ==
          q.orderCount - q.orderCount % q.maxLsb - cycle * q.maxLsb + (lsb % q.maxLsb : Nat),
        fun picture hp => ?_, fun b => rfl⟩
      simp only [Bool.and_eq_true] at hp
      exact hp.1.1
    | none =>
      refine ⟨fun p => p.isReference && p.layer == q.layer &&
          maskedCount p.orderCount q.maxLsb == (lsb % q.maxLsb : Nat),
        fun picture hp => ?_, fun b => rfl⟩
      simp only [Bool.and_eq_true] at hp
      exact hp.1.1
  | interLayer reference =>
    cases hlayer : q.layers.bind (·.referenceId? q.layer reference) with
    | none =>
      -- No layer is referred to, so there is nothing to search for.
      refine ⟨fun _ => false, fun _ hp => absurd hp Bool.false_ne_true, fun b => ?_⟩
      rw [answer, findInterLayer_eq, hlayer, Option.bind_none]
      simp [findNumber]
    | some layer =>
      refine ⟨fun p => p.isReference && p.layer == layer && p.orderCount == q.orderCount,
        fun picture hp => ?_, fun b => ?_⟩
      · simp only [Bool.and_eq_true] at hp
        exact hp.1.1
      · rw [answer, findInterLayer_eq, hlayer, Option.bind_some, findReference]

/-! ### After a flush -/

/-- No picture is a reference after a flush. -/
theorem isReference_of_mem_flush {e : StoredPicture} (he : e ∈ b.flush.entries) :
    e.picture.isReference = false := by
  obtain ⟨e', -, rfl⟩ := List.mem_map.mp he
  exact Picture.isReference_retire e'.picture

theorem answer_flush (b : PictureBuffer) (q : RefQuery) (count : Int) (entry : RefEntry) :
    b.flush.answer q count entry = none := by
  obtain ⟨p, hreference, hsearch⟩ := exists_search q count entry
  rw [hsearch, Option.eq_none_iff_forall_ne_some]
  intro n hn
  obtain ⟨e, he, -, hp⟩ := exists_of_findNumber hn
  exact Bool.false_ne_true ((isReference_of_mem_flush he).symm.trans (hreference _ hp))

theorem promoted_flush (b : PictureBuffer) (q : RefQuery) : b.flush.promoted q = [] := by
  rw [List.eq_nil_iff_forall_not_mem]
  intro n hn
  obtain ⟨lsb, msbCycle, -, hfind⟩ := mem_promoted.mp hn
  have hnone : b.flush.findLongTerm q lsb msbCycle = none :=
    answer_flush b q 0 (.longTerm lsb msbCycle)
  rw [hnone] at hfind
  cases hfind

/-- There is nothing to promote after a flush. -/
theorem promote_flush (b : PictureBuffer) (q : RefQuery) : b.flush.promote q = b.flush := by
  have hpromote : b.flush.promote q = b.flush.markLongTerm (b.flush.promoted q) := rfl
  rw [hpromote, promoted_flush, markLongTerm_nil]

/-! ### Without a flush -/

theorem Coherent.findReference_promote (hb : b.Coherent) (q : RefQuery) (count : Int)
    (layer : Nat) : (b.promote q).findReference count layer = b.findReference count layer := by
  rw [promote_eq]
  refine findNumber_mapEntries fun e he => ?_
  rw [hb.isReference_afterPromote q he, layer_afterPromote, orderCount_afterPromote]

/-- **An inter-layer entry finds the same picture before and after the long-term entries have
marked theirs.** -/
theorem Coherent.findInterLayer_promote (hb : b.Coherent) (q q' : RefQuery) (reference : Nat) :
    (b.promote q).findInterLayer q' reference = b.findInterLayer q' reference := by
  rw [findInterLayer_eq, findInterLayer_eq]
  congr 1
  funext layer
  exact hb.findReference_promote q _ layer

theorem exists_match_of_findInterLayer {reference n : Nat}
    (h : b.findInterLayer q reference = some n) :
    ∃ e, b.InterLayerMatch q reference e ∧ e.number = n := by
  rw [findInterLayer_eq, Option.bind_eq_some_iff] at h
  obtain ⟨layer, hlayer, h⟩ := h
  obtain ⟨e, he, hn, hp⟩ := exists_of_findNumber h
  simp only [Bool.and_eq_true, beq_iff_eq] at hp
  obtain ⟨⟨href, rfl⟩, hcount⟩ := hp
  exact ⟨e, ⟨he, href, hlayer, hcount⟩, hn⟩

theorem exists_findInterLayer_of_match {reference : Nat} {e : StoredPicture}
    (h : b.InterLayerMatch q reference e) : ∃ n, b.findInterLayer q reference = some n := by
  rw [findInterLayer_eq, h.layer, Option.bind_some, ← Option.isSome_iff_exists, findReference,
    findNumber, Option.isSome_map, List.find?_isSome]
  refine ⟨e, h.mem, ?_⟩
  simp [h.isReference, h.orderCount]

/-! ### Inter-layer entries of a slice -/

/-- What an entry of a list names, told by the buffer that the lists find. -/
theorem getElem?_answer_update {flushing : Bool} {a : RefAnswer}
    (ha : a ∈ q.answers (b.update flushing q).1) (j : Nat) :
    a.list[j]? = a.request.entries[j]?.map
      (((b.beforeLists flushing).promote q).answer q (q.countAt a.request j)) :=
  getElem?_answer (b := b.beforeLists flushing) ha j

/-- **An inter-layer entry is resolved exactly if the buffer holds a picture for it and is not
flushed**, and then to such a picture. -/
theorem Coherent.interLayer_named_iff (hb : b.Coherent) (header : Nal.Header)
    (slice : SliceHeader) (layers : Option LayerTable) (current : Picture) :
    let flushing := Decoder.flushes header slice
    let q := Decoder.queryOf layers slice current
    ∀ a ∈ q.answers (b.update flushing q).1, ∀ j reference,
      a.request.entries[j]? = some (.interLayer reference) →
        ((∃ n, a.Names j (.interLayer reference) n) ↔
          flushing = false ∧ ∃ e, b.InterLayerMatch q reference e) ∧
        ∀ n, a.Names j (.interLayer reference) n →
          ∃ e, b.InterLayerMatch q reference e ∧ e.number = n := by
  intro flushing q a ha j reference hentry
  have hlist := getElem?_answer_update ha j
  rw [hentry, Option.map_some, answer] at hlist
  cases hflush : flushing with
  | true =>
    have hnone : a.list[j]? = some none := by
      rw [hlist, hflush, beforeLists, if_pos rfl, promote_flush]
      exact congrArg some (answer_flush b q 0 (.interLayer reference))
    have hnot : ¬ ∃ n, a.Names j (.interLayer reference) n := by
      rintro ⟨n, -, hn⟩
      rw [hnone] at hn
      cases hn
    exact ⟨⟨fun h => absurd h hnot, fun h => absurd h.1 (by decide)⟩,
      fun n hn => absurd ⟨n, hn⟩ hnot⟩
  | false =>
    rw [hflush, beforeLists, if_neg Bool.false_ne_true, hb.findInterLayer_promote] at hlist
    have hnamed : ∀ n, a.Names j (.interLayer reference) n →
        ∃ e, b.InterLayerMatch q reference e ∧ e.number = n := by
      intro n hn
      have hnumber := hn.number_eq
      rw [hlist] at hnumber
      exact exists_match_of_findInterLayer (Option.some.inj hnumber)
    refine ⟨⟨?_, ?_⟩, hnamed⟩
    · rintro ⟨n, hn⟩
      obtain ⟨e, he, -⟩ := hnamed n hn
      exact ⟨rfl, e, he⟩
    · rintro ⟨-, e, he⟩
      obtain ⟨n, hn⟩ := exists_findInterLayer_of_match he
      exact ⟨n, hentry, by rw [hlist, hn]⟩

/-- A slice whose first list names the first layer that its own layer refers to. -/
def interLayerSlice : SliceHeader :=
  { mixedSlice with
    active := { counts := (1, 0) }
    applied := { lists := { list0 := { content := { entries := [.interLayer 0] } } } } }

/-- Two layers, the second one of which refers to the first one. -/
def dependentLayers : LayerTable where
  ids := [0, 1]
  indexOfId := [0, 1]
  directReferences := [[], [0]]

/-- The picture of the first layer with the order count 24 is named. -/
theorem interLayer_named_iff_twoLayers :
    let current : Picture := { layer := 1, orderCount := 24 }
    let flushing := Decoder.flushes { kind := .cra, layer := 1 } interLayerSlice
    let q := Decoder.queryOf (some dependentLayers) interLayerSlice current
    let a : RefAnswer := { request := q.list0, list := [some 4] }
    twoLayers.Coherent ∧ a ∈ q.answers (twoLayers.update flushing q).1 ∧
      ((∃ n, a.Names 0 (.interLayer 0) n) ↔
        flushing = false ∧ ∃ e, twoLayers.InterLayerMatch q 0 e) ∧
      ∃ e, twoLayers.InterLayerMatch q 0 e ∧ e.number = 4 := by
  intro current flushing q a
  have hcoherent : twoLayers.Coherent := by decide
  have hlists : (twoLayers.update flushing q).1 =
      { list0 := [some 4], list1 := [], missing := false } := by
    decide +kernel
  have hanswer : a ∈ q.answers (twoLayers.update flushing q).1 := by
    rw [hlists]
    exact List.mem_cons_self
  obtain ⟨hiff, hmatch⟩ := hcoherent.interLayer_named_iff { kind := .cra, layer := 1 }
    interLayerSlice (some dependentLayers) current a hanswer 0 0 rfl
  exact ⟨hcoherent, hanswer, hiff, hmatch 4 ⟨rfl, rfl⟩⟩

end PictureBuffer

/-! ### An IDR picture that refers to another layer -/

namespace Decoder

/-- A NAL unit of a layer. -/
def layerUnit (kind : Nal.Kind) (layer : Nat) (bytes : List UInt8) : Nal where
  header := { kind, layer, temporalIdPlus1 := 1 }
  bytes := bytes

/-- What has been received when a picture of the second layer is due: the parameter sets of
two layers, the second one of which refers to the first one, and an IDR picture of the first
layer. -/
def baseUnits : List Nal := [
  layerUnit .vps 0 [0x00, 0x71, 0x10, 0x40, 0x00, 0x48, 0x00, 0x02, 0x33, 0x80, 0x00, 0xf0, 0x20,
    0x81, 0x04, 0x90],
  layerUnit .sps 0 [0x00, 0x79, 0x00, 0x01, 0x02, 0x33, 0x80, 0x00, 0x00, 0x82, 0x04, 0x12, 0x00,
    0x3d, 0xe0, 0x0b, 0x00, 0x60, 0x80, 0x01],
  layerUnit .sps 1 [0x01, 0x79, 0x11, 0x01, 0x02, 0x33, 0x80, 0x00, 0x00, 0x82, 0x04, 0x12, 0x00,
    0x3d, 0xe0, 0x0d, 0x80, 0x30, 0x40, 0x00, 0x80],
  layerUnit .pps 0 [0x00, 0x81, 0x00, 0x00, 0x41, 0x02, 0x08, 0x98, 0x40, 0x80],
  layerUnit .pps 1 [0x01, 0x81, 0x04, 0x40, 0x41, 0x02, 0x08, 0x98, 0x40, 0x80],
  layerUnit .idrNoLeading 0 [0x00, 0x41, 0xc4, 0x1e]]

/-- A decoder that has received these. -/
def baseDecoded : Decoder :=
  baseUnits.foldl (fun d nal => (d.receive nal).2) (start false 16)

/-- A P slice of an IDR picture of the second layer, with an entry for the first layer in its
first list. -/
def dependentUnit : Nal := layerUnit .idrNoLeading 1 [0x01, 0x41, 0xcd, 0x01, 0x17, 0xc0]

/-- The slice is accepted and the buffer holds the picture that its entry is for, but the
entry is left open. -/
theorem interLayer_flushed : ∃ slice outcome,
    (baseDecoded.receiveSlice dependentUnit).1 =
      .ok { header := slice, picture := some outcome } ∧
    slice.type = .p ∧ slice.pps.sps.references.interLayer = true ∧
    let layers := (baseDecoded.session.videoSets.get? slice.pps.sps.vpsId).map (·.layerTable)
    let q := queryOf layers slice outcome.picture
    q.list0.entries = [.interLayer 0] ∧
      (∃ e, baseDecoded.buffer.InterLayerMatch q 0 e) ∧
      outcome.lists.list0 = [none] ∧ outcome.picture.missingReference = true := by
  have hcheck : (match (baseDecoded.receiveSlice dependentUnit).1 with
      | .ok received => received.picture.any fun outcome =>
        let slice := received.header
        let layers := (baseDecoded.session.videoSets.get? slice.pps.sps.vpsId).map (·.layerTable)
        let q := queryOf layers slice outcome.picture
        slice.type == .p && slice.pps.sps.references.interLayer &&
          (q.list0.entries == [.interLayer 0] && baseDecoded.buffer.findInterLayer q 0 == some 0 &&
            (outcome.lists.list0 == [none] && outcome.picture.missingReference))
      | .error _ => false) = true := by
    decide +kernel
  split at hcheck
  case h_1 received hreceive =>
    obtain ⟨slice, picture⟩ := received
    rw [Option.any_eq_true] at hcheck
    obtain ⟨outcome, rfl, houtcome⟩ := hcheck
    simp only [Bool.and_eq_true, beq_iff_eq] at houtcome
    obtain ⟨⟨htype, hlayers⟩, ⟨hentries, hfind⟩, hlist, hmissing⟩ := houtcome
    obtain ⟨e, he, -⟩ := PictureBuffer.exists_match_of_findInterLayer hfind
    exact ⟨slice, outcome, hreceive, htype, hlayers, hentries, ⟨e, he⟩, hlist, hmissing⟩
  case h_2 => cases hcheck

end Decoder

end CodedVideo
