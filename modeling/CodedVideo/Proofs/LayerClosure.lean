import CodedVideo.Proofs.Reachable
import Mathlib.Data.List.GetD
import Mathlib.Logic.Relation

/-!
# Layers that need each other

A layer predicts from earlier ones, and these from still earlier ones.  So what a layer
needs is closed under the references of layers, and a set of layers can be decoded only if
it holds, with each layer, all that this layer needs.

`Session.layers_closed` says that an accepted video parameter set keeps to this.  What is
listed for a layer are the layers that it reaches by references, in one pass over the layers,
since whatever a layer refers to comes before it.  Each output layer set holds what its
layers need: the layers up to one do, a layer without references does alone, and the marked
layers do with all that they need, which is the least there is.
-/

namespace CodedVideo

open Parse

/-! ### References -/

namespace VpsLayer

/-- Layer `i` refers to layer `j`. -/
def Refers (layers : List VpsLayer) (i j : Nat) : Prop :=
  ∃ layer, layers[i]? = some layer ∧ j ∈ layer.directReferences

/-- Layer `i` refers to layer `j` in one or more steps. -/
def Needs (layers : List VpsLayer) : Nat → Nat → Prop := Relation.TransGen (Refers layers)

/-- The ids of layers increase, and layers refer to earlier ones only. -/
structure Ordered (layers : List VpsLayer) : Prop where
  ids : (layers.map (·.id)).IsChain (· < ·)
  earlier : ∀ i j, Refers layers i j → j < i

/-- The layers that layer `i` needs, in increasing order. -/
structure ListsNeeds (layers : List VpsLayer) (i : Nat) (needed : List Nat) : Prop where
  increasing : needed.Pairwise (· < ·)
  mem_iff : ∀ j, j ∈ needed ↔ Needs layers i j

variable {layers rest : List VpsLayer} {layer : VpsLayer} {closed : List (List Nat)} {i j : Nat}

theorem Ordered.lt_of_needs (h : Ordered layers) (hneeds : Needs layers i j) : j < i := by
  induction hneeds with
  | single hij => exact h.earlier i _ hij
  | tail _ hjk ih => exact (h.earlier _ _ hjk).trans ih

/-- A layer needs what it refers to, and what that needs. -/
theorem needs_iff : Needs layers i j ↔
    ∃ k, Refers layers i k ∧ (k = j ∨ Needs layers k j) := by
  rw [Needs, Relation.TransGen.head'_iff]
  refine exists_congr fun k => and_congr_right fun _ => ?_
  rw [Relation.reflTransGen_iff_eq_or_transGen, eq_comm]

theorem length_closeReferences (closed : List (List Nat)) (rest : List VpsLayer) :
    (closeReferences closed rest).length = closed.length + rest.length := by
  induction rest generalizing closed with
  | nil => rfl
  | cons layer rest ih =>
    rw [closeReferences, ih, List.length_append, List.length_singleton, List.length_cons]
    omega

/-- One layer's list, given those of the layers before it. -/
theorem Ordered.listsNeeds_filter (h : Ordered layers) (hlayer : layers[closed.length]? = some layer)
    (hclosed : ∀ i < closed.length, ListsNeeds layers i (closed.getD i [])) :
    ListsNeeds layers closed.length ((List.range closed.length).filter fun j =>
      j ∈ layer.directReferences ||
        layer.directReferences.any fun k => j ∈ closed.getD k []) where
  increasing := List.pairwise_lt_range.filter _
  mem_iff := by
    intro j
    have hrefers : ∀ k, Refers layers closed.length k ↔ k ∈ layer.directReferences := by
      intro k
      simp [Refers, hlayer]
    simp only [List.mem_filter, List.mem_range, Bool.or_eq_true, decide_eq_true_eq,
      List.any_eq_true, ← hrefers]
    rw [needs_iff]
    constructor
    · rintro ⟨-, hdirect | ⟨k, hk, hj⟩⟩
      · exact ⟨j, hdirect, .inl rfl⟩
      · exact ⟨k, hk, .inr (((hclosed k (h.earlier _ _ hk)).mem_iff j).mp hj)⟩
    · rintro ⟨k, hk, rfl | hneeds⟩
      · exact ⟨h.earlier _ _ hk, .inl hk⟩
      · have hlt := h.earlier _ _ hk
        exact ⟨(h.lt_of_needs hneeds).trans hlt, .inr ⟨k, hk, ((hclosed k hlt).mem_iff j).mpr hneeds⟩⟩

theorem Ordered.listsNeeds_closeReferences (h : Ordered layers)
    (hrest : layers.drop closed.length = rest)
    (hclosed : ∀ i < closed.length, ListsNeeds layers i (closed.getD i [])) :
    ∀ i < (closeReferences closed rest).length,
      ListsNeeds layers i ((closeReferences closed rest).getD i []) := by
  induction rest generalizing closed with
  | nil => exact hclosed
  | cons layer rest ih =>
    have hlayer : layers[closed.length]? = some layer := by
      rw [← List.head?_drop, hrest, List.head?_cons]
    have hneeded := h.listsNeeds_filter hlayer hclosed
    refine ih ?_ fun i hi => ?_
    · rw [List.length_append, List.length_singleton, ← List.drop_drop, hrest]
      rfl
    · rw [List.length_append, List.length_singleton] at hi
      rcases Nat.lt_succ_iff_lt_or_eq.mp hi with hlt | rfl
      · rw [List.getD_append _ _ _ _ hlt]
        exact hclosed i hlt
      · rw [List.getD_append_right _ _ _ _ le_rfl, Nat.sub_self]
        exact hneeded

/-- **What is listed for each layer is what it needs.** -/
theorem Ordered.listsNeeds (h : Ordered layers) (hi : i < layers.length) :
    ListsNeeds layers i ((allReferences layers).getD i []) := by
  refine h.listsNeeds_closeReferences rfl (fun i hi => by cases hi) i ?_
  rwa [length_closeReferences, List.length_nil, Nat.zero_add]

/-! ### Layers as they are read -/

theorem lt_of_mem_directReferences (h : j ∈ layer.directReferences) :
    j < layer.references.length :=
  List.mem_range.mp (List.mem_of_mem_filter h)

theorem ordered_nil : Ordered [] where
  ids := List.isChain_nil
  earlier := by
    rintro i j ⟨layer, hlayer, -⟩
    cases hlayer

theorem Ordered.concat (h : Ordered layers)
    (hid : ∀ previous, layers.getLast?.map (·.id) = some previous → previous < layer.id)
    (hreferences : layer.references.length ≤ layers.length) : Ordered (layers ++ [layer]) where
  ids := by
    rw [List.map_append, List.isChain_append]
    refine ⟨h.ids, List.isChain_singleton _, ?_⟩
    intro previous hprevious id hid'
    obtain rfl := Option.some.inj hid'
    rw [List.getLast?_map] at hprevious
    exact hid previous hprevious
  earlier := by
    rintro i j ⟨found, hfound, hj⟩
    rcases Nat.lt_trichotomy i layers.length with hlt | rfl | hgt
    · rw [List.getElem?_append_left hlt] at hfound
      exact h.earlier i j ⟨found, hfound, hj⟩
    · rw [List.getElem?_concat_length] at hfound
      obtain rfl := Option.some.inj hfound
      exact (lt_of_mem_directReferences hj).trans_le hreferences
    · rw [List.getElem?_eq_none (by simpa using hgt)] at hfound
      cases hfound

/-- A layer refers to the earlier ones at most, and to none if all are independent. -/
theorem read_ensures (allTids : Nat) (allIndependent : Bool) (index : Nat)
    (previous : Option Nat) : (read allTids allIndependent index previous).Ensures fun layer =>
      (∀ p, previous = some p → p < layer.id) ∧ layer.references.length ≤ index ∧
        (allIndependent = true → layer.references = []) := by
  refine .andThen fun id => .bind (P := fun _ => ∀ p, previous = some p → p < id) ?_ fun _ hid => ?_
  · refine ensures_refuseIf.mpr fun hincreasing p hp => ?_
    simpa [hp] using hincreasing
  extract_lets withIndependence
  have hrest : ∀ independent, (allIndependent = true → independent = true) →
      (withIndependence independent).Ensures fun layer =>
        (∀ p, previous = some p → p < layer.id) ∧ layer.references.length ≤ index ∧
          (allIndependent = true → layer.references = []) := by
    intro independent hindependent
    cases independent with
    | true => exact ensures_pure.mpr ⟨hid, Nat.zero_le index, fun _ => rfl⟩
    | false =>
      refine .andThen fun maxTidPresent => ?_
      refine ensures_collectFrom.bind fun references hlength => .andThen fun _ => ?_
      refine ensures_pure.mpr ⟨hid, hlength.le, fun hall => ?_⟩
      cases hindependent hall
  split
  · rename_i hasked
    refine .andThen fun independent => hrest independent fun hall => ?_
    simp [hall] at hasked
  · exact hrest true fun _ => rfl

theorem Ordered.readMore_ensures (h : Ordered layers) {allIndependent : Bool}
    (hindependent : allIndependent = true → ∀ layer ∈ layers, layer.references = [])
    (allTids remaining : Nat) :
    (readMore allTids allIndependent remaining layers).Ensures fun layers' =>
      Ordered layers' ∧ layers'.length = layers.length + remaining ∧
        (allIndependent = true → ∀ layer ∈ layers', layer.references = []) := by
  induction remaining generalizing layers with
  | zero => exact ensures_pure.mpr ⟨h, rfl, hindependent⟩
  | succ remaining ih =>
    refine (read_ensures allTids allIndependent _ _).bind fun layer ⟨hid, hreferences, hnone⟩ => ?_
    refine (ih (h.concat hid hreferences) fun hall other hother => ?_).mono
      fun layers' ⟨hordered, hlength, hnone'⟩ => ⟨hordered, ?_, hnone'⟩
    · rcases List.mem_append.mp hother with hmem | hmem
      · exact hindependent hall other hmem
      · rw [List.mem_singleton.mp hmem]
        exact hnone hall
    · rw [hlength, List.length_append, List.length_singleton]
      omega

/-- A layer by itself has no references. -/
theorem Ordered.not_refers (h : Ordered layers)
    (hnone : layers.length = 1 ∨ ∀ layer ∈ layers, layer.references = []) :
    ¬ Refers layers i j := by
  intro hrefers
  have hji := h.earlier i j hrefers
  obtain ⟨layer, hlayer, hj⟩ := hrefers
  rcases hnone with hone | hnone
  · have hi := (List.getElem?_eq_some_iff.mp hlayer).1
    omega
  · have hlt := lt_of_mem_directReferences hj
    rw [hnone layer (List.mem_of_getElem? hlayer)] at hlt
    cases hlt

/-! ### Ids -/

theorem Ordered.id_lt (h : Ordered layers) {a b : VpsLayer} (hij : i < j)
    (ha : layers[i]? = some a) (hb : layers[j]? = some b) : a.id < b.id := by
  obtain ⟨hi, rfl⟩ := List.getElem?_eq_some_iff.mp ha
  obtain ⟨hj, rfl⟩ := List.getElem?_eq_some_iff.mp hb
  exact List.pairwise_iff_getElem.mp (List.pairwise_map.mp h.ids.pairwise) i j hi hj hij

/-- A layer is known by its id. -/
theorem Ordered.eq_of_id_eq (h : Ordered layers) {a b : VpsLayer} (ha : layers[i]? = some a)
    (hb : layers[j]? = some b) (hid : a.id = b.id) : i = j := by
  rcases Nat.lt_trichotomy i j with hlt | heq | hgt
  · exact absurd hid (h.id_lt hlt ha hb).ne
  · exact heq
  · exact absurd hid (h.id_lt hgt hb ha).ne'

theorem exists_of_needs (h : Needs layers i j) : ∃ layer, layers[i]? = some layer := by
  obtain ⟨k, ⟨layer, hlayer, -⟩, -⟩ := needs_iff.mp h
  exact ⟨layer, hlayer⟩

end VpsLayer

/-! ### Output layer sets -/

namespace OutputLayerSet

open VpsLayer

/-- With each layer, the ids hold those of all layers that it needs. -/
def Complete (layers : List VpsLayer) (ids : Nat → Prop) : Prop :=
  ∀ i j a b, Needs layers i j → layers[i]? = some a → layers[j]? = some b → ids a.id → ids b.id

/-- The set lists its layers in order, among them those that it outputs, and lacks none that
one of them needs. -/
structure Consistent (layers : List VpsLayer) (set : OutputLayerSet) : Prop where
  increasing : set.layers.Pairwise (· < ·)
  outputs_subset : set.outputs ⊆ set.layers
  complete : Complete layers (· ∈ set.layers)

/-- No layer of the set can be left out if it has to output the same. -/
def Least (layers : List VpsLayer) (set : OutputLayerSet) : Prop :=
  ∀ ids : Nat → Prop, Complete layers ids → (∀ id ∈ set.outputs, ids id) →
    ∀ id ∈ set.layers, ids id

variable {layers : List VpsLayer} {marks : List Bool}

/-- The layers up to one need no others. -/
theorem consistent_take (h : Ordered layers) {outputs : List Nat} {n : Nat}
    (houtputs : outputs ⊆ (layers.map (·.id)).take n) :
    Consistent layers ⟨outputs, (layers.map (·.id)).take n⟩ where
  increasing := h.ids.pairwise.sublist (List.take_sublist n _)
  outputs_subset := houtputs
  complete := by
    intro i j a b hneeds ha hb hid
    rw [← List.map_take, List.mem_map] at hid ⊢
    obtain ⟨c, hc, hid⟩ := hid
    obtain ⟨k, hk⟩ := List.mem_iff_getElem?.mp hc
    rw [List.getElem?_take, Option.ite_none_right_eq_some] at hk
    obtain rfl := h.eq_of_id_eq hk.2 ha hid
    refine ⟨b, List.mem_iff_getElem?.mpr ⟨j, ?_⟩, rfl⟩
    rw [List.getElem?_take, if_pos ((h.lt_of_needs hneeds).trans hk.1)]
    exact hb

/-- A layer needs no other if there are no references. -/
theorem consistent_singleton (h : ∀ i j, ¬ Refers layers i j) (id : Nat) :
    Consistent layers ⟨[id], [id]⟩ where
  increasing := List.pairwise_singleton _ _
  outputs_subset := List.Subset.refl _
  complete := by
    intro i j a b hneeds
    obtain ⟨k, hk, -⟩ := needs_iff.mp hneeds
    exact absurd hk (h i k)

/-- The layer is marked, or one that is needs it. -/
def Included (layers : List VpsLayer) (marks : List Bool) (i : Nat) : Prop :=
  marks.getD i false = true ∨ ∃ k, marks.getD k false = true ∧ Needs layers k i

theorem mem_outputs_ofMarks (references : List (List Nat)) (id : Nat) :
    id ∈ (ofMarks layers references marks).outputs ↔
      ∃ i layer, layers[i]? = some layer ∧ marks.getD i false = true ∧ layer.id = id := by
  simp only [ofMarks, List.mem_filterMap, List.mem_filter, List.mem_range, Option.map_eq_some_iff]
  constructor
  · rintro ⟨i, ⟨-, hmarked⟩, layer, hlayer, hid⟩
    exact ⟨i, layer, hlayer, hmarked, hid⟩
  · rintro ⟨i, layer, hlayer, hmarked, hid⟩
    exact ⟨i, ⟨(List.getElem?_eq_some_iff.mp hlayer).1, hmarked⟩, layer, hlayer, hid⟩

theorem mem_layers_ofMarks (h : Ordered layers) (id : Nat) :
    id ∈ (ofMarks layers (allReferences layers) marks).layers ↔
      ∃ i layer, layers[i]? = some layer ∧ Included layers marks i ∧ layer.id = id := by
  have hincluded : ∀ i, (marks.getD i false ||
      (List.range layers.length).any fun k => marks.getD k false &&
        decide (i ∈ (allReferences layers).getD k [])) = true ↔ Included layers marks i := by
    intro i
    simp only [Bool.or_eq_true, List.any_eq_true, List.mem_range, Bool.and_eq_true,
      decide_eq_true_eq]
    refine or_congr_right ⟨?_, ?_⟩
    · rintro ⟨k, hk, hmarked, hi⟩
      exact ⟨k, hmarked, ((h.listsNeeds hk).mem_iff i).mp hi⟩
    · rintro ⟨k, hmarked, hneeds⟩
      obtain ⟨layer, hlayer⟩ := exists_of_needs hneeds
      have hk := (List.getElem?_eq_some_iff.mp hlayer).1
      exact ⟨k, hk, hmarked, ((h.listsNeeds hk).mem_iff i).mpr hneeds⟩
  simp only [ofMarks, List.mem_filterMap, List.mem_filter, List.mem_range, hincluded,
    Option.map_eq_some_iff]
  constructor
  · rintro ⟨i, ⟨-, hi⟩, layer, hlayer, hid⟩
    exact ⟨i, layer, hlayer, hi, hid⟩
  · rintro ⟨i, layer, hlayer, hi, hid⟩
    exact ⟨i, ⟨(List.getElem?_eq_some_iff.mp hlayer).1, hi⟩, layer, hlayer, hid⟩

theorem consistent_ofMarks (h : Ordered layers) (marks : List Bool) :
    Consistent layers (ofMarks layers (allReferences layers) marks) where
  increasing := by
    refine (List.pairwise_lt_range.filter _).filterMap _ fun i j hij a ha b hb => ?_
    obtain ⟨layer, hlayer, rfl⟩ := Option.map_eq_some_iff.mp ha
    obtain ⟨other, hother, rfl⟩ := Option.map_eq_some_iff.mp hb
    exact h.id_lt hij hlayer hother
  outputs_subset := by
    intro id hid
    obtain ⟨i, layer, hlayer, hmarked, hid⟩ := (mem_outputs_ofMarks _ id).mp hid
    exact (mem_layers_ofMarks h id).mpr ⟨i, layer, hlayer, .inl hmarked, hid⟩
  complete := by
    intro i j a b hneeds ha hb hid
    obtain ⟨i', a', ha', hincluded, hid⟩ := (mem_layers_ofMarks h a.id).mp hid
    obtain rfl := h.eq_of_id_eq ha' ha hid
    refine (mem_layers_ofMarks h b.id).mpr ⟨j, b, hb, ?_, rfl⟩
    rcases hincluded with hmarked | ⟨k, hmarked, hk⟩
    · exact .inr ⟨i', hmarked, hneeds⟩
    · exact .inr ⟨k, hmarked, hk.trans hneeds⟩

theorem least_ofMarks (h : Ordered layers) (marks : List Bool) :
    Least layers (ofMarks layers (allReferences layers) marks) := by
  intro ids hcomplete houtputs id hid
  obtain ⟨i, layer, hlayer, hmarked | ⟨k, hmarked, hneeds⟩, rfl⟩ := (mem_layers_ofMarks h id).mp hid
  · exact houtputs _ ((mem_outputs_ofMarks _ _).mpr ⟨i, layer, hlayer, hmarked, rfl⟩)
  · obtain ⟨other, hother⟩ := exists_of_needs hneeds
    have hids : ids other.id :=
      houtputs _ ((mem_outputs_ofMarks _ _).mpr ⟨k, other, hother, hmarked, rfl⟩)
    exact hcomplete k i other layer hneeds hother hlayer hids

/-- The sets of every mode are consistent, provided that layers which form sets by
themselves refer to no others. -/
theorem consistent_of_mem_all (h : Ordered layers) {mode : OlsMode}
    (hevery : mode = .everyLayer → ∀ i j, ¬ Refers layers i j) {set : OutputLayerSet}
    (hset : set ∈ all layers mode) : Consistent layers set := by
  cases mode with
  | everyLayer =>
    obtain ⟨id, -, rfl⟩ := List.mem_map.mp hset
    exact consistent_singleton (hevery rfl) id
  | highestLayer =>
    obtain ⟨i, -, rfl⟩ := List.mem_map.mp hset
    refine consistent_take h fun id hid => ?_
    rw [List.take_add]
    exact List.mem_append_right _ hid
  | allLayers =>
    obtain ⟨i, -, rfl⟩ := List.mem_map.mp hset
    exact consistent_take h (List.Subset.refl _)
  | marked flags =>
    rcases List.mem_cons.mp hset with rfl | hset
    · exact consistent_take h (List.Subset.refl _)
    · obtain ⟨marks, -, rfl⟩ := List.mem_map.mp hset
      exact consistent_ofMarks h marks

theorem all_of_derive {mode : OlsMode} {sets : List OutputLayerSet}
    (h : derive layers mode = .ok sets) : sets = all layers mode := by
  unfold derive at h
  dsimp only at h
  split at h
  · cases h
  · split at h
    · cases h
    · cases h
      rfl

end OutputLayerSet

/-! ### Video parameter sets -/

/-- Layers form sets by themselves only if there is one or if none refers to another. -/
theorem OlsMode.read_ensures (layers : Nat) (allIndependent : Bool) :
    (read layers allIndependent).Ensures fun mode =>
      mode = .everyLayer → layers = 1 ∨ allIndependent = true := by
  have hmarked : (readMarked layers).Ensures fun mode =>
      mode = .everyLayer → layers = 1 ∨ allIndependent = true := by
    simp [readMarked]
  unfold read
  extract_lets ofIdc ofEvery
  have hidc : ∀ idc, (ofIdc idc).Ensures fun mode =>
      mode = .everyLayer → layers = 1 ∨ allIndependent = true := by
    intro idc
    simp only [ofIdc]
    split
    · simp
    · simp
    · exact hmarked
  have hevery : ∀ every, (every = true → layers = 1 ∨ allIndependent = true) →
      (ofEvery every).Ensures fun mode =>
        mode = .everyLayer → layers = 1 ∨ allIndependent = true := by
    intro every h
    simp only [ofEvery]
    split
    · rename_i hevery
      exact ensures_pure.mpr fun _ => h hevery
    · split
      · exact hidc 2
      · exact .andThen hidc
  split
  · rename_i hone
    exact hevery true fun _ => .inl hone
  · refine .bind (P := fun every => every = true → allIndependent = true) ?_
      fun every h => hevery every fun htrue => .inr (h htrue)
    cases allIndependent <;> simp [flagIf]

namespace Vps

open VpsLayer

/-- The layers are in order, and the sets are those of the mode. -/
structure Layered (vps : Vps) : Prop where
  ordered : Ordered vps.layers
  every : vps.mode = .everyLayer → ∀ i j, ¬ Refers vps.layers i j
  sets : vps.sets = OutputLayerSet.all vps.layers vps.mode

theorem layered_read : read.Ensures Layered := by
  refine .withExtension ?_ fun _ _ h => { h with }
  unfold readElements
  refine .andThen fun vpsId => .andThen fun maxLayersMinus1 => .andThen fun maxSublayersMinus1 => ?_
  refine .andThen fun _ => ?_
  extract_lets many withMaxTid
  have hread : ∀ defaultMaxTid, (withMaxTid defaultMaxTid).Ensures Layered := by
    intro defaultMaxTid
    unfold withMaxTid
    extract_lets -underBinder withIndependence
    have hlayers : ∀ allIndependent, (withIndependence allIndependent).Ensures Layered := by
      intro allIndependent
      refine (ordered_nil.readMore_ensures (fun _ _ h => by cases h) _ _).bind
        fun layers ⟨hordered, hlength, hnone⟩ => ?_
      refine (OlsMode.read_ensures _ _).bind fun mode hmode => ?_
      refine .bind (P := (· = OutputLayerSet.all layers mode)) ?_ fun sets hsets => ?_
      · exact ensures_ofFault.mpr fun sets hderive => OutputLayerSet.all_of_derive hderive
      have hlayered : ∀ vps : Vps, vps.layers = layers → vps.mode = mode → vps.sets = sets →
          vps.Layered := by
        rintro vps rfl rfl rfl
        refine ⟨hordered, fun hevery i j => hordered.not_refers ?_, hsets⟩
        refine (hmode hevery).imp (fun hone => ?_) hnone
        rw [hlength, hone]
        rfl
      simp [hlayered]
    split
    · exact .andThen hlayers
    · exact hlayers true
  split
  · exact .andThen hread
  · exact hread true

end Vps

namespace Session

variable {s s' : Session} {nal : Nal}

/-- **Layers and output layer sets are closed under references.**  Each layer is listed with
those that it reaches by references, each output layer set lists in order what its layers
need, and a set given by marks holds no more than that. -/
theorem layers_closed {vps : Vps} (h : s.readVps nal = (.ok vps, s')) :
    ((VpsLayer.allReferences vps.layers).length = vps.layers.length ∧
      ∀ i needed, (VpsLayer.allReferences vps.layers)[i]? = some needed →
        VpsLayer.ListsNeeds vps.layers i needed) ∧
    (∀ set ∈ vps.sets, OutputLayerSet.Consistent vps.layers set) ∧
    (vps.mode.idc = 2 → vps.mode ≠ .everyLayer → ∀ n set, 0 < n → vps.sets[n]? = some set →
      OutputLayerSet.Least vps.layers set) := by
  have hrun := run_of_register (congrArg Prod.fst h)
  obtain ⟨hordered, hevery, hsets⟩ := Vps.layered_read.of_run hrun
  have hlength : (VpsLayer.allReferences vps.layers).length = vps.layers.length := by
    rw [VpsLayer.allReferences, VpsLayer.length_closeReferences, List.length_nil, Nat.zero_add]
  refine ⟨⟨hlength, fun i needed hneeded => ?_⟩, fun set hset => ?_, ?_⟩
  · obtain ⟨hi, rfl⟩ := List.getElem?_eq_some_iff.mp hneeded
    have hlists := hordered.listsNeeds (hlength ▸ hi)
    rwa [List.getD_eq_getElem _ _ hi] at hlists
  · exact OutputLayerSet.consistent_of_mem_all hordered hevery (hsets ▸ hset)
  · intro hidc hmode n set hn hset
    rw [hsets] at hset
    cases hmarked : vps.mode with
    | everyLayer => exact absurd hmarked hmode
    | highestLayer | allLayers =>
      rw [hmarked] at hidc
      cases hidc
    | marked flags =>
      obtain ⟨n, rfl⟩ := Nat.exists_eq_succ_of_ne_zero hn.ne'
      rw [hmarked, OutputLayerSet.all, List.getElem?_cons_succ] at hset
      obtain ⟨marks, -, rfl⟩ := List.mem_map.mp (List.mem_of_getElem? hset)
      exact OutputLayerSet.least_ofMarks hordered marks

/-- Five layers, of which the fourth refers to the two before it and the fifth to one of these.
Each of the two is the output layer of a set. -/
def diamond : Nal where
  header := { kind := .vps, temporalIdPlus1 := 1 }
  bytes := [0x00, 0x71, 0x11, 0x00, 0x00, 0x48, 0x64, 0x20, 0xc6, 0x0a, 0x01, 0x10, 0x40, 0x00,
    0x02, 0x33, 0x80, 0x00, 0x97, 0x02, 0x08, 0x10, 0x56, 0x04, 0x10, 0x20, 0xac, 0x80]

theorem layers_closed_diamond : ∃ vps s', (start false).readVps diamond = (.ok vps, s') ∧
    vps.mode.idc = 2 ∧ vps.mode ≠ .everyLayer ∧
    vps.sets.map (·.layers) = [[0], [0, 1, 3, 4], [0, 3, 6]] ∧
    VpsLayer.ListsNeeds vps.layers 3 [0, 1, 2] ∧
    (∀ set ∈ vps.sets, OutputLayerSet.Consistent vps.layers set) ∧
    OutputLayerSet.Least vps.layers ⟨[6], [0, 3, 6]⟩ := by
  have hcheck : (match (start false).readVps diamond with
    | (.ok vps, _) => vps.mode.idc == 2 && vps.mode != .everyLayer &&
        vps.sets == [⟨[0], [0]⟩, ⟨[4], [0, 1, 3, 4]⟩, ⟨[6], [0, 3, 6]⟩] &&
        (VpsLayer.allReferences vps.layers)[3]? == some [0, 1, 2]
    | _ => false) = true := by
    decide +kernel
  split at hcheck
  · rename_i vps s' hread
    simp only [Bool.and_eq_true, beq_iff_eq, bne_iff_ne] at hcheck
    obtain ⟨⟨⟨hidc, hmode⟩, hsets⟩, hneeded⟩ := hcheck
    obtain ⟨⟨-, hlists⟩, hconsistent, hleast⟩ := layers_closed hread
    refine ⟨vps, s', hread, hidc, hmode, ?_, hlists 3 _ hneeded, hconsistent, ?_⟩
    · rw [hsets]
      rfl
    · refine hleast hidc hmode 2 _ (by decide) ?_
      rw [hsets]
      rfl
  · cases hcheck

end Session

end CodedVideo
