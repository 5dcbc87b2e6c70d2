import CodedVideo.Proofs.LayerClosure
import CodedVideo.Proofs.StoredCandidates

/-!
# Indices of a video parameter set

Profiles, picture buffers and reference decoders are listed once, and output layer sets refer
to the lists by index.  An index is coded only if there are several structures and not one for
each set.  Otherwise it is that of the set, if there are as many structures as sets, or zero.
In each case it is below the number of structures (`Vps.readIndices_lt`).

Buffers and decoders are for the sets of several layers, which are numbered among themselves:
read in order, their numbers are 0, 1, 2 and so on (`OutputLayerSet.multiLayer_numbers`).

The references of a layer are indices too.  They are of earlier layers, which have lower ids
(`VpsLayer.Ordered.referenceId?_lt`).  `Session.indices_of_readVps` puts all this together.
-/

namespace CodedVideo

open Parse

/-! ### Lists of structures -/

/-- What holds of the structure for each index below their number holds of all that are read. -/
theorem Parse.ensures_forall_collect_lt {α : Type} {p : Nat → Parse α} {P : α → Prop} {count : Nat}
    (hp : ∀ index, (p index).Ensures fun a => index < count → P a) :
    (collect count p).Ensures fun values => values.length = count ∧ ∀ a ∈ values, P a := by
  intro values hvalues
  have hlength := ensures_collectFrom values hvalues
  refine ⟨hlength, fun a ha => ?_⟩
  obtain ⟨index, hindex⟩ := List.mem_iff_getElem?.mp ha
  have hlt : index < count := hlength ▸ (List.getElem?_eq_some_iff.mp hindex).1
  exact ensures_getElem_collect hp count values hvalues index a hindex hlt

/-! ### Sets of several layers -/

namespace OutputLayerSet

variable {sets : List OutputLayerSet}

theorem length_multiLayerIndices (sets : List OutputLayerSet) :
    (multiLayerIndices sets).length = sets.length := by
  rw [multiLayerIndices, List.length_map, List.length_range]

/-- The numbers of the sets before the last one do not depend on it. -/
theorem multiLayerIndices_concat (sets : List OutputLayerSet) (set : OutputLayerSet) :
    multiLayerIndices (sets ++ [set]) = multiLayerIndices sets ++
      [if set.layers.length > 1 then multiLayerCount sets else 0] := by
  unfold multiLayerIndices
  rw [List.length_append, List.length_singleton, List.range_succ, List.map_append, List.map_singleton]
  congr 1
  · refine List.map_congr_left fun i hi => ?_
    have hi : i < sets.length := List.mem_range.mp hi
    rw [List.getElem?_append_left hi, List.take_append_of_le_length hi.le]
  · rw [List.getElem?_concat_length, List.take_left']
    · simp
    · rfl

/-- **The sets of several layers are numbered in order.** -/
theorem multiLayer_numbers (sets : List OutputLayerSet) :
    ((sets.zip (multiLayerIndices sets)).filter fun p => p.1.layers.length > 1).map (·.2) =
      List.range (multiLayerCount sets) := by
  induction sets using List.reverseRecOn with
  | nil => rfl
  | append_singleton sets set ih =>
    rw [multiLayerIndices_concat, List.zip_append (length_multiLayerIndices sets).symm,
      List.filter_append, List.map_append, ih]
    unfold multiLayerCount
    rw [List.countP_append]
    by_cases hmulti : set.layers.length > 1
    · simp [hmulti, List.range_succ]
    · simp [hmulti]

end OutputLayerSet

/-! ### References of layers -/

namespace VpsLayer

variable {layers : List VpsLayer}

/-- The references that are found for an id are those of a layer, which has the id unless there
are no references. -/
theorem Ordered.exists_of_referencesOf? (h : Ordered layers) {id : Nat} {references : List Nat}
    (hreferences : (table layers).referencesOf? id = some references) :
    ∃ (i : Nat) (layer : VpsLayer), layers[i]? = some layer ∧ layer.directReferences = references ∧
      (references ≠ [] → layer.id = id) := by
  obtain ⟨i, hi, hreferences⟩ := Option.bind_eq_some_iff.mp hreferences
  obtain ⟨layer, hlayer, hdirect⟩ := Option.map_eq_some_iff.mp
    ((List.getElem?_map ..).symm.trans hreferences)
  refine ⟨i, layer, hlayer, hdirect, fun hne => ?_⟩
  have hindex : ((layers.map (·.id)).idxOf? id).getD 0 = i := by
    obtain ⟨id', hid', hi⟩ := Option.map_eq_some_iff.mp ((List.getElem?_map ..).symm.trans hi)
    rwa [(List.getElem?_eq_some_iff.mp hid').2.symm, List.getElem_range] at hi
  cases hfound : (layers.map (·.id)).idxOf? id with
  | none =>
    -- An id that no layer has stands for the first layer, which refers to none.
    obtain ⟨j, hj⟩ := List.exists_mem_of_ne_nil _ hne
    rw [hfound, Option.getD_none] at hindex
    rw [← hindex] at hlayer
    exact absurd (h.earlier 0 j ⟨layer, hlayer, hdirect ▸ hj⟩) (Nat.not_lt_zero j)
  | some k =>
    obtain rfl : k = i := by rwa [hfound, Option.getD_some] at hindex
    obtain ⟨hlt, hid, -⟩ := List.findIdx?_eq_some_iff_getElem.mp hfound
    rw [beq_iff_eq, List.getElem_map] at hid
    rwa [(List.getElem?_eq_some_iff.mp hlayer).2] at hid

theorem Ordered.referenceId?_lt (h : Ordered layers) {id n found : Nat}
    (hfound : (table layers).referenceId? id n = some found) :
    found ∈ layers.map (·.id) ∧ found < id := by
  obtain ⟨references, hreferences, hfound⟩ := Option.bind_eq_some_iff.mp hfound
  obtain ⟨j, hj, hfound⟩ := Option.bind_eq_some_iff.mp hfound
  obtain ⟨other, hother, rfl⟩ := Option.map_eq_some_iff.mp
    ((List.getElem?_map ..).symm.trans hfound)
  obtain ⟨i, layer, hlayer, rfl, hid⟩ := h.exists_of_referencesOf? hreferences
  have hmem := List.mem_of_getElem? hj
  have hid : layer.id = id := hid (List.ne_nil_of_mem hmem)
  have hlt : j < i := h.earlier i j ⟨layer, hlayer, hmem⟩
  exact ⟨List.mem_map_of_mem (List.mem_of_getElem? hother), hid ▸ h.id_lt hlt hother hlayer⟩

/-- There are as many references as are counted. -/
theorem Ordered.isSome_referenceId? (h : Ordered layers) (id n : Nat) :
    ((table layers).referenceId? id n).isSome ↔ n < (table layers).referenceCount id := by
  unfold LayerTable.referenceId? LayerTable.referenceCount
  cases hreferences : (table layers).referencesOf? id with
  | none => simp
  | some references =>
    obtain ⟨i, layer, hlayer, rfl, -⟩ := h.exists_of_referencesOf? hreferences
    simp only [Option.bind_eq_bind, Option.bind_some, Option.map_some, Option.getD_some]
    cases hj : layer.directReferences[n]? with
    | none =>
      rw [List.getElem?_eq_none_iff] at hj
      simpa using hj
    | some j =>
      -- The layer that is referred to exists, since it comes before the one that refers to it.
      have hn := (List.getElem?_eq_some_iff.mp hj).1
      have hlt : j < i := h.earlier i j ⟨layer, hlayer, List.mem_of_getElem? hj⟩
      have hi := (List.getElem?_eq_some_iff.mp hlayer).1
      simp [table, hn, hlt.trans hi]

end VpsLayer

/-! ### Video parameter sets -/

/-- There is a picture buffer for each set, and its parameters exist. -/
structure VpsBuffers.Indexed (b : VpsBuffers) (sets : Nat) : Prop where
  length : b.sets.length = sets
  lt : ∀ picture ∈ b.sets, picture.parameters < b.parameters.length

/-- There is a reference decoder for each set, and its parameters exist. -/
structure VpsTiming.Indexed (t : VpsTiming) (sets : Nat) : Prop where
  length : t.sets.length = sets
  lt : ∀ index ∈ t.sets, index < t.parameters.length

namespace Vps

/-- The indices of a video parameter set are those of structures that it has. -/
structure Indexed (vps : Vps) : Prop where
  profiles_length : vps.profileOfSet.length = vps.sets.length
  profiles_lt : ∀ index ∈ vps.profileOfSet, index < vps.profiles.length
  /-- There are picture buffers unless each layer is a set by itself. -/
  buffers_isSome : vps.buffers.isSome = true ↔ vps.mode ≠ .everyLayer
  buffers : ∀ b, vps.buffers = some b →
    b.Indexed (OutputLayerSet.multiLayerCount vps.sets)
  timing : ∀ t, vps.timing = some t → t.Indexed (OutputLayerSet.multiLayerCount vps.sets)

/-- **An index is below the number of structures.** -/
theorem readIndices_lt {sets count : Nat} {coded : Parse Nat} (hpos : 0 < count)
    (hcoded : coded.Ensures (· < count)) :
    (readIndices sets count coded).Ensures fun indices =>
      indices.length = sets ∧ ∀ index ∈ indices, index < count := by
  refine ensures_forall_collect_lt fun i => ?_
  simp only [ensures_ite, ensures_pure]
  refine ⟨fun hsame hi => hsame ▸ hi, fun _ => ⟨fun _ => ?_, fun _ _ => hpos⟩⟩
  exact hcoded.mono fun _ hlt _ => hlt

theorem length_readProfiles (previous : Option ProfileTierLevel) (entries : List VpsProfile) :
    (readProfiles previous entries).Ensures (·.length = entries.length) := by
  induction entries generalizing previous with
  | nil => exact ensures_pure.mpr rfl
  | cons entry rest ih =>
    refine .andThen fun profile => (ih (some profile)).bind fun others hothers => ?_
    exact ensures_pure.mpr (congrArg (· + 1) hothers)

theorem readBuffers_indexed (defaultMaxTid : Bool) (maxSublayer sets : Nat) :
    (readBuffers defaultMaxTid maxSublayer sets).Ensures (·.Indexed sets) := by
  refine .bind (.ueMax fun _ h => h) fun countMinus1 hcount => ?_
  extract_lets count
  refine .andThen fun sublayerInfo => ensures_collectFrom.bind fun parameters hparameters => ?_
  refine .bind (P := fun pictures : List OlsPicture => pictures.length = sets ∧
    ∀ picture ∈ pictures, picture.parameters < count) ?_ fun pictures ⟨hlength, hlt⟩ => ?_
  · refine ensures_forall_collect_lt fun i => .andThen fun width => .andThen fun height => ?_
    refine .andThen fun chromaFormat => .andThen fun bitDepthMinus8 => ?_
    extract_lets withParameters
    have hwithParameters : ∀ parameters, (i < sets → parameters < count) →
        (withParameters parameters).Ensures fun picture => i < sets → picture.parameters < count :=
      fun _ hlt => ensures_pure.mpr hlt
    split
    case isTrue => exact .bind (.ueMax fun _ h _ => Nat.lt_succ_of_le h) hwithParameters
    case isFalse hown =>
      -- The index is that of the set only if there are as many structures as sets.
      refine hwithParameters _ fun hi => ?_
      simp only [Bool.and_eq_true, decide_eq_true_eq, bne_iff_ne] at hown
      split_ifs <;> omega
  · exact ensures_pure.mpr ⟨hlength, fun picture hmem => hparameters ▸ hlt picture hmem⟩

theorem readTiming_indexed (defaultMaxTid : Bool) (maxSublayer sets : Nat) :
    (readTiming defaultMaxTid maxSublayer sets).Ensures (·.Indexed sets) := by
  refine .andThen fun general => .andThen fun sublayerInfo => .andThen fun countMinus1 => ?_
  extract_lets count
  refine ensures_collectFrom.bind fun parameters hparameters => ?_
  have hcoded : (ueMax (count - 1)).Ensures (· < count) := .ueMax fun _ h => Nat.lt_succ_of_le h
  refine (readIndices_lt (Nat.succ_pos _) hcoded).bind fun indices ⟨hlength, hlt⟩ => ?_
  exact ensures_pure.mpr ⟨hlength, fun index hmem => hparameters ▸ hlt index hmem⟩

/-- **The indices of an accepted video parameter set exist.** -/
theorem read_indexed : read.Ensures Indexed := by
  refine .withExtension ?_ fun _ _ h => { h with }
  unfold readElements
  refine .andThen fun vpsId => .andThen fun maxLayersMinus1 => .andThen fun maxSublayersMinus1 => ?_
  refine .andThen fun _ => ?_
  extract_lets many withMaxTid
  have hread : ∀ defaultMaxTid, (withMaxTid defaultMaxTid).Ensures Indexed := by
    intro defaultMaxTid
    unfold withMaxTid
    extract_lets -underBinder withIndependence
    have hlayers : ∀ allIndependent, (withIndependence allIndependent).Ensures Indexed := by
      intro allIndependent
      refine .andThen fun layers => .andThen fun mode => .andThen fun sets => ?_
      refine .andThen fun profilesMinus1 => ?_
      refine .bind (P := fun _ => profilesMinus1 < sets.length) ?_ fun _ hprofiles => ?_
      · rw [ensures_refuseIf, decide_eq_false_iff_not]
        exact not_le.mp
      refine ensures_collectFrom.bind fun entries hentries => .andThen fun _ => ?_
      refine (length_readProfiles none entries).bind fun profiles hlength => ?_
      have hcount : profiles.length = profilesMinus1 + 1 := hlength.trans hentries
      have hcoded : (uMax 8 profilesMinus1).Ensures (· < profiles.length) :=
        ensures_uMax.mpr fun _ _ h => hcount ▸ Nat.lt_succ_of_le h
      rw [← hcount]
      refine (readIndices_lt (by omega) hcoded).bind fun profileOfSet hprofileOfSet => ?_
      extract_lets -underBinder each multi
      refine .andThen fun _ => ?_
      extract_lets -underBinder withBuffers
      have hbuffers : ∀ buffers : Option VpsBuffers,
          (buffers.isSome = true ↔ mode ≠ .everyLayer) →
          (∀ b, buffers = some b → b.Indexed multi) → (withBuffers buffers).Ensures Indexed := by
        intro buffers hsome hindexed
        refine .andThen fun timed => ?_
        extract_lets -underBinder withTiming
        have htiming : ∀ timing : Option VpsTiming, (∀ t, timing = some t → t.Indexed multi) →
            (withTiming timing).Ensures Indexed := by
          intro timing htimed
          exact ensures_pure.mpr ⟨hprofileOfSet.1, hprofileOfSet.2, hsome, hindexed, htimed⟩
        exact .optional (readTiming_indexed _ _ multi) htiming
      split
      case isTrue heach => exact hbuffers none (by simpa [each] using heach) nofun
      case isFalse heach =>
        refine .bind (ensures_map.mpr ((readBuffers_indexed _ _ multi).mono fun b hb => ?_))
          fun buffers (h : ∃ b, buffers = some b ∧ b.Indexed multi) => ?_
        · exact ⟨b, rfl, hb⟩
        · obtain ⟨b, rfl, hb⟩ := h
          refine hbuffers (some b) (by simpa [each] using heach) ?_
          rintro _ ⟨⟩
          exact hb
    split
    · exact .andThen hlayers
    · exact hlayers true
  split
  · exact .andThen hread
  · exact hread true

end Vps

namespace Session

variable {s s' : Session} {nal : Nal}

/-- **No index of a video parameter set dangles.**  Every index of a profile, a picture buffer or
a reference decoder is below their number, there is one for each set that needs one, and the sets
of several layers are numbered in order.  As many references of a layer are found as are
counted, and they are of layers with lower ids. -/
theorem indices_of_readVps {vps : Vps} (h : s.readVps nal = (.ok vps, s')) :
    vps.Indexed ∧
    (OutputLayerSet.multiLayerIndices vps.sets).length = vps.sets.length ∧
    ((vps.sets.zip (OutputLayerSet.multiLayerIndices vps.sets)).filter
        fun p => p.1.layers.length > 1).map (·.2) =
      List.range (OutputLayerSet.multiLayerCount vps.sets) ∧
    ∀ id n,
      ((vps.layerTable.referenceId? id n).isSome ↔ n < vps.layerTable.referenceCount id) ∧
      ∀ found, vps.layerTable.referenceId? id n = some found →
        found ∈ vps.layers.map (·.id) ∧ found < id := by
  have hrun := run_of_register (congrArg Prod.fst h)
  obtain ⟨hordered, -, -⟩ := Vps.layered_read.of_run hrun
  refine ⟨Vps.read_indexed.of_run hrun, OutputLayerSet.length_multiLayerIndices _,
    OutputLayerSet.multiLayer_numbers _, fun id n => ⟨hordered.isSome_referenceId? id n, ?_⟩⟩
  exact fun _ hfound => hordered.referenceId?_lt hfound

/-- Six layers and two sets of several of them, which share a picture buffer but not a reference
decoder.  The layer with id 10 refers to those with ids 3 and 8. -/
def timedLayers : Nal where
  header := { kind := .vps, temporalIdPlus1 := 1 }
  bytes := [0x00, 0x71, 0x11, 0x40, 0x00, 0xa1, 0xc8, 0x29, 0x41, 0x97, 0x80, 0x77, 0x2c, 0x00,
    0xc8, 0x63, 0xc0, 0x00, 0xa4, 0x50, 0x04, 0xfe, 0x00, 0x5c, 0xa9, 0x80, 0x15, 0x00,
    0x01, 0x09, 0x18, 0x00, 0x00, 0x00, 0x08, 0x00, 0x07, 0x53, 0x00, 0xb9, 0x36, 0x60]

theorem indices_timedLayers : ∃ vps s', (start false).readVps timedLayers = (.ok vps, s') ∧
    vps.profileOfSet = [0, 0, 0] ∧ vps.timing.map (·.sets) = some [0, 1] ∧ vps.Indexed ∧
    OutputLayerSet.multiLayerIndices vps.sets = [0, 0, 1] ∧
    OutputLayerSet.multiLayerCount vps.sets = 2 ∧
    ¬ (vps.layerTable.referenceId? 10 2).isSome ∧
    vps.layerTable.referenceId? 10 1 = some 8 ∧ 8 ∈ vps.layers.map (·.id) := by
  have hcheck : (match (start false).readVps timedLayers with
    | (.ok vps, _) => vps.profileOfSet == [0, 0, 0] && vps.timing.map (·.sets) == some [0, 1] &&
        OutputLayerSet.multiLayerIndices vps.sets == [0, 0, 1] &&
        OutputLayerSet.multiLayerCount vps.sets == 2 &&
        vps.layerTable.referenceCount 10 == 2 && vps.layerTable.referenceId? 10 1 == some 8
    | _ => false) = true := by
    decide +kernel
  split at hcheck
  · rename_i vps s' hread
    simp only [Bool.and_eq_true, beq_iff_eq] at hcheck
    obtain ⟨⟨⟨⟨⟨hprofiles, htiming⟩, hindices⟩, hmulti⟩, hcount⟩, hfound⟩ := hcheck
    obtain ⟨hindexed, -, -, hreferences⟩ := indices_of_readVps hread
    refine ⟨vps, s', hread, hprofiles, htiming, hindexed, hindices, hmulti, ?_, hfound, ?_⟩
    · rw [(hreferences 10 2).1, hcount]
      decide
    · exact ((hreferences 10 1).2 8 hfound).1
  · cases hcheck

end Session

end CodedVideo
