import CodedVideo.Proofs.QpTables
import CodedVideo.Proofs.SliceArithmetic

/-!
# The bounds of stored parameter sets

What headers are read with has been checked when the parameter sets were, partly with the
sequence parameter set and partly with the picture parameter set that was read against it.
`Pps.Bounded` collects what is known of the two together.  It holds of every picture parameter
set that a session keeps, whichever sets have been replaced since, and so no operation of
a header that is read with one leaves its range: `Session.Reachable.stored_bounded`.
-/

namespace CodedVideo

open CheckedParse

/-! ### Entries of reference lists -/

namespace ListEntry

/-- Whether the entry names a picture of another layer. -/
def isInterLayer : ListEntry → Bool
  | interLayer _ => true
  | _ => false

/-- Whether the entry names a picture by the distance of its order count. -/
def isShortTerm : ListEntry → Bool
  | shortTerm .. => true
  | _ => false

end ListEntry

namespace ListStructure

/-- A list is not too long, no entry is of two kinds, and those of neither kind are counted
as long-term entries. -/
structure Bounded (l : ListStructure) : Prop where
  size : l.size ≤ 28
  kind : ∀ entry ∈ l.entries, ¬ (entry.isInterLayer = true ∧ entry.isShortTerm = true)
  longTerm : l.longTermCount =
    l.entries.countP fun entry => !entry.isInterLayer && !entry.isShortTerm

theorem longTermCount_eq (l : ListStructure) : l.longTermCount =
    l.entries.countP fun entry => !entry.isInterLayer && !entry.isShortTerm := by
  rw [longTermCount, longTermLsbs, List.length_filterMap_eq_countP]
  refine List.countP_congr fun entry _ => ?_
  cases entry <;> simp [ListEntry.isInterLayer, ListEntry.isShortTerm]

theorem Limited.bounded {l : ListStructure} (h : l.Limited) : l.Bounded where
  size := h
  kind entry _ := by cases entry <;> simp [ListEntry.isInterLayer, ListEntry.isShortTerm]
  longTerm := l.longTermCount_eq

end ListStructure

/-! ### Stored sets -/

/-- There are not too many candidates for reference lists, as many as their numbers say, and
each is bounded. -/
structure SequenceReferences.Bounded (r : SequenceReferences) : Prop where
  counts : Report.row "sps_num_ref_pic_lists" [r.candidates0.length, r.candidates1.length] ∈
    r.members
  counts_le : r.candidates0.length ≤ 64 ∧ r.candidates1.length ≤ 64
  structures : ∀ l ∈ r.candidates0 ++ r.candidates1, l.Bounded

/-- What later headers rely on in a picture parameter set and its sequence parameter set. -/
structure Pps.Bounded (pps : Pps) : Prop where
  blocks : pps.sps.blocks.minCbLog2 ≤ min pps.sps.blocks.ctbLog2 6
  width : 0 < pps.width ∧ max 8 pps.sps.minCbSize ∣ pps.width ∧ pps.width ≤ pps.sps.width
  height : 0 < pps.height ∧ max 8 pps.sps.minCbSize ∣ pps.height ∧ pps.height ≤ pps.sps.height
  references : pps.sps.references.Bounded
  initialQp : -(pps.sps.qpOffset : Int) ≤ pps.qp.init ∧ pps.qp.init ≤ 63
  subpictureIds : pps.subpictureIds.Nodup ∧
    pps.subpictureIds.length = pps.sps.subpictures.count
  chromaTables : ∀ kind,
    (pps.sps.chromaQp.table pps.sps.lowestQp kind).length = 64 + pps.sps.qpOffset

theorem Sps.Limited.references_bounded {sps : Sps} (h : sps.Limited) :
    sps.references.Bounded where
  counts := by simp [SequenceReferences.members]
  counts_le := ⟨h.candidates0.1, h.candidates1.1⟩
  structures l hl := by
    rcases List.mem_append.mp hl with hl | hl
    · exact (h.candidates0.2 l hl).bounded
    · exact (h.candidates1.2 l hl).bounded

namespace Pps

variable {pps : Pps}

theorem bounded (hsound : pps.Sound) (hlimited : pps.Limited) (hinit : pps.StartsInRange) :
    pps.Bounded where
  blocks := hlimited.sps.blocks
  width := ⟨hsound.width_pos, hlimited.width, hsound.width_le⟩
  height := ⟨hsound.height_pos, hlimited.height, hsound.height_le⟩
  references := hlimited.sps.references_bounded
  initialQp := hinit
  subpictureIds := ⟨hlimited.subpictureIds, hsound.ids_length⟩
  chromaTables kind := by
    rw [ChromaQp.length_table, Sps.lowestQp, maxQp]
    omega

end Pps

namespace Session

variable {s : Session}

/-- **Stored parameter sets are bounded, and headers keep to the bounds.**  Readers that stop
at a negative difference, a shift of all bits or an index past the end of a table never do. -/
theorem Reachable.stored_bounded (hs : s.Reachable) {id : Nat} {pps : Pps}
    (hpps : s.pictureSets.get? id = some pps) :
    pps.Bounded ∧
    (∀ references start, (PictureHeader.readRestChecked pps references start).Agrees
      (PictureHeader.readRest pps references start)) ∧
    ∀ c : SliceHeader.Context, c.pps = pps →
      (SliceHeader.readChecked c).Agrees (SliceHeader.read c) := by
  have hsound := hs.sound.pictureSets id pps hpps
  have hlimited := hs.limited id pps hpps
  have hinit := hs.ranged.pictureSets id pps hpps
  refine ⟨Pps.bounded hsound hlimited hinit, fun references start => ?_, ?_⟩
  · exact PictureHeader.readRestChecked_agrees hlimited.sps hinit references start
  · rintro c rfl
    exact SliceHeader.readChecked_agrees hsound hlimited.sps hinit

theorem stored_bounded_fourSubpictures : ∃ pps,
    fourSubpictures.pictureSets.get? 0 = some pps ∧ pps.sps.subpictures.count = 4 ∧
      pps.Bounded ∧ ∀ c : SliceHeader.Context, c.pps = pps →
        (SliceHeader.readChecked c).Agrees (SliceHeader.read c) := by
  have hcheck : (fourSubpictures.pictureSets.get? 0).any
      (fun pps => pps.sps.subpictures.count == 4) = true := by
    decide +kernel
  rw [Option.any_eq_true] at hcheck
  obtain ⟨pps, hpps, hcount⟩ := hcheck
  obtain ⟨hbounded, -, hslices⟩ := fourSubpictures_reachable.stored_bounded hpps
  exact ⟨pps, hpps, beq_iff_eq.mp hcount, hbounded, hslices⟩

end Session

end CodedVideo
