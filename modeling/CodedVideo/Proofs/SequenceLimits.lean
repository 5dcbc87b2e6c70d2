import CodedVideo.Proofs.ParameterSets

/-!
# The limits of accepted sequences

What headers are read with has to be small: shifts by the number of low bits of an order
count stay within 32 bits, lists fit the arrays that hold them, and a coding tree ends at
the smallest block.  `Sps.Limited` collects these limits, and `Sps.read_limited` says that
they hold of every sequence parameter set that is accepted.

The groups of elements establish the limits one after another, so there is a structure for
what is known after each of them.
-/

namespace CodedVideo

open Parse

/-! ### Parts of a sequence parameter set -/

/-- The limits of a tree fit the sizes of blocks, where binary splits apply to blocks of at
most the given size. -/
structure TreeLimits.Within (sizes : BlockSizes) (largestBt : Nat) (t : TreeLimits) : Prop where
  leaf : t.minQtLog2 sizes ≤ sizes.maxSplitLog2
  depth : t.depth ≤ 2 * (sizes.ctbLog2 - sizes.minCbLog2)
  binary : t.minQtLog2 sizes + t.maxBt ≤ largestBt
  ternary : t.minQtLog2 sizes + t.maxTt ≤ sizes.maxSplitLog2

theorem TreeLimits.Within.mono {sizes : BlockSizes} {small large : Nat} {t : TreeLimits}
    (h : t.Within sizes small) (hle : small ≤ large) : t.Within sizes large :=
  { h with binary := h.binary.trans hle }

/-- Without splits after those of the quadtree a leaf has to fit all the same. -/
theorem TreeLimits.read_within {sizes : BlockSizes} {largestBt : Nat}
    (hblocks : sizes.minCbLog2 ≤ sizes.maxSplitLog2) (hbt : sizes.maxSplitLog2 ≤ largestBt) :
    (read sizes largestBt).Ensures (·.Within sizes largestBt) := by
  refine .bind (.ueMax fun _ h => h) fun minQt hminQt => ?_
  refine .bind (.ueMax fun _ h => h) fun depth hdepth => ?_
  have hleaf : sizes.minCbLog2 + minQt ≤ sizes.maxSplitLog2 := by omega
  have hgiven : ∀ largest, sizes.minCbLog2 + minQt ≤ largest →
      (given (depth != 0) (ueMax (largest - (sizes.minCbLog2 + minQt)))).Ensures fun value =>
        sizes.minCbLog2 + minQt + value ≤ largest := by
    intro largest hlargest
    rw [ensures_given]
    exact ⟨fun _ => .ueMax fun value hvalue => by omega, fun _ => hlargest⟩
  refine (hgiven largestBt (hleaf.trans hbt)).bind fun maxBt hmaxBt => ?_
  exact (hgiven _ hleaf).bind fun maxTt hmaxTt => ensures_pure.mpr ⟨hleaf, hdepth, hmaxBt, hmaxTt⟩

/-- The limits of all trees fit the sizes of blocks.  Binary splits apply to blocks of any
size, but for chroma only to those that can be transformed. -/
structure CodingTrees.Within (sizes : BlockSizes) (t : CodingTrees) : Prop where
  intraLuma : t.intraLuma.Within sizes sizes.ctbLog2
  intraChroma : t.intraChroma.Within sizes sizes.maxSplitLog2
  inter : t.inter.Within sizes sizes.ctbLog2

/-- The order counts of an accepted sequence have at most 16 low bits. -/
theorem HeaderCoding.read_lsbBits : HeaderCoding.read.Ensures (·.lsbBits ≤ 16) := by
  refine .andThen fun _ => .andThen fun _ => ?_
  refine .bind (ensures_uMax.mpr fun _ _ h => h) fun log2MaxLsbMinus4 hle => .andThen fun _ => ?_
  extract_lets close
  have hclose : ∀ length, (close length).Ensures (·.lsbBits ≤ 16) := fun _ =>
    .andThen fun _ => .andThen fun _ => ensures_pure.mpr (Nat.add_le_add_right hle 4)
  split <;> exact .andThen hclose

theorem SpsSubpictures.read_count (width height : Nat) :
    (read width height).Ensures fun s => 0 < s.count ∧ s.count ≤ maxSubpictures := by
  have hinfo : (readInfo width height).Ensures fun s => 0 < s.count ∧ s.count ≤ maxSubpictures := by
    refine .bind (.ueMax fun _ h => h) fun countMinus1 hcount => ?_
    extract_lets count several withShape
    have hle : count ≤ maxSubpictures := by
      have hcount : countMinus1 ≤ maxSubpictures - 1 := hcount.trans (Nat.min_le_left _ _)
      unfold maxSubpictures at hcount ⊢
      omega
    have hwithShape : ∀ independent, (withShape independent).Ensures fun s =>
        0 < s.count ∧ s.count ≤ maxSubpictures := by
      intro independent
      refine .andThen fun sameSize => ?_
      refine (readEntries_ensures (Nat.succ_pos _)).bind fun entries hentries => ?_
      refine .andThen fun _ => .andThen fun _ => .andThen fun _ => .andThen fun present => ?_
      have hentries : 0 < entries.length ∧ entries.length ≤ maxSubpictures :=
        hentries ▸ ⟨Nat.succ_pos _, hle⟩
      split <;> exact .andThen fun _ => ensures_pure.mpr hentries
    split <;> exact .andThen hwithShape
  refine .andThen fun signalled => ?_
  extract_lets complete
  have hcomplete : ∀ s : SpsSubpictures, 0 < s.count ∧ s.count ≤ maxSubpictures →
      (complete s).Ensures fun s => 0 < s.count ∧ s.count ≤ maxSubpictures := fun s hs =>
    .andThen fun _ => ensures_pure.mpr hs
  split
  · exact hinfo.bind hcomplete
  · exact hcomplete _ (by simp [whole, count, maxSubpictures])

/-- A list is no longer than those that can be coded. -/
def ListStructure.Limited (l : ListStructure) : Prop := l.size ≤ maxEntries

theorem ListStructure.read_limited (rules : ListRules) (candidate : Bool) (references : Nat) :
    (read rules candidate references).Ensures Limited := by
  refine .bind (.ueMax fun _ h => h) fun count hcount => ?_
  extract_lets withPlace
  have hwithPlace : ∀ lsbInHeader, (withPlace lsbInHeader).Ensures Limited := fun lsbInHeader =>
    ensures_collectFrom.bind fun entries hentries =>
      ensures_pure.mpr (le_of_eq_of_le hentries hcount)
  split <;> exact .andThen hwithPlace

/-! ### Several structures -/

namespace Parse

variable {α : Type} {P : α → Prop} {p : Nat → Parse α}

theorem ensures_forall_collectOnto (hp : ∀ index, (p index).Ensures P) :
    ∀ {count start : Nat} {read : List α}, (∀ a ∈ read, P a) →
      (collectOnto p read start count).Ensures fun values => ∀ a ∈ values, P a := by
  intro count
  induction count with
  | zero =>
    intro start read hread
    exact ensures_done.mpr fun a ha => hread a (List.mem_reverse.mp ha)
  | succ count ih =>
    intro start read hread
    refine (hp start).bind fun value hvalue => ih fun a ha => ?_
    rcases List.mem_cons.mp ha with rfl | ha
    · exact hvalue
    · exact hread a ha

/-- What holds of every structure holds of all that are read. -/
theorem ensures_forall_collect (hp : ∀ index, (p index).Ensures P) (count : Nat) :
    (collect count p).Ensures fun values => ∀ a ∈ values, P a :=
  ensures_forall_collectOnto hp fun _ ha => absurd ha List.not_mem_nil

end Parse

namespace SequenceReferences

/-- There are no more candidates, and they are no longer, than can be coded. -/
def LimitedList (candidates : List ListStructure) : Prop :=
  candidates.length ≤ maxCandidates ∧ ∀ l ∈ candidates, l.Limited

theorem readCandidates_limited (rules : ListRules) (references : Nat) :
    (readCandidates rules references).Ensures LimitedList := by
  refine .bind (.ueMax fun _ h => h) fun count hcount values hvalues => ?_
  exact ⟨le_of_eq_of_le (ensures_collectFrom values hvalues) hcount,
    ensures_forall_collect (fun _ => ListStructure.read_limited _ _ _) count values hvalues⟩

theorem read_limited (lsbBits : Nat) (layered : Bool) (references : Parse Nat) :
    (read lsbBits layered references).Ensures fun s =>
      LimitedList s.candidates0 ∧ LimitedList s.candidates1 := by
  refine .andThen fun _ => .andThen fun _ => .andThen fun _ => .andThen fun interLayer => ?_
  refine .andThen fun _ => .andThen fun sameLists => ?_
  extract_lets rules withCount
  have hwithCount : ∀ count, (withCount count).Ensures fun s =>
      LimitedList s.candidates0 ∧ LimitedList s.candidates1 := by
    intro count
    refine (readCandidates_limited _ _).bind fun candidates0 h0 => ?_
    extract_lets withSecond
    have hwithSecond : ∀ candidates1, LimitedList candidates1 →
        (withSecond candidates1).Ensures fun s =>
          LimitedList s.candidates0 ∧ LimitedList s.candidates1 := fun candidates1 h1 =>
      ensures_pure.mpr ⟨h0, h1⟩
    split
    · exact hwithSecond _ h0
    · exact (readCandidates_limited _ _).bind hwithSecond
  split <;> exact .andThen hwithCount

end SequenceReferences

/-! ### The groups of elements -/

namespace Sps

/-- What the size and the subpictures are limited to. -/
structure LimitedSize (sps : Sps) : Prop where
  ctuSize : sps.log2CtuSizeMinus5 ≤ 2
  count_pos : 0 < sps.subpictures.count
  count_le : sps.subpictures.count ≤ maxSubpictures

/-- What the coding of samples and headers is limited to. -/
structure LimitedCoding (sps : Sps) : Prop extends sps.LimitedSize where
  bitDepth : sps.bitDepthMinus8 ≤ 8
  lsbBits : sps.headers.lsbBits ≤ 16

/-- What blocks and coding trees are limited to. -/
structure LimitedTrees (sps : Sps) : Prop extends sps.LimitedCoding where
  blocks : sps.blocks.minCbLog2 ≤ sps.blocks.maxSplitLog2
  trees : sps.trees.Within sps.blocks

/-- What a sequence parameter set that has been accepted is limited to. -/
structure Limited (sps : Sps) : Prop extends sps.LimitedTrees where
  candidates0 : SequenceReferences.LimitedList sps.references.candidates0
  candidates1 : SequenceReferences.LimitedList sps.references.candidates1

theorem readFormat_limited (vpsOf : Nat → Option Vps) :
    (readFormat vpsOf).Ensures (·.log2CtuSizeMinus5 ≤ 2) := by
  refine .andThen fun _ => .andThen fun _ => .andThen fun _ => .andThen fun _ => ?_
  refine .bind (ensures_uMax.mpr fun _ _ h => h) fun log2CtuSizeMinus5 hle => .andThen fun _ => ?_
  exact .andThen fun _ => .andThen fun _ => .andThen fun _ => ensures_pure.mpr hle

theorem readSize_limited {sps : Sps} (h : sps.log2CtuSizeMinus5 ≤ 2) :
    (readSize sps).Ensures LimitedSize := by
  refine .andThen fun _ => .andThen fun _ => .andThen fun _ => .andThen fun _ => ?_
  refine .andThen fun _ => .andThen fun _ => ?_
  extract_lets unit withWindow
  have hwithWindow : ∀ window, (withWindow window).Ensures LimitedSize := fun _ =>
    (SpsSubpictures.read_count _ _).bind fun _ hcount =>
      ensures_pure.mpr ⟨h, hcount.1, hcount.2⟩
  refine .andThen fun windowCoded => ?_
  split <;> exact .andThen hwithWindow

theorem readCoding_limited {sps : Sps} (h : sps.LimitedSize) :
    (readCoding sps).Ensures LimitedCoding := by
  refine .bind (.ueMax fun _ hle => hle) fun bitDepthMinus8 hdepth => ?_
  refine HeaderCoding.read_lsbBits.bind fun headers hlsb => .andThen fun _ => .andThen fun _ => ?_
  exact ensures_pure.mpr { h with bitDepth := hdepth, lsbBits := hlsb }

theorem readTrees_limited {sps : Sps} (h : sps.LimitedCoding) :
    (readTrees sps).Ensures LimitedTrees := by
  unfold readTrees
  refine .bind (.ueMax fun _ hle => hle) fun log2MinCbMinus2 hle => ?_
  extract_lets sps' blocks
  have hblocks : blocks.minCbLog2 ≤ blocks.maxSplitLog2 := by
    show log2MinCbMinus2 + 2 ≤ min sps.blocks.ctbLog2 6
    have hctb : sps.blocks.ctbLog2 = sps.log2CtuSizeMinus5 + 5 := rfl
    omega
  have hctb : blocks.maxSplitLog2 ≤ blocks.ctbLog2 := Nat.min_le_left _ _
  refine .andThen fun _ => .andThen fun _ => ?_
  refine (TreeLimits.read_within hblocks hctb).bind fun intraLuma hluma => ?_
  refine .andThen fun dualTree => ?_
  refine .bind (P := (·.Within blocks blocks.maxSplitLog2)) ?_ fun intraChroma hchroma => ?_
  · rw [ensures_given]
    refine ⟨fun _ => TreeLimits.read_within hblocks le_rfl, fun _ => ?_⟩
    exact ⟨hblocks, Nat.zero_le _, hblocks, hblocks⟩
  refine (TreeLimits.read_within hblocks hctb).bind fun inter hinter => ensures_pure.mpr ?_
  exact { h with blocks := hblocks, trees := ⟨hluma, hchroma, hinter⟩ }

theorem readTools_limited {sps : Sps} (h : sps.LimitedTrees) (references : Nat → Parse Nat) :
    (readTools references sps).Ensures Limited := by
  refine .andThen fun _ => .andThen fun _ => .andThen fun _ => ?_
  refine (SequenceReferences.read_limited _ _ _).bind fun references hreferences => ?_
  refine .andThen fun _ => .andThen fun _ => .andThen fun _ => ?_
  extract_lets withDeblocking
  have hwithDeblocking : ∀ deblocking, (withDeblocking deblocking).Ensures Limited := fun _ =>
    .andThen fun _ => ensures_pure.mpr
      { h with candidates0 := hreferences.1, candidates1 := hreferences.2 }
  split <;> exact .andThen hwithDeblocking

theorem readPresentation_limited {sps : Sps} (h : sps.Limited) :
    (readPresentation sps).Ensures Limited := by
  refine (readPresentation_frame sps).mono fun sps' hsps' => ?_
  rw [hsps']
  exact { h with }

theorem readExtensions_limited {sps : Sps} (h : sps.Limited) :
    (readExtensions sps).Ensures Limited := by
  refine (readExtensions_frame sps).mono fun sps' hsps' => ?_
  rw [hsps']
  exact { h with }

/-- **Every accepted sequence parameter set is limited.** -/
theorem read_limited (vpsOf : Nat → Option Vps) (layer : Nat) :
    (read vpsOf layer).Ensures Limited := by
  refine ensures_read ?_
  refine (readFormat_limited vpsOf).bind fun sps h => (readSize_limited h).bind fun sps h => ?_
  refine (readCoding_limited h).bind fun sps h => (readTrees_limited h).bind fun sps h => ?_
  refine (readTools_limited h _).bind fun sps h => ?_
  exact (readPresentation_limited h).bind fun sps h => readExtensions_limited h

end Sps

end CodedVideo
