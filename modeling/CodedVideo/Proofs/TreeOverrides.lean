import CodedVideo.Proofs.PictureLimits
import CodedVideo.Proofs.QpRange

/-!
# Coding trees that a picture header overrides

A picture header takes over the limits of coding trees of its sequence or gives its own.
Those of the sequence fit the sizes of blocks (`CodingTrees.Within`), and the header checks
its own as well, but with one bound for the binary splits of all trees.  A sequence allows
binary splits of chroma only for blocks that can be transformed, of at most 64 samples.

`Session.Reachable.trees_within_iff` says where this matters: only for coding tree blocks of
128 samples, in a picture header that overrides the limits of a separate chroma tree, and
there only if it allows binary splits of the whole coding tree block.
-/

namespace CodedVideo

open Parse

namespace PictureHeader

variable {pps : Pps} {h : PictureHeader}

/-- What holds of the trees in a picture header from the elements for intra slices on. -/
structure TreesChecked (pps : Pps) (h : PictureHeader) : Prop where
  intraLuma : h.trees.intraLuma.Within pps.sps.blocks pps.sps.blocks.ctbLog2
  intraChroma : h.trees.intraChroma.Within pps.sps.blocks pps.sps.blocks.ctbLog2
  inter : h.trees.inter.Within pps.sps.blocks pps.sps.blocks.ctbLog2
  /-- The chroma tree is that of the sequence unless the header has its own. -/
  inherited : ¬ (h.treesOverridden = true ∧ pps.sps.dualTree = true ∧ h.start.intraSlices = true) →
    h.trees.intraChroma = pps.sps.trees.intraChroma

theorem readIntra_trees (hsps : pps.sps.Limited) (h : PictureHeader)
    (htrees : h.trees = pps.sps.trees) : (readIntra pps h).Ensures (TreesChecked pps) := by
  have hchroma : pps.sps.blocks.maxSplitLog2 ≤ pps.sps.blocks.ctbLog2 := Nat.min_le_left _ _
  have hread : (TreeLimits.read pps.sps.blocks pps.sps.blocks.ctbLog2).Ensures
      (·.Within pps.sps.blocks pps.sps.blocks.ctbLog2) :=
    TreeLimits.read_within hsps.blocks hchroma
  have hluma := hsps.trees.intraLuma
  have hinter := hsps.trees.inter
  have hinherited := hsps.trees.intraChroma.mono hchroma
  rw [← htrees] at hluma hinter hinherited
  unfold readIntra
  refine .andThen fun treesOverridden => ?_
  split
  · exact ensures_pure.mpr ⟨hluma, hinherited, hinter, fun _ => by rw [htrees]⟩
  · rename_i hintra
    extract_lets tree trees withLuma
    have hwithLuma : ∀ intraLuma : TreeLimits,
        intraLuma.Within pps.sps.blocks pps.sps.blocks.ctbLog2 →
          (withLuma intraLuma).Ensures (TreesChecked pps) := by
      intro intraLuma hluma
      unfold withLuma
      extract_lets withChroma
      have hwithChroma : ∀ intraChroma : TreeLimits,
          intraChroma.Within pps.sps.blocks pps.sps.blocks.ctbLog2 →
          (¬ (treesOverridden = true ∧ pps.sps.dualTree = true) →
            intraChroma = pps.sps.trees.intraChroma) →
            (withChroma intraChroma).Ensures (TreesChecked pps) := by
        intro intraChroma hchroma hsame
        refine .andThen fun _ => ensures_pure.mpr ⟨hluma, hchroma, hinter, fun hnot => hsame ?_⟩
        rintro ⟨hoverridden, hdual⟩
        exact hnot ⟨hoverridden, hdual, by simpa using hintra⟩
      split
      · rename_i hown
        rw [Bool.and_eq_true] at hown
        exact hread.bind fun intraChroma hchroma =>
          hwithChroma intraChroma hchroma fun hnot => absurd hown hnot
      · exact hwithChroma _ hinherited fun _ => by rw [htrees]
    split
    · exact hread.bind hwithLuma
    · exact hwithLuma _ hluma

theorem readInter_trees (hsps : pps.sps.Limited) (hchecked : TreesChecked pps h) :
    (readInter pps h).Ensures (TreesChecked pps) := by
  unfold readInter
  split
  · exact ensures_pure.mpr hchecked
  · extract_lets tree trees withInter
    have hwithInter : ∀ inter : TreeLimits,
        inter.Within pps.sps.blocks pps.sps.blocks.ctbLog2 →
          (withInter inter).Ensures (TreesChecked pps) := fun inter hinter =>
      .andThen fun _ => .andThen fun _ => ensures_pure.mpr { hchecked with inter := hinter }
    split
    · exact (TreeLimits.read_within hsps.blocks (Nat.min_le_left _ _)).bind hwithInter
    · exact hwithInter _ hchecked.inter

/-- Only the elements for intra and inter slices touch the trees. -/
theorem readRest_trees (hsps : pps.sps.Limited) (references : Parse Nat) (start : PictureStart) :
    (readRest pps references start).Ensures (TreesChecked pps) := by
  have hcount : ∀ h, (readCount pps.sps h).Ensures (·.trees = h.trees) := by
    cases hlength : pps.sps.headers.msbCycleLengthMinus1 <;> simp [readCount, hlength]
  have hchoices : ∀ h, (readChoices pps h).Ensures (·.trees = h.trees) := by simp [readChoices]
  have hscope : ∀ h, (readScope pps references h).Ensures (·.trees = h.trees) := by
    simp [readScope]
  have hfilters : ∀ h, (readFilters pps h).Ensures fun h' =>
      h'.trees = h.trees ∧ h'.treesOverridden = h.treesOverridden ∧ h'.start = h.start := by
    simp [readFilters]
  refine (hcount _).bind fun h₁ e₁ => (hchoices h₁).bind fun h₂ e₂ => ?_
  refine (hscope h₂).bind fun h₃ e₃ => ?_
  have htrees : h₃.trees = pps.sps.trees := by
    rw [e₃, e₂, e₁]
    rfl
  refine (readIntra_trees hsps h₃ htrees).bind fun h₄ hchecked => ?_
  refine (readInter_trees hsps hchecked).bind fun h₅ hchecked => ?_
  refine (hfilters h₅).mono fun h₆ hsame => ?_
  obtain ⟨htrees, hoverridden, hstart⟩ := hsame
  obtain ⟨hluma, hchroma, hinter, hinherited⟩ := hchecked
  rw [← htrees] at hluma hchroma hinter hinherited
  rw [← hoverridden, ← hstart] at hinherited
  exact ⟨hluma, hchroma, hinter, hinherited⟩

end PictureHeader

/-- A tree within the limits for luma is within those for chroma, unless a coding tree block
of 128 samples may be split in two as a whole. -/
theorem TreeLimits.Within.chroma_iff {sizes : BlockSizes} {t : TreeLimits}
    (h : t.Within sizes sizes.ctbLog2) (hsizes : sizes.ctbLog2 ≤ 7) :
    t.Within sizes sizes.maxSplitLog2 ↔
      (sizes.ctbLog2 = 7 → t.minQtLog2 sizes + t.maxBt ≠ 7) := by
  have hbinary := h.binary
  constructor
  · intro hchroma hctb hlarge
    have hsplit : sizes.maxSplitLog2 = 6 := by
      rw [BlockSizes.maxSplitLog2, hctb]
      rfl
    have hbinary := hchroma.binary
    omega
  · intro hlarge
    refine { h with binary := ?_ }
    unfold BlockSizes.maxSplitLog2
    omega

namespace Session

variable {s : Session}

/-- **The trees of an accepted picture header fit the sizes of blocks** as those of its
sequence do, except for a chroma tree of its own that allows binary splits of coding tree
blocks of 128 samples. -/
theorem Reachable.trees_within_iff (hs : s.Reachable) {layer : Nat} {r : BitReader}
    {picture : PictureHeader} {reading : Reading}
    (h : (pictureStructure layer).run ⟨s, r⟩ = (.ok picture, reading)) :
    ∃ pps, s.pictureSets.get? picture.start.ppsId = some pps ∧
      pps.sps.trees.Within pps.sps.blocks ∧
      picture.trees.intraLuma.Within pps.sps.blocks pps.sps.blocks.ctbLog2 ∧
      picture.trees.intraChroma.Within pps.sps.blocks pps.sps.blocks.ctbLog2 ∧
      picture.trees.inter.Within pps.sps.blocks pps.sps.blocks.ctbLog2 ∧
      (picture.trees.Within pps.sps.blocks ↔
        (picture.treesOverridden = true → pps.sps.dualTree = true →
          picture.start.intraSlices = true → pps.sps.blocks.ctbLog2 = 7 →
            picture.trees.intraChroma.minQtLog2 pps.sps.blocks +
              picture.trees.intraChroma.maxBt ≠ 7)) := by
  obtain ⟨pps, references, hpps, hgives⟩ := exists_readRest_of_run h
  have hsps := (hs.limited _ pps hpps).sps
  have hchecked := PictureHeader.readRest_trees hsps references picture.start picture hgives
  have hctb : pps.sps.blocks.ctbLog2 ≤ 7 := Nat.add_le_add_right hsps.ctuSize 5
  have hiff := hchecked.intraChroma.chroma_iff hctb
  refine ⟨pps, hpps, hsps.trees, hchecked.intraLuma, hchecked.intraChroma, hchecked.inter, ?_⟩
  constructor
  · exact fun hwithin _ _ _ => hiff.mp hwithin.intraChroma
  · intro hlarge
    refine ⟨hchecked.intraLuma, ?_, hchecked.inter⟩
    by_cases hown : picture.treesOverridden = true ∧ pps.sps.dualTree = true ∧
        picture.start.intraSlices = true
    · exact hiff.mpr (hlarge hown.1 hown.2.1 hown.2.2)
    · rw [hchecked.inherited hown]
      exact hsps.trees.intraChroma

/-- A session with coding tree blocks of 128 samples, in which luma and chroma of intra slices
have trees of their own that picture headers may override. -/
def largeBlocks : Session :=
  (start false).after (.sequenceSet {
      header := { kind := .sps, temporalIdPlus1 := 1 }
      bytes := [0x00, 0x79, 0x00, 0x0d, 0x02, 0x33, 0x80, 0x00, 0x00, 0x40, 0x80, 0x81, 0x18, 0x80,
        0xff, 0xf0, 0x7c, 0x03, 0x00, 0x60, 0x86, 0x00, 0x20] })
    |>.after (.pictureSet {
      header := { kind := .pps, temporalIdPlus1 := 1 }
      bytes := [0x00, 0x81, 0x00, 0x00, 0x20, 0x40, 0x40, 0x89, 0x84, 0x08] })

theorem largeBlocks_reachable : largeBlocks.Reachable := .after _ (.after _ (.start false))

/-- A picture header that overrides the trees of intra slices.  Chroma has leaves of at least
4 samples, and binary splits of blocks of at most 64. -/
def fittingHeader : Nal where
  header := { kind := .pictureHeader, temporalIdPlus1 := 1 }
  bytes := [0x00, 0x99, 0x10, 0x0d, 0x74, 0x5c]

theorem trees_within_fittingHeader : ∃ picture reading pps,
    (pictureStructure 0).run ⟨largeBlocks, largeBlocks.readerFor fittingHeader⟩ =
      (.ok picture, reading) ∧
    largeBlocks.pictureSets.get? 0 = some pps ∧ picture.treesOverridden = true ∧
    picture.trees.Within pps.sps.blocks := by
  have hcheck : (match (pictureStructure 0).run
      ⟨largeBlocks, largeBlocks.readerFor fittingHeader⟩ with
    | (.ok picture, _) => picture.treesOverridden && picture.start.ppsId == 0 &&
        picture.trees.intraChroma == { depth := 1, maxBt := 4 }
    | (.error _, _) => false) = true := by
    decide +kernel
  have hblocks : (largeBlocks.pictureSets.get? 0).all (·.sps.blocks.minCbLog2 == 2) = true := by
    decide +kernel
  split at hcheck
  · rename_i picture reading hrun
    simp only [Bool.and_eq_true, beq_iff_eq] at hcheck
    obtain ⟨⟨hoverridden, hid⟩, hchroma⟩ := hcheck
    obtain ⟨pps, hpps, -, -, -, -, hiff⟩ := largeBlocks_reachable.trees_within_iff hrun
    rw [hid] at hpps
    rw [hpps, Option.all_some, beq_iff_eq] at hblocks
    refine ⟨picture, reading, pps, hrun, hpps, hoverridden, hiff.mpr fun _ _ _ _ => ?_⟩
    rw [hchroma, TreeLimits.minQtLog2, hblocks]
    decide
  · cases hcheck

/-- The same with binary splits of blocks of up to 128 samples. -/
def exceedingHeader : Nal where
  header := { kind := .pictureHeader, temporalIdPlus1 := 1 }
  bytes := [0x00, 0x99, 0x10, 0x0d, 0x74, 0x6c]

/-- It is accepted, although the sequence could not have had that tree itself. -/
theorem chroma_exceeds_exceedingHeader : largeBlocks.Reachable ∧ ∃ picture pps,
    (largeBlocks.readPictureHeader exceedingHeader).1 = .ok picture ∧
    largeBlocks.pictureSets.get? picture.start.ppsId = some pps ∧
    ¬ picture.trees.intraChroma.minQtLog2 pps.sps.blocks + picture.trees.intraChroma.maxBt ≤
      min 6 pps.sps.blocks.ctbLog2 := by
  refine ⟨largeBlocks_reachable, ?_⟩
  have hcheck : (match (largeBlocks.readPictureHeader exceedingHeader).1 with
    | .ok picture => (largeBlocks.pictureSets.get? picture.start.ppsId).any fun pps =>
        decide (¬ picture.trees.intraChroma.minQtLog2 pps.sps.blocks +
          picture.trees.intraChroma.maxBt ≤ min 6 pps.sps.blocks.ctbLog2)
    | .error _ => false) = true := by
    decide +kernel
  split at hcheck
  · rename_i picture hpicture
    rw [Option.any_eq_true] at hcheck
    obtain ⟨pps, hpps, hcheck⟩ := hcheck
    exact ⟨picture, pps, hpicture, hpps, of_decide_eq_true hcheck⟩
  · cases hcheck

end Session

end CodedVideo
