import CodedVideo.Proofs.CheckedReading
import CodedVideo.Proofs.PictureLimits
import CodedVideo.Proofs.QpRange

/-!
# The arithmetic of picture headers

What a picture header is read with comes of its parameter sets: limits of coding trees are
differences of block sizes, boundaries are counted in units of eight samples, candidates for
reference lists are selected by index, and a QP is bounded by the one that slices start from.

Here are the readers again with each of these operations watched.  They agree with the plain
ones as long as the parameter sets are within their limits, so that nothing leaves its range:
`PictureHeader.readRestChecked_agrees`.
-/

namespace CodedVideo

open Parse CheckedParse

/-! ### Coding trees -/

namespace TreeLimits

/-- Reads the limits of a tree with watched differences of block sizes. -/
def readChecked (sizes : BlockSizes) (largestBt : Nat) : CheckedParse TreeLimits := do
  let largestLeaf ← sub sizes.maxSplitLog2 sizes.minCbLog2
  let minQt ← Parse.ueMax largestLeaf
  let levels ← sub sizes.ctbLog2 sizes.minCbLog2
  let depth ← Parse.ueMax (2 * levels)
  let leaf := sizes.minCbLog2 + minQt
  let maxBt ← CheckedParse.given (depth != 0) do Parse.ueMax (← sub largestBt leaf)
  let maxTt ← CheckedParse.given (depth != 0) do Parse.ueMax (← sub sizes.maxSplitLog2 leaf)
  return { minQt, depth, maxBt, maxTt }

theorem readChecked_agrees {sizes : BlockSizes} {largestBt : Nat}
    (hblocks : sizes.minCbLog2 ≤ sizes.maxSplitLog2) (hbt : sizes.maxSplitLog2 ≤ largestBt) :
    (readChecked sizes largestBt).Agrees (read sizes largestBt) := by
  have hctb : sizes.maxSplitLog2 ≤ sizes.ctbLog2 := Nat.min_le_left _ _
  refine .within (sub_of_le hblocks) ((agrees_lift _).bind fun minQt hminQt => ?_)
  have hleaf : minQt ≤ sizes.maxSplitLog2 - sizes.minCbLog2 :=
    Ensures.ueMax (fun _ h => h) minQt hminQt
  refine .within (sub_of_le (hblocks.trans hctb)) ((agrees_lift _).andThen fun depth => ?_)
  have hgiven : ∀ largest, sizes.maxSplitLog2 ≤ largest →
      (CheckedParse.given (depth != 0) do
        let bound ← sub largest (sizes.minCbLog2 + minQt)
        liftM (ueMax bound)).Agrees
          (Parse.given (depth != 0) (ueMax (largest - (sizes.minCbLog2 + minQt)))) :=
    fun largest hlargest => .given fun _ => .within (sub_of_le (by omega)) (agrees_lift _)
  refine (hgiven largestBt hbt).andThen fun maxBt => ?_
  exact (hgiven _ le_rfl).andThen fun maxTt => agrees_pure _

end TreeLimits

/-! ### Virtual boundaries -/

namespace VirtualBoundaries

/-- Reads boundaries with watched places and positions, the latter counted in units of eight
samples. -/
def readAlongChecked (size : Nat) : CheckedParse (List Nat) := do
  let count ← Parse.ueMax (if size ≤ 8 then 0 else maxCount)
  usePlaces maxCount count
  let largest ← CheckedParse.given (count != 0) (sub (ceilDiv size 8) 2)
  Parse.collect count fun _ => Parse.ueMax largest

/-- Reads the boundaries of a picture. -/
def readChecked (width height : Nat) : CheckedParse VirtualBoundaries := do
  let vertical ← readAlongChecked width
  let horizontal ← readAlongChecked height
  return { vertical, horizontal }

/-- Only lengths of more than one unit can be cut, and these have a second one. -/
theorem readAlongChecked_agrees (size : Nat) :
    (readAlongChecked size).Agrees (readAlong size) := by
  refine (agrees_lift _).bind fun count hcount => ?_
  have hcount : count ≤ if size ≤ 8 then 0 else maxCount :=
    Ensures.ueMax (fun _ h => h) count hcount
  have hmax : count ≤ maxCount := hcount.trans (by split <;> omega)
  refine .within (usePlaces_of_le hmax) ?_
  cases count with
  | zero => exact .within rfl (agrees_lift _)
  | succ count =>
    have hsize : 8 < size := by
      by_contra hsmall
      rw [if_pos (by omega)] at hcount
      omega
    have hunits : 2 ≤ ceilDiv size 8 := by
      unfold ceilDiv
      omega
    exact .within (sub_of_le hunits) (agrees_lift _)

theorem readChecked_agrees (width height : Nat) :
    (readChecked width height).Agrees (read width height) :=
  (readAlongChecked_agrees width).andThen fun _ =>
    (readAlongChecked_agrees height).andThen fun _ => agrees_pure _

end VirtualBoundaries

/-! ### Reference lists -/

namespace ListStructure

/-- The number of places for the entries of a list. -/
def entryPlaces : Nat := 29

/-- Reads the entry of an other layer with a watched bound for its reference. -/
def readInterLayerChecked (references : Nat) : CheckedParse ListEntry := do
  Parse.refuseIf (references == 0) .interLayerWithoutReference
  let largest ← sub references 1
  return .interLayer (← Parse.ueMax largest)

/-- Reads the entry at a given index. -/
def readEntryChecked (rules : ListRules) (references : Nat) (lsbInHeader : Bool) (index : Nat) :
    CheckedParse ListEntry := do
  let interLayer ← Parse.flagIf rules.interLayer
  if interLayer then readInterLayerChecked references
  else
    let shortTerm ← if rules.longTerm then Parse.flag else pure true
    if shortTerm then readShortTerm (rules.weighted && index != 0)
    else if lsbInHeader then return .longTerm none
    else return .longTerm (some (← Parse.u rules.lsbBits))

/-- Reads a list with watched places for its entries.  Long-term entries have places of their
own, of which no more are used than there are entries. -/
def readChecked (rules : ListRules) (candidate : Bool) (references : Nat) :
    CheckedParse ListStructure := do
  let count ← Parse.ueMax maxEntries
  usePlaces entryPlaces count
  let lsbInHeader ←
    if rules.longTerm && candidate && count > 0 then Parse.flag else pure true
  let entries ← CheckedParse.collect count (readEntryChecked rules references lsbInHeader)
  return { lsbInHeader, entries }

theorem readInterLayerChecked_agrees (references : Nat) :
    (readInterLayerChecked references).Agrees (readInterLayer references) := by
  cases references with
  | zero => exact fun _ => rfl
  | succ references =>
    refine .within rfl (.within (sub_of_le (Nat.succ_pos references)) ?_)
    exact (agrees_lift _).andThen fun _ => agrees_pure _

theorem readEntryChecked_agrees (rules : ListRules) (references : Nat) (lsbInHeader : Bool)
    (index : Nat) :
    (readEntryChecked rules references lsbInHeader index).Agrees
      (readEntry rules references lsbInHeader index) := by
  refine (agrees_lift _).andThen fun interLayer => ?_
  refine .ite (fun _ => readInterLayerChecked_agrees _) fun _ => ?_
  refine .choice (fun _ => agrees_lift _) (fun _ => agrees_pure true) fun shortTerm => ?_
  refine .ite (fun _ => agrees_lift _) fun _ => .ite (fun _ => agrees_pure _) fun _ => ?_
  exact (agrees_lift _).andThen fun _ => agrees_pure _

theorem readChecked_agrees (rules : ListRules) (candidate : Bool) (references : Nat) :
    (readChecked rules candidate references).Agrees (read rules candidate references) := by
  refine (agrees_lift _).bind fun count hcount => ?_
  have hcount : count ≤ maxEntries := Ensures.ueMax (fun _ h => h) count hcount
  refine .within (usePlaces_of_le (hcount.trans (by decide))) ?_
  refine .choice (fun _ => agrees_lift _) (fun _ => agrees_pure true) fun lsbInHeader => ?_
  exact (Agrees.collect (readEntryChecked_agrees _ _ _) _).andThen fun _ => agrees_pure _

theorem longTermCount_le (l : ListStructure) : l.longTermCount ≤ l.size :=
  List.length_filterMap_le _ _

end ListStructure

namespace HeaderList

/-- Reads what a header adds to the long-term entries with watched places and a watched bound
for the high parts. -/
def readLongTermChecked (lsbBits : Nat) (content : ListStructure) :
    CheckedParse (List LongTermCount) := do
  let _ ← shiftOne (← sub 32 lsbBits)
  usePlaces ListStructure.entryPlaces content.longTermCount
  readLongTerm lsbBits 0 content.longTermLsbs

/-- Reads a list with a watched choice of its candidate. -/
def readChecked (rules : ListRules) (candidates : List ListStructure) (references list : Nat)
    (choiceCoded : Bool) (previous : HeaderList) : CheckedParse HeaderList := do
  let count := candidates.length
  let select ←
    if count > 0 && choiceCoded then Parse.flag
    else pure (count > 0 && previous.candidate.isSome)
  if select then
    let index ←
      if count > 1 then
        if choiceCoded then do
          let largest ← sub count 1
          Parse.uMax (ceilLog2 count) largest
        else pure (previous.candidate.getD 0)
      else pure 0
    Parse.refuseIf (count ≤ index) (.missingListCandidate list index)
    let content ← entry candidates index
    let longTerm ← readLongTermChecked rules.lsbBits content
    return { candidate := some index, index, content, longTerm }
  else
    let content ← ListStructure.readChecked rules false references
    let longTerm ← readLongTermChecked rules.lsbBits content
    return { candidate := none, index := count, content, longTerm }

variable {rules : ListRules} {candidates : List ListStructure}

theorem readLongTermChecked_agrees {lsbBits : Nat} {content : ListStructure}
    (hlsb : 0 < lsbBits ∧ lsbBits ≤ 16) (hcontent : content.Limited) :
    (readLongTermChecked lsbBits content).Agrees
      (readLongTerm lsbBits 0 content.longTermLsbs) := by
  have hplaces : content.longTermCount ≤ ListStructure.entryPlaces :=
    (content.longTermCount_le.trans hcontent).trans (by decide)
  refine .within (sub_of_le (by omega)) (.within (shiftOne_of_lt (by omega)) ?_)
  exact .within (usePlaces_of_le hplaces) (agrees_lift _)

/-- The candidate that is selected is there, or the header is refused. -/
theorem readChecked_agrees (hlsb : 0 < rules.lsbBits ∧ rules.lsbBits ≤ 16)
    (hcandidates : SequenceReferences.LimitedList candidates) (references list : Nat)
    (choiceCoded : Bool) (previous : HeaderList) :
    (readChecked rules candidates references list choiceCoded previous).Agrees
      (read rules candidates references list choiceCoded previous) := by
  unfold readChecked read
  extract_lets count withIndex withSelect withIndex' withSelect'
  have hwithIndex : ∀ index, (withIndex index).Agrees (withIndex' index) := by
    intro index
    unfold withIndex withIndex'
    cases hcontent : candidates[index]? with
    | none =>
      rw [decide_eq_true (List.getElem?_eq_none_iff.mp hcontent)]
      exact fun _ => rfl
    | some content =>
      obtain ⟨hindex, -⟩ := List.getElem?_eq_some_iff.mp hcontent
      rw [decide_eq_false (Nat.not_le.mpr hindex)]
      refine .within rfl (.within (entry_of_eq_some hcontent) ?_)
      have hlimited := hcandidates.2 content (List.mem_of_getElem? hcontent)
      exact (readLongTermChecked_agrees hlsb hlimited).andThen fun _ => agrees_pure _
  have hwithSelect : ∀ select, (withSelect select).Agrees (withSelect' select) := by
    intro select
    refine .ite (fun _ => .ite (fun hseveral => ?_) fun _ => hwithIndex 0) fun _ => ?_
    · refine .ite (fun _ => ?_) fun _ => hwithIndex _
      exact .within (sub_of_le (Nat.le_of_lt hseveral)) ((agrees_lift _).andThen hwithIndex)
    · refine (ListStructure.readChecked_agrees rules false references).bind fun content hread => ?_
      have hlimited := ListStructure.read_limited rules false references content hread
      exact (readLongTermChecked_agrees hlsb hlimited).andThen fun _ => agrees_pure _
  exact .ite (fun _ => (agrees_lift _).andThen hwithSelect) fun _ => hwithSelect _

end HeaderList

namespace RefLists

/-- Reads both lists. -/
def readChecked (rules : ListRules) (candidates0 candidates1 : List ListStructure)
    (choice1Coded : Bool) (references : Nat) : CheckedParse RefLists := do
  let list0 ← HeaderList.readChecked rules candidates0 references 0 true {}
  let list1 ← HeaderList.readChecked rules candidates1 references 1 choice1Coded list0
  return { list0, list1 }

theorem readChecked_agrees {sps : Sps} (h : sps.Limited) (choice1Coded : Bool)
    (references : Nat) :
    (readChecked sps.listRules sps.references.candidates0 sps.references.candidates1 choice1Coded
        references).Agrees
      (read sps.listRules sps.references.candidates0 sps.references.candidates1 choice1Coded
        references) := by
  have hlsb : 0 < sps.listRules.lsbBits ∧ sps.listRules.lsbBits ≤ 16 :=
    ⟨Nat.succ_pos _, h.lsbBits⟩
  refine (HeaderList.readChecked_agrees hlsb h.candidates0 _ _ _ _).andThen fun list0 => ?_
  exact (HeaderList.readChecked_agrees hlsb h.candidates1 _ _ _ _).andThen fun _ => agrees_pure _

end RefLists

/-! ### Weights -/

namespace WeightTable

/-- Reads the weights of a list with watched places for them. -/
def readListChecked (rules : WeightRules) (list count : Nat) :
    CheckedParse (List EntryWeights) := do
  Parse.refuseIf (count > maxWeights) (.tooManyWeights count list)
  usePlaces maxWeights count
  let lumas ← Parse.collect count fun _ => Parse.flag
  let chromas ← Parse.collect count fun _ => Parse.flagIf rules.chroma
  readEntries rules.halfRange lumas chromas

/-- Reads a weight table with watched places for the weights and watched factors. -/
def readChecked (rules : WeightRules) : CheckedParse WeightTable := do
  let lumaDenominator ← Parse.ueMax 7
  let chromaDenominatorDelta ←
    CheckedParse.given rules.chroma (Parse.seBetween (-lumaDenominator) (7 - lumaDenominator))
  let _ ← shiftOne lumaDenominator
  let _ ← shiftOne (← natural (lumaDenominator + chromaDenominatorDelta))
  let inHeader := rules.inPictureHeader
  let codedCount0 ← CheckedParse.given inHeader (Parse.ueMax (min maxWeights rules.entries.1))
  let list0 ← readListChecked rules 0 (if inHeader then codedCount0 else rules.active.1)
  let codedCount1 ←
    CheckedParse.given (rules.weightedBi && inHeader && rules.entries.2 > 0)
      (Parse.ueMax (min maxWeights rules.entries.2))
  let count1 :=
    if !rules.weightedBi then 0 else if inHeader then codedCount1 else rules.active.2
  let list1 ← readListChecked rules 1 count1
  return {
    lumaDenominator, chromaDenominatorDelta, codedCount0, codedCount1, list0, list1
    halfRange := rules.halfRange }

theorem readListChecked_agrees (rules : WeightRules) (list count : Nat) :
    (readListChecked rules list count).Agrees (readList rules list count) := by
  refine (agrees_lift _).bind fun _ haccepted => ?_
  have hcount : count ≤ maxWeights := by
    by_contra hmany
    rw [refuseIf, if_pos (decide_eq_true (Nat.lt_of_not_le hmany))] at haccepted
    cases haccepted
  exact .within (usePlaces_of_le hcount) ((agrees_lift _).andThen fun _ =>
    (agrees_lift _).andThen fun _ => agrees_lift _)

theorem readChecked_agrees (rules : WeightRules) : (readChecked rules).Agrees (read rules) := by
  refine (agrees_lift _).bind fun lumaDenominator hluma => ?_
  have hluma : lumaDenominator ≤ 7 := Ensures.ueMax (fun _ h => h) lumaDenominator hluma
  refine (Agrees.given fun _ => agrees_lift _).bind fun delta hdelta => ?_
  have hensures : (Parse.given rules.chroma
      (seBetween (-lumaDenominator) (7 - lumaDenominator))).Ensures fun delta =>
        -lumaDenominator ≤ delta ∧ delta ≤ 7 - lumaDenominator := by
    rw [ensures_given]
    refine ⟨fun _ => .seBetween fun _ hlow hhigh => ⟨hlow, hhigh⟩, fun _ => ?_⟩
    show -(lumaDenominator : Int) ≤ 0 ∧ (0 : Int) ≤ 7 - lumaDenominator
    omega
  obtain ⟨hlow, hhigh⟩ := hensures delta hdelta
  refine .within (shiftOne_of_lt (by omega)) (.within (natural_of_nonneg (by omega)) ?_)
  refine .within (shiftOne_of_lt (by omega)) ?_
  refine (Agrees.given fun _ => agrees_lift _).andThen fun _ => ?_
  refine (readListChecked_agrees _ _ _).andThen fun _ => ?_
  refine (Agrees.given fun _ => agrees_lift _).andThen fun _ => ?_
  exact (readListChecked_agrees _ _ _).andThen fun _ => agrees_pure _

end WeightTable

/-- Half the range of offsets for weighted prediction with a watched shift. -/
def Sps.weightHalfRangeChecked (sps : Sps) : CheckedParse Nat := do
  shiftOne (← if sps.range.extendedPrecision then sub sps.bitDepth 1 else pure 7)

theorem Sps.Limited.weightHalfRangeChecked {sps : Sps} (h : sps.Limited) :
    sps.weightHalfRangeChecked = pure sps.weightHalfRange := by
  have hdepth := h.bitDepth
  unfold Sps.weightHalfRangeChecked Sps.weightHalfRange Sps.bitDepth
  split
  · exact bind_within (sub_of_le (by omega)) (shiftOne_of_lt (by omega))
  · rfl

/-! ### Loop filters -/

namespace AlfChoice

/-- Reads the choice of loop filters with watched places for those of luma. -/
def readChecked (hasChroma hasCross : Bool) : CheckedParse AlfChoice := do
  if !(← Parse.flag) then return {}
  let count ← Parse.u 3
  usePlaces maxSets count
  let luma ← Parse.collect count fun _ => Parse.u 3
  let cb ← Parse.flagIf hasChroma
  let cr ← Parse.flagIf hasChroma
  let chroma ← CheckedParse.given (cb || cr) (Parse.u 3)
  let withCb ← Parse.flagIf hasCross
  let crossCb ← if withCb then some <$> Parse.u 3 else pure none
  let withCr ← Parse.flagIf hasCross
  let crossCr ← if withCr then some <$> Parse.u 3 else pure none
  return { enabled := true, luma, cb, cr, chroma, crossCb, crossCr }

theorem readChecked_agrees (hasChroma hasCross : Bool) :
    (readChecked hasChroma hasCross).Agrees (read hasChroma hasCross) := by
  refine (agrees_lift _).andThen fun enabled => .ite (fun _ => agrees_pure _) fun _ => ?_
  refine (agrees_lift _).bind fun count hcount => ?_
  have hcount : count < 8 := ensures_u.mpr (fun _ h => h) count hcount
  refine .within (usePlaces_of_le (Nat.le_of_lt hcount)) ?_
  refine (agrees_lift _).andThen fun luma => (agrees_lift _).andThen fun cb => ?_
  refine (agrees_lift _).andThen fun cr => (Agrees.given fun _ => agrees_lift _).andThen ?_
  refine fun chroma => (agrees_lift _).andThen fun withCb => ?_
  refine .choice (fun _ => (agrees_lift _).map some) (fun _ => agrees_pure none) fun crossCb => ?_
  refine (agrees_lift _).andThen fun withCr => ?_
  exact .choice (fun _ => (agrees_lift _).map some) (fun _ => agrees_pure none)
    fun crossCr => agrees_pure _

end AlfChoice

/-! ### Picture headers -/

namespace PictureHeader

/-- Reads the order count with a watched bound for the distance to recovery. -/
def readCountChecked (sps : Sps) (h : PictureHeader) : CheckedParse PictureHeader := do
  Parse.refuseIf (h.start.gradual && !sps.gdr) .gdrDisabled
  let lsb ← Parse.u sps.headers.lsbBits
  let recoveryCount ←
    CheckedParse.given h.start.gradual do Parse.ueMax (← shiftOne sps.headers.lsbBits)
  Parse.skip (HeaderCoding.presentCount sps.headers.extraPictureBits)
  let msbCycle ←
    match sps.headers.msbCycleLengthMinus1 with
    | none => pure none
    | some lengthMinus1 =>
      if ← Parse.flag then some <$> Parse.u (lengthMinus1 + 1) else pure none
  return { h with lsb, recoveryCount, msbCycle }

/-- Reads which adaptation parameter sets the picture uses. -/
def readChoicesChecked (pps : Pps) (h : PictureHeader) : CheckedParse PictureHeader := do
  let sps := pps.sps
  let alf ←
    CheckedParse.given (sps.filters.alf && pps.inPictureHeader.alf)
      (AlfChoice.readChecked sps.hasChroma sps.filters.ccAlf)
  let mapped ← Parse.flagIf sps.filters.lmcs
  let mapping ←
    if mapped then do
      let aps ← Parse.u 2
      let chromaScaling ← Parse.flagIf sps.hasChroma
      pure (some { aps, chromaScaling : PictureMapping })
    else pure none
  let scaled ← Parse.flagIf sps.quantisation.scalingLists
  let scalingLists ← if scaled then some <$> Parse.u 3 else pure none
  return { h with alf, mapping, scalingLists }

/-- Reads the virtual boundaries, whether the picture is output, and its reference lists. -/
def readScopeChecked (pps : Pps) (references : Parse Nat) (h : PictureHeader) :
    CheckedParse PictureHeader := do
  let sps := pps.sps
  let bounded ← Parse.flagIf (sps.virtualBoundaries && sps.boundaries.isNone)
  let boundaries ←
    if bounded then some <$> VirtualBoundaries.readChecked pps.width pps.height else pure none
  let output ← if pps.outputFlags && !h.start.nonReference then Parse.flag else pure true
  let lists ←
    CheckedParse.given pps.inPictureHeader.lists do
      RefLists.readChecked sps.listRules sps.references.candidates0 sps.references.candidates1
        pps.references.choice1Coded (← references)
  return { h with boundaries, output, lists }

/-- Reads what applies to intra slices. -/
def readIntraChecked (pps : Pps) (h : PictureHeader) : CheckedParse PictureHeader := do
  let treesOverridden ← Parse.flagIf pps.sps.treesOverridable
  if !h.start.intraSlices then return { h with treesOverridden }
  let tree := TreeLimits.readChecked pps.sps.blocks pps.sps.blocks.ctbLog2
  let intraLuma ← if treesOverridden then tree else pure h.trees.intraLuma
  let intraChroma ←
    if treesOverridden && pps.sps.dualTree then tree else pure h.trees.intraChroma
  let intraSubdivision ← readSubdivision pps intraLuma
  return {
    h with treesOverridden, intraSubdivision, trees := { h.trees with intraLuma, intraChroma } }

/-- Reads where the collocated picture is with a watched bound for its index. -/
def readCollocatedChecked (entries0 entries1 : Nat) : CheckedParse (Bool × Nat) := do
  let first ← if entries1 > 0 then Parse.flag else pure true
  let entries := if first then entries0 else entries1
  let index ← CheckedParse.given (entries > 1) do Parse.ueMax (← sub entries 1)
  return (first, index)

/-- How weights are coded in the header, with a watched range of offsets. -/
def weightRulesChecked (pps : Pps) (lists : RefLists) (inPictureHeader : Bool)
    (active : Nat × Nat) : CheckedParse WeightRules := do
  let halfRange ← pps.sps.weightHalfRangeChecked
  return { weightRules pps lists inPictureHeader active with halfRange }

/-- Reads how other pictures are used. -/
def readMotionChecked (pps : Pps) (lists : RefLists) (m : PictureMotion) :
    CheckedParse PictureMotion := do
  let inter := pps.sps.inter
  let inHeader := pps.inPictureHeader
  let temporal ← Parse.flagIf inter.temporalMotion
  let (collocatedFirst, collocatedIndex) ←
    if temporal && inHeader.lists then readCollocatedChecked lists.list0.size lists.list1.size
    else pure (true, 0)
  let fullPel ← Parse.flagIf inter.mergeDifferenceFullPel
  let bidirectional := !inHeader.lists || lists.list1.size > 0
  let zeroDifference ← if bidirectional then Parse.flag else pure m.zeroDifference
  let opticalFlowOff ←
    if bidirectional && inter.opticalFlowInHeader then Parse.flag else pure m.opticalFlowOff
  let refinementOff ←
    if bidirectional && inter.decoderRefinementInHeader then Parse.flag
    else pure m.refinementOff
  let affineRefinementOff ←
    if inter.affine.refinementInHeader then Parse.flag else pure m.affineRefinementOff
  let weights ←
    if pps.isWeighted && inHeader.weights then
      some <$> do WeightTable.readChecked (← weightRulesChecked pps lists true (0, 0))
    else pure none
  return {
    temporal, collocatedFirst, collocatedIndex, fullPel, zeroDifference, opticalFlowOff
    refinementOff, affineRefinementOff, weights }

/-- Reads what applies to inter slices. -/
def readInterChecked (pps : Pps) (h : PictureHeader) : CheckedParse PictureHeader := do
  if !h.start.interSlices then return h
  let tree := TreeLimits.readChecked pps.sps.blocks pps.sps.blocks.ctbLog2
  let inter ← if h.treesOverridden then tree else pure h.trees.inter
  let interSubdivision ← readSubdivision pps inter
  let motion ← readMotionChecked pps h.lists h.motion
  return { h with interSubdivision, motion, trees := { h.trees with inter } }

/-- Reads the difference of a QP to the one that slices start from, which is kept in a byte. -/
def readQpDeltaChecked (pps : Pps) : CheckedParse Int := do
  let lowest ← byte (pps.sps.lowestQp - pps.qp.init)
  let largest ← byte (maxQp - pps.qp.init)
  Parse.seBetween lowest largest

/-- Reads the QP and the settings of filters. -/
def readFiltersChecked (pps : Pps) (h : PictureHeader) : CheckedParse PictureHeader := do
  let sps := pps.sps
  let inHeader := pps.inPictureHeader
  let qpDelta ← CheckedParse.given inHeader.qp (readQpDeltaChecked pps)
  let jointSign ← Parse.flagIf sps.chromaQp.joint
  let saoLuma ← Parse.flagIf (sps.filters.sao && inHeader.sao)
  let saoChroma ← Parse.flagIf (sps.filters.sao && inHeader.sao && sps.hasChroma)
  let deblockingCoded ← Parse.flagIf pps.deblocking.inPictureHeader
  let deblocking ←
    if deblockingCoded then
      Deblocking.readOverride pps.deblocking.settings.disabled pps.qp.chromaOffsets
        h.deblocking.offsets
    else pure h.deblocking
  let extensionLength ← CheckedParse.given pps.pictureHeaderExtension (Parse.ueMax 256)
  Parse.skip (8 * extensionLength)
  return {
    h with qpDelta, jointSign, saoLuma, saoChroma, deblockingCoded, deblocking, extensionLength }

/-- Reads the remainder of a picture header with watched arithmetic. -/
def readRestChecked (pps : Pps) (references : Parse Nat) (start : PictureStart) :
    CheckedParse PictureHeader := do
  let h ← readCountChecked pps.sps (initial pps start)
  let h ← readChoicesChecked pps h
  let h ← readScopeChecked pps references h
  let h ← readIntraChecked pps h
  let h ← readInterChecked pps h
  readFiltersChecked pps h

variable {pps : Pps}

theorem readCountChecked_agrees {sps : Sps} (hsps : sps.Limited) (h : PictureHeader) :
    (readCountChecked sps h).Agrees (readCount sps h) := by
  unfold readCountChecked readCount
  refine (agrees_lift _).andThen fun _ => (agrees_lift _).andThen fun lsb => ?_
  have hshift : sps.headers.lsbBits < 32 := Nat.lt_of_le_of_lt hsps.lsbBits (by decide)
  refine (Agrees.given fun _ => .within (shiftOne_of_lt hshift) (agrees_lift _)).andThen ?_
  refine fun recoveryCount => (agrees_lift _).andThen fun _ => ?_
  cases sps.headers.msbCycleLengthMinus1 with
  | none => exact agrees_pure _
  | some lengthMinus1 =>
    refine (agrees_lift _).andThen fun coded => ?_
    exact .choice (fun _ => (agrees_lift _).map some) (fun _ => agrees_pure none)
      fun msbCycle => agrees_pure _

theorem readChoicesChecked_agrees (pps : Pps) (h : PictureHeader) :
    (readChoicesChecked pps h).Agrees (readChoices pps h) := by
  refine (Agrees.given fun _ => AlfChoice.readChecked_agrees _ _).andThen fun alf => ?_
  refine (agrees_lift _).andThen fun mapped => ?_
  extract_lets withMapping withMapping'
  have hwithMapping : ∀ mapping, (withMapping mapping).Agrees (withMapping' mapping) := by
    refine fun mapping => (agrees_lift _).andThen fun scaled => ?_
    exact .choice (fun _ => (agrees_lift _).map some) (fun _ => agrees_pure none)
      fun scalingLists => agrees_pure _
  refine .ite (fun _ => ?_) fun _ => hwithMapping none
  exact (agrees_lift _).andThen fun aps => (agrees_lift _).andThen fun _ => hwithMapping _

theorem readScopeChecked_agrees (hsps : pps.sps.Limited) (references : Parse Nat)
    (h : PictureHeader) :
    (readScopeChecked pps references h).Agrees (readScope pps references h) := by
  refine (agrees_lift _).andThen fun bounded => ?_
  refine .choice (fun _ => (VirtualBoundaries.readChecked_agrees _ _).map some)
    (fun _ => agrees_pure none) fun boundaries => ?_
  refine .choice (fun _ => agrees_lift _) (fun _ => agrees_pure true) fun output => ?_
  refine (Agrees.given fun _ => ?_).andThen fun lists => agrees_pure _
  exact (agrees_lift _).andThen fun _ => RefLists.readChecked_agrees hsps _ _

theorem readIntraChecked_agrees (hsps : pps.sps.Limited) (h : PictureHeader) :
    (readIntraChecked pps h).Agrees (readIntra pps h) := by
  have htree : (TreeLimits.readChecked pps.sps.blocks pps.sps.blocks.ctbLog2).Agrees
      (TreeLimits.read pps.sps.blocks pps.sps.blocks.ctbLog2) :=
    TreeLimits.readChecked_agrees hsps.blocks (Nat.min_le_left _ _)
  refine (agrees_lift _).andThen fun treesOverridden => ?_
  refine .ite (fun _ => agrees_pure _) fun _ => ?_
  refine .choice (fun _ => htree) (fun _ => agrees_pure _) fun intraLuma => ?_
  refine .choice (fun _ => htree) (fun _ => agrees_pure _) fun intraChroma => ?_
  exact (agrees_lift _).andThen fun _ => agrees_pure _

theorem readCollocatedChecked_agrees (entries0 entries1 : Nat) :
    (readCollocatedChecked entries0 entries1).Agrees (readCollocated entries0 entries1) := by
  refine .choice (fun _ => agrees_lift _) (fun _ => agrees_pure true) fun first => ?_
  refine (Agrees.given fun hseveral => ?_).andThen fun index => agrees_pure _
  exact .within (sub_of_le (Nat.le_of_lt (of_decide_eq_true hseveral))) (agrees_lift _)

theorem weightsChecked_agrees (hsps : pps.sps.Limited) (lists : RefLists)
    (inPictureHeader : Bool) (active : Nat × Nat) :
    (weightRulesChecked pps lists inPictureHeader active >>= WeightTable.readChecked).Agrees
      (WeightTable.read (weightRules pps lists inPictureHeader active)) :=
  .within (bind_within hsps.weightHalfRangeChecked rfl) (WeightTable.readChecked_agrees _)

theorem readMotionChecked_agrees (hsps : pps.sps.Limited) (lists : RefLists)
    (m : PictureMotion) : (readMotionChecked pps lists m).Agrees (readMotion pps lists m) := by
  refine (agrees_lift _).andThen fun temporal => ?_
  refine .choice (fun _ => readCollocatedChecked_agrees _ _) (fun _ => agrees_pure _) ?_
  rintro ⟨collocatedFirst, collocatedIndex⟩
  refine (agrees_lift _).andThen fun fullPel => ?_
  refine .choice (fun _ => agrees_lift _) (fun _ => agrees_pure _) fun zeroDifference => ?_
  refine .choice (fun _ => agrees_lift _) (fun _ => agrees_pure _) fun opticalFlowOff => ?_
  refine .choice (fun _ => agrees_lift _) (fun _ => agrees_pure _) fun refinementOff => ?_
  refine .choice (fun _ => agrees_lift _) (fun _ => agrees_pure _) fun affineRefinementOff => ?_
  exact .choice (fun _ => (weightsChecked_agrees hsps _ _ _).map some)
    (fun _ => agrees_pure none) fun weights => agrees_pure _

theorem readInterChecked_agrees (hsps : pps.sps.Limited) (h : PictureHeader) :
    (readInterChecked pps h).Agrees (readInter pps h) := by
  refine .ite (fun _ => agrees_pure _) fun _ => ?_
  refine .choice (fun _ => TreeLimits.readChecked_agrees hsps.blocks (Nat.min_le_left _ _))
    (fun _ => agrees_pure _) fun inter => ?_
  refine (agrees_lift _).andThen fun _ => ?_
  exact (readMotionChecked_agrees hsps _ _).andThen fun _ => agrees_pure _

/-- No QP is further from the one that slices start from than a byte can tell. -/
theorem readQpDeltaChecked_agrees (hsps : pps.sps.Limited) (hinit : pps.StartsInRange) :
    (readQpDeltaChecked pps).Agrees (readQpDelta pps) := by
  obtain ⟨hlow, hhigh⟩ := hinit
  have hdepth : -48 ≤ pps.sps.lowestQp ∧ pps.sps.lowestQp ≤ 0 := by
    have hdepth := hsps.bitDepth
    unfold Sps.lowestQp Sps.qpOffset
    omega
  unfold maxQp at hhigh
  have hlowest : -128 ≤ pps.sps.lowestQp - pps.qp.init ∧ pps.sps.lowestQp - pps.qp.init ≤ 127 := by
    omega
  have hlargest : -128 ≤ maxQp - pps.qp.init ∧ maxQp - pps.qp.init ≤ 127 := by
    unfold maxQp
    omega
  exact .within (byte_of_fits hlowest) (.within (byte_of_fits hlargest) (agrees_lift _))

theorem readFiltersChecked_agrees (hsps : pps.sps.Limited) (hinit : pps.StartsInRange)
    (h : PictureHeader) : (readFiltersChecked pps h).Agrees (readFilters pps h) := by
  refine (Agrees.given fun _ => readQpDeltaChecked_agrees hsps hinit).andThen fun qpDelta => ?_
  refine (agrees_lift _).andThen fun _ => (agrees_lift _).andThen fun _ => ?_
  refine (agrees_lift _).andThen fun _ => (agrees_lift _).andThen fun deblockingCoded => ?_
  refine .choice (fun _ => agrees_lift _) (fun _ => agrees_pure _) fun deblocking => ?_
  refine (Agrees.given fun _ => agrees_lift _).andThen fun _ => ?_
  exact (agrees_lift _).andThen fun _ => agrees_pure _

/-- **No operation leaves its range while a picture header is read.** -/
theorem readRestChecked_agrees (hsps : pps.sps.Limited) (hinit : pps.StartsInRange)
    (references : Parse Nat) (start : PictureStart) :
    (readRestChecked pps references start).Agrees (readRest pps references start) := by
  refine (readCountChecked_agrees hsps _).andThen fun h => ?_
  refine (readChoicesChecked_agrees pps h).andThen fun h => ?_
  refine (readScopeChecked_agrees hsps references h).andThen fun h => ?_
  refine (readIntraChecked_agrees hsps h).andThen fun h => ?_
  exact (readInterChecked_agrees hsps h).andThen fun h => readFiltersChecked_agrees hsps hinit h

end PictureHeader

end CodedVideo
