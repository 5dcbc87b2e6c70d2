import CodedVideo.Parse
import CodedVideo.Report

/-!
# Weighted prediction

A weight table gives, for entries of the two reference lists, a factor and an
offset for luma and for each kind of chroma.  Factors are coded as differences
to one, which is a power of two; chroma offsets as differences to the offset
that keeps the middle value where it is.  An entry without weights has the
factor one and no offset.

Factors and offsets are computed in words of 32 bits or less and kept in words of
16 bits.
-/

namespace CodedVideo

open Report (field)

/-- The coded weight of a component: the difference of the factor to one and the
offset, which for chroma is a difference too. -/
structure CodedWeight where
  factorDelta : Int
  offset : Int
  deriving DecidableEq, Repr

/-- The weights of an entry of a reference list. -/
structure EntryWeights where
  luma : Option CodedWeight := none
  /-- The weights of both kinds of chroma. -/
  chroma : Option (CodedWeight × CodedWeight) := none
  deriving DecidableEq, Repr, Inhabited

/-- The weights of the entries of two reference lists. -/
structure WeightTable where
  /-- The power of two that is the factor one for luma. -/
  lumaDenominator : Nat
  chromaDenominatorDelta : Int
  /-- The coded number of weights of each list, where it is coded. -/
  codedCount0 : Nat
  codedCount1 : Nat
  list0 : List EntryWeights
  list1 : List EntryWeights
  /-- Half the range of offsets. -/
  halfRange : Nat
  deriving DecidableEq, Repr

/-- What the coding of a weight table depends on. -/
structure WeightRules where
  chroma : Bool
  /-- Half the range of offsets. -/
  halfRange : Nat
  /-- Whether the table stands in a picture header. -/
  inPictureHeader : Bool
  /-- Whether entries of both lists can be weighted together. -/
  weightedBi : Bool
  /-- The number of entries of each list. -/
  entries : Nat × Nat
  /-- The number of active entries of each list. -/
  active : Nat × Nat
  deriving DecidableEq, Repr

namespace WeightTable

/-- The largest number of weights of a list. -/
def maxWeights : Nat := 15

/-- The power of two that is the factor one for chroma. -/
def chromaDenominator (t : WeightTable) : Int := t.lumaDenominator + t.chromaDenominatorDelta

/-- The factor of a luma weight. -/
def lumaFactor (t : WeightTable) (weight : Option CodedWeight) : Int16 :=
  (1 <<< Int16.ofNat t.lumaDenominator) + Int16.ofInt ((weight.map (·.factorDelta)).getD 0)

/-- The factor of a chroma weight as it is computed, before it is narrowed. -/
def wideFactor (t : WeightTable) (weight : CodedWeight) : Int32 :=
  (1 <<< Int32.ofInt t.chromaDenominator) + Int32.ofInt weight.factorDelta

/-- The factor of a chroma weight. -/
def chromaFactor (t : WeightTable) : Option CodedWeight → Int16
  | some weight => (t.wideFactor weight).toInt16
  | none => 1 <<< Int16.ofInt t.chromaDenominator

/-- A value between two limits. -/
def clip (lo hi value : Int32) : Int32 :=
  if value < lo then lo else if hi < value then hi else value

/-- The offset of a chroma weight. -/
def chromaOffset (t : WeightTable) (weight : CodedWeight) : Int16 :=
  let half := Int32.ofNat t.halfRange
  let middle := (half * t.wideFactor weight) >>> Int32.ofInt t.chromaDenominator
  (clip (-half) (half - 1) (half + Int32.ofInt weight.offset - middle)).toInt16

/-! ### Reading -/

/-- Reads the weight of luma. -/
def readLuma (half : Int) : Parse CodedWeight := do
  let factorDelta ← Parse.seBetween (-128) 127
  let offset ← Parse.seBetween (-half) (half - 1)
  return { factorDelta, offset }

/-- Reads the weight of one kind of chroma. -/
def readChroma (half : Int) : Parse CodedWeight := do
  let factorDelta ← Parse.seBetween (-128) 127
  let offset ← Parse.seBetween (-4 * half) (4 * half - 1)
  return { factorDelta, offset }

/-- Reads the weights of an entry, given which of them are present. -/
def readEntry (half : Int) (luma chroma : Bool) : Parse EntryWeights := do
  let luma ← if luma then some <$> readLuma half else pure none
  let chroma ←
    if chroma then do
      let cb ← readChroma half
      let cr ← readChroma half
      pure (some (cb, cr))
    else pure none
  return { luma, chroma }

/-- Reads the weights of entries, given which of them are present. -/
def readEntries (half : Int) : List Bool → List Bool → Parse (List EntryWeights)
  | luma :: lumas, chroma :: chromas => do
    let entry ← readEntry half luma chroma
    let rest ← readEntries half lumas chromas
    return entry :: rest
  | _, _ => return []

/-- Reads `count` weights of the list with number `list`. -/
def readList (rules : WeightRules) (list count : Nat) : Parse (List EntryWeights) := do
  Parse.refuseIf (count > maxWeights) (.tooManyWeights count list)
  let lumas ← Parse.collect count fun _ => Parse.flag
  let chromas ← Parse.collect count fun _ => Parse.flagIf rules.chroma
  readEntries rules.halfRange lumas chromas

/-- Reads pred_weight_table().  A picture header says how many weights there are; in a
slice header the active entries have weights. -/
def read (rules : WeightRules) : Parse WeightTable := do
  let lumaDenominator ← Parse.ueMax 7
  let chromaDenominatorDelta ←
    Parse.given rules.chroma (Parse.seBetween (-lumaDenominator) (7 - lumaDenominator))
  let inHeader := rules.inPictureHeader
  let codedCount0 ← Parse.given inHeader (Parse.ueMax (min maxWeights rules.entries.1))
  let list0 ← readList rules 0 (if inHeader then codedCount0 else rules.active.1)
  let codedCount1 ←
    Parse.given (rules.weightedBi && inHeader && rules.entries.2 > 0)
      (Parse.ueMax (min maxWeights rules.entries.2))
  let count1 :=
    if !rules.weightedBi then 0 else if inHeader then codedCount1 else rules.active.2
  let list1 ← readList rules 1 count1
  return {
    lumaDenominator, chromaDenominatorDelta, codedCount0, codedCount1, list0, list1
    halfRange := rules.halfRange }

/-! ### Report -/

/-- A part of the weights of all entries of both lists. -/
def grid (t : WeightTable) (label : String) (f : Option EntryWeights → Report) :
    String × Report :=
  let row (list : List EntryWeights) : Report :=
    .table ((List.range maxWeights).map fun i => f list[i]?)
  (label, .table [row t.list0, row t.list1])

/-- A part of the luma weight of an entry. -/
def ofLuma {α : Type} [Reportable α] (f : Option CodedWeight → α) (e : Option EntryWeights) :
    Report :=
  report (f (e.bind (·.luma)))

/-- A part of the chroma weights of an entry. -/
def ofChroma (f : Option CodedWeight → Int) (e : Option EntryWeights) : Report :=
  let chroma := e.bind (·.chroma)
  .table [report (f (chroma.map (·.1))), report (f (chroma.map (·.2)))]

instance : Reportable WeightTable where
  report t := .group [
    field "luma_log2_weight_denom" t.lumaDenominator,
    field "delta_chroma_log2_weight_denom" t.chromaDenominatorDelta,
    field "chroma_log2_weight_denom" t.chromaDenominator,
    field "num_l0_weights" t.codedCount0,
    field "num_l1_weights" t.codedCount1,
    t.grid "luma_weight_flag" (ofLuma Option.isSome),
    t.grid "chroma_weight_flag" fun e => report (e.bind (·.chroma)).isSome,
    t.grid "delta_luma_weight" (ofLuma fun w => (w.map (·.factorDelta)).getD 0),
    t.grid "luma_offset" (ofLuma fun w => (w.map (·.offset)).getD 0),
    t.grid "delta_chroma_weight" (ofChroma fun w => (w.map (·.factorDelta)).getD 0),
    t.grid "delta_chroma_offset" (ofChroma fun w => (w.map (·.offset)).getD 0),
    t.grid "luma_weight" (ofLuma fun w => (t.lumaFactor w).toInt),
    t.grid "chroma_weight" (ofChroma fun w => (t.chromaFactor w).toInt),
    t.grid "chroma_offset" (ofChroma fun w => ((w.map t.chromaOffset).getD 0).toInt)]

end WeightTable

end CodedVideo
