import CodedVideo.Parse
import CodedVideo.Report

/-!
# Deblocking

Whether block edges are filtered and how strongly, for each colour component.
A picture parameter set gives settings that picture and slice headers can
replace.
-/

namespace CodedVideo

open Report (field)

/-- How strongly the edges of each component are filtered. -/
structure DeblockingOffsets where
  lumaBeta : Int := 0
  lumaTc : Int := 0
  cbBeta : Int := 0
  cbTc : Int := 0
  crBeta : Int := 0
  crTc : Int := 0
  deriving DecidableEq, Repr

namespace DeblockingOffsets

instance : Inhabited DeblockingOffsets := ⟨{}⟩

/-- Reads one offset. -/
def readOffset : Parse Int := Parse.seBetween (-12) 12

/-- Reads offsets.  Without offsets of its own, chroma shares those of luma. -/
def read (ofChroma : Bool) : Parse DeblockingOffsets := do
  let lumaBeta ← readOffset
  let lumaTc ← readOffset
  let cbBeta ← if ofChroma then readOffset else pure lumaBeta
  let cbTc ← if ofChroma then readOffset else pure lumaTc
  let crBeta ← if ofChroma then readOffset else pure lumaBeta
  let crTc ← if ofChroma then readOffset else pure lumaTc
  return { lumaBeta, lumaTc, cbBeta, cbTc, crBeta, crTc }

/-- The report of offsets; `lead` starts the labels. -/
def members (lead : String) (o : DeblockingOffsets) : List (String × Report) := [
  field (lead ++ "luma_beta_offset_div2") o.lumaBeta,
  field (lead ++ "luma_tc_offset_div2") o.lumaTc,
  field (lead ++ "cb_beta_offset_div2") o.cbBeta,
  field (lead ++ "cb_tc_offset_div2") o.cbTc,
  field (lead ++ "cr_beta_offset_div2") o.crBeta,
  field (lead ++ "cr_tc_offset_div2") o.crTc]

end DeblockingOffsets

/-- Whether and how strongly edges are filtered. -/
structure Deblocking where
  disabled : Bool := false
  offsets : DeblockingOffsets := {}
  deriving DecidableEq, Repr

namespace Deblocking

instance : Inhabited Deblocking := ⟨{}⟩

/-- Reads settings that replace inherited ones.  A filter that is off for the whole
picture parameter set is turned on; any other says whether it is on.  Offsets are
inherited as long as the filter stays off. -/
def readOverride (offByDefault ofChroma : Bool) (inherited : DeblockingOffsets) :
    Parse Deblocking := do
  let disabled ← Parse.flagIf (!offByDefault)
  let offsets ← if disabled then pure inherited else DeblockingOffsets.read ofChroma
  return { disabled, offsets }

instance : Reportable Deblocking where
  report d := .group
    (field "deblocking_filter_disabled_flag" d.disabled :: d.offsets.members "")

end Deblocking

end CodedVideo
