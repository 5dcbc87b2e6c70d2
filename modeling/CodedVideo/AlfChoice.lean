import CodedVideo.Parse
import CodedVideo.Report

/-!
# The choice of loop filters

Which adaptation parameter sets the adaptive loop filters of a picture or slice
are taken from: several for luma, one for chroma, and one for each kind of
chroma across components.
-/

namespace CodedVideo

open Report (field slots)

/-- The adaptation parameter sets that loop filters are taken from. -/
structure AlfChoice where
  enabled : Bool := false
  luma : List Nat := []
  cb : Bool := false
  cr : Bool := false
  chroma : Nat := 0
  crossCb : Option Nat := none
  crossCr : Option Nat := none
  deriving DecidableEq, Repr

namespace AlfChoice

instance : Inhabited AlfChoice := ⟨{}⟩

/-- The largest number of adaptation parameter sets. -/
def maxSets : Nat := 8

/-- Reads the choice for a sequence with or without chroma, and with or without
filters across components. -/
def read (hasChroma hasCross : Bool) : Parse AlfChoice := do
  if !(← Parse.flag) then return {}
  let count ← Parse.u 3
  let luma ← Parse.collect count fun _ => Parse.u 3
  let cb ← Parse.flagIf hasChroma
  let cr ← Parse.flagIf hasChroma
  let chroma ← Parse.given (cb || cr) (Parse.u 3)
  let withCb ← Parse.flagIf hasCross
  let crossCb ← if withCb then some <$> Parse.u 3 else pure none
  let withCr ← Parse.flagIf hasCross
  let crossCr ← if withCr then some <$> Parse.u 3 else pure none
  return { enabled := true, luma, cb, cr, chroma, crossCb, crossCr }

instance : Reportable AlfChoice where
  report a := .group [
    field "alf_enabled_flag" a.enabled,
    field "num_alf_aps_ids_luma" a.luma.length,
    slots "alf_aps_id_luma" maxSets a.luma,
    field "alf_cb_enabled_flag" a.cb,
    field "alf_cr_enabled_flag" a.cr,
    field "alf_aps_id_chroma" a.chroma,
    field "alf_cc_cb_enabled_flag" a.crossCb.isSome,
    field "alf_cc_cb_aps_id" a.crossCb,
    field "alf_cc_cr_enabled_flag" a.crossCr.isSome,
    field "alf_cc_cr_aps_id" a.crossCr]

end AlfChoice

end CodedVideo
