import CodedVideo.Bits.Width
import CodedVideo.Parse
import CodedVideo.Report

/-!
# Adaptive loop filters

Coefficients for the adaptive loop filter of luma, of chroma, and across
components from luma to each kind of chroma.  Luma samples are divided into
classes, and each class chooses one of the filters.
-/

namespace CodedVideo

open Report (field slots)

/-- A filter and how its inputs are clipped. -/
structure LoopFilter where
  coefficients : List Int
  /-- A clipping level for each coefficient, if inputs are clipped. -/
  clipping : List Nat := []
  deriving DecidableEq, Repr

/-- Filters of one component. -/
structure LoopFilters where
  clipped : Bool := false
  filters : List LoopFilter := []
  deriving DecidableEq, Repr, Inhabited

/-- The filters of an adaptation parameter set. -/
structure AlfFilters where
  luma : Option LoopFilters := none
  /-- The filter of each class of luma samples, if there are several filters. -/
  lumaClasses : List Nat := []
  chroma : Option LoopFilters := none
  crossCb : Option (List (List Int)) := none
  crossCr : Option (List (List Int)) := none
  deriving DecidableEq, Repr

namespace AlfFilters

/-- The number of classes of luma samples, and the largest number of filters. -/
def classes : Nat := 25

/-- The number of coefficients of a filter for luma. -/
def lumaSize : Nat := 12

/-- The number of coefficients of a filter for chroma. -/
def chromaSize : Nat := 6

/-- The number of coefficients of a filter across components. -/
def crossSize : Nat := 7

/-- Reads the sign of a magnitude, which only those above zero have. -/
def readSign (magnitude : Nat) : Parse Int := do
  let negative ← Parse.flagIf (magnitude > 0)
  return if negative then -(magnitude : Int) else magnitude

/-- Reads a coefficient. -/
def readCoefficient : Parse Int := do readSign (← Parse.ueMax 128)

/-- Reads the coefficient of a filter across components, zero or a power of two. -/
def readCross : Parse Int := do
  let coded ← Parse.u 3
  readSign (if coded = 0 then 0 else pow2 (coded - 1))

/-- Reads the clipping levels of a filter. -/
def readClipping (clipped : Bool) (size : Nat) : Parse (List Nat) :=
  Parse.given clipped (Parse.collect size fun _ => Parse.u 2)

/-- Reads the filters for luma with the classes that use them.  All coefficients come
before all clipping levels. -/
def readLuma : Parse (LoopFilters × List Nat) := do
  let clipped ← Parse.flag
  let count := (← Parse.ueMax (classes - 1)) + 1
  let indices ←
    Parse.given (count > 1)
      (Parse.collect classes fun _ => Parse.uMax (ceilLog2 count) (count - 1))
  let coefficients ← Parse.collect count fun _ => Parse.collect lumaSize fun _ => readCoefficient
  let clipping ← Parse.collect count fun _ => readClipping clipped lumaSize
  let filters := List.zipWith LoopFilter.mk coefficients clipping
  return ({ clipped, filters }, indices)

/-- Reads the filters for chroma. -/
def readChroma : Parse LoopFilters := do
  let clipped ← Parse.flag
  let countMinus1 ← Parse.ueMax 7
  let filters ← Parse.collect (countMinus1 + 1) fun _ => do
    let coefficients ← Parse.collect chromaSize fun _ => readCoefficient
    let clipping ← readClipping clipped chromaSize
    return { coefficients, clipping : LoopFilter }
  return { clipped, filters }

/-- Reads the filters across components. -/
def readCrossFilters : Parse (List (List Int)) := do
  let countMinus1 ← Parse.ueMax 3
  Parse.collect (countMinus1 + 1) fun _ => Parse.collect crossSize fun _ => readCross

/-- Reads alf_data(). -/
def read (chroma : Bool) : Parse AlfFilters := do
  let hasLuma ← Parse.flag
  let hasChroma ← Parse.flagIf chroma
  let hasCb ← Parse.flagIf chroma
  let hasCr ← Parse.flagIf chroma
  Parse.refuseIf (!hasLuma && !hasChroma && !hasCb && !hasCr) .noAlfFilter
  let luma ← if hasLuma then some <$> readLuma else pure none
  let chroma ← if hasChroma then some <$> readChroma else pure none
  let crossCb ← if hasCb then some <$> readCrossFilters else pure none
  let crossCr ← if hasCr then some <$> readCrossFilters else pure none
  return {
    luma := luma.map (·.1), lumaClasses := (luma.map (·.2)).getD [], chroma, crossCb, crossCr }

/-- The coefficients of filters. -/
def coefficientRows (f : Option LoopFilters) : List Report :=
  ((f.map (·.filters)).getD []).map fun filter => .table (filter.coefficients.map report)

/-- The clipping levels of filters. -/
def clippingRows (f : Option LoopFilters) : List Report :=
  ((f.map (·.filters)).getD []).map fun filter => .table (filter.clipping.map report)

/-- The coefficients of filters across components. -/
def crossRows (f : Option (List (List Int))) : List Report :=
  (f.getD []).map fun coefficients => .table (coefficients.map report)

/-- One less than the number of filters. -/
def countMinus1 (f : Option LoopFilters) : Nat := ((f.map (·.filters)).getD []).length - 1

instance : Reportable AlfFilters where
  report a := .group [
    field "alf_luma_filter_signal_flag" a.luma.isSome,
    field "alf_chroma_filter_signal_flag" a.chroma.isSome,
    field "alf_cc_cb_filter_signal_flag" a.crossCb.isSome,
    field "alf_cc_cr_filter_signal_flag" a.crossCr.isSome,
    field "alf_luma_clip_flag" (a.luma.map (·.clipped)),
    field "alf_luma_num_filters_signalled_minus1" (countMinus1 a.luma),
    slots "alf_luma_coeff_delta_idx" classes a.lumaClasses,
    field "alf_luma_coeff" (coefficientRows a.luma),
    field "alf_luma_clip_idx" (clippingRows a.luma),
    field "alf_chroma_clip_flag" (a.chroma.map (·.clipped)),
    field "alf_chroma_num_alt_filters_minus1" (countMinus1 a.chroma),
    field "alf_chroma_coeff" (coefficientRows a.chroma),
    field "alf_chroma_clip_idx" (clippingRows a.chroma),
    field "alf_cc_cb_filters_signalled_minus1" ((a.crossCb.getD []).length - 1),
    field "alf_cc_cb_coeff" (crossRows a.crossCb),
    field "alf_cc_cr_filters_signalled_minus1" ((a.crossCr.getD []).length - 1),
    field "alf_cc_cr_coeff" (crossRows a.crossCr)]

end AlfFilters

end CodedVideo
