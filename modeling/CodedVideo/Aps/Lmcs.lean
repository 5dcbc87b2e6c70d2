import CodedVideo.Parse
import CodedVideo.Report

/-!
# Luma mapping with chroma scaling

A piecewise linear mapping of luma values.  The range of values is divided into
bins of equal size, and for each bin in use a difference says how many values it
is mapped to.
-/

namespace CodedVideo

open Report (field slots)

/-- A mapping of luma values. -/
structure LumaMapping where
  /-- The first bin in use. -/
  minBin : Nat := 0
  /-- How many bins after the last one in use are not. -/
  deltaMaxBin : Nat := 0
  precisionMinus1 : Nat := 0
  /-- The differences of the bins in use. -/
  differences : List Int := []
  /-- A difference for chroma. -/
  chromaDifference : Int := 0
  deriving DecidableEq, Repr

namespace LumaMapping

/-- The number of bins. -/
def bins : Nat := 16

/-- The last bin in use. -/
def maxBin (m : LumaMapping) : Nat := bins - 1 - m.deltaMaxBin

/-- Reads a difference of at most `bits` bits, whose sign follows unless it is zero. -/
def readDifference (bits : Nat) : Parse Int := do
  let magnitude ← Parse.u bits
  let negative ← Parse.flagIf (magnitude > 0)
  return if negative then -(magnitude : Int) else magnitude

/-- Reads lmcs_data(). -/
def read (chroma : Bool) : Parse LumaMapping := do
  let minBin ← Parse.ueMax (bins - 1)
  let deltaMaxBin ← Parse.ueMax (bins - 1)
  let maxBin := bins - 1 - deltaMaxBin
  Parse.refuseIf (maxBin < minBin) (.emptyLmcsRange maxBin minBin)
  let precisionMinus1 ← Parse.ueMax 14
  let differences ←
    Parse.collect (maxBin + 1 - minBin) fun _ => readDifference (precisionMinus1 + 1)
  let chromaDifference ← Parse.given chroma (readDifference 3)
  return { minBin, deltaMaxBin, precisionMinus1, differences, chromaDifference }

instance : Reportable LumaMapping where
  report m := .group [
    field "lmcs_min_bin_idx" m.minBin,
    field "lmcs_delta_max_bin_idx" m.deltaMaxBin,
    field "max_bin_idx" m.maxBin,
    field "lmcs_delta_cw_prec_minus1" m.precisionMinus1,
    slots "lmcs_delta_cw" bins (List.replicate m.minBin 0 ++ m.differences),
    field "lmcs_delta_crs" m.chromaDifference]

end LumaMapping

end CodedVideo
