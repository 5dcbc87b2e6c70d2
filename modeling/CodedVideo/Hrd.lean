import CodedVideo.Profile

/-!
# The hypothetical reference decoder

Timing and buffer parameters: what holds for all output layer sets, and for
each sublayer the picture rate and the rates and sizes of its coded picture
buffers.
-/

namespace CodedVideo

open Report (field slots)

/-- The parameters that all output layer sets share. -/
structure GeneralHrd where
  unitsInTick : Nat := 0
  timeScale : Nat := 0
  nalPresent : Bool := false
  vclPresent : Bool := false
  samePictureTiming : Bool := false
  decodingUnits : Bool := false
  tickDivisorMinus2 : Nat := 0
  bitRateScale : Nat := 0
  cpbSizeScale : Nat := 0
  cpbSizeDuScale : Nat := 0
  cpbCountMinus1 : Nat := 0
  deriving DecidableEq, Repr, Inhabited

namespace GeneralHrd

/-- Whether buffers are described. -/
def hasBuffers (h : GeneralHrd) : Bool := h.nalPresent || h.vclPresent

/-- Reads general_timing_hrd_parameters(). -/
def read : Parse GeneralHrd := do
  let unitsInTick ← Parse.u 32
  let timeScale ← Parse.u 32
  let nalPresent ← Parse.flag
  let vclPresent ← Parse.flag
  Parse.refuseIf (unitsInTick == 0 || timeScale == 0) (.invalidTiming unitsInTick timeScale)
  let buffers := nalPresent || vclPresent
  let samePictureTiming ← Parse.flagIf buffers
  let decodingUnits ← Parse.flagIf buffers
  let tickDivisorMinus2 ← Parse.given decodingUnits (Parse.u 8)
  let bitRateScale ← Parse.given buffers (Parse.u 4)
  let cpbSizeScale ← Parse.given buffers (Parse.u 4)
  let cpbSizeDuScale ← Parse.given decodingUnits (Parse.u 4)
  let cpbCountMinus1 ← Parse.given buffers (Parse.ueMax 31)
  return {
    unitsInTick, timeScale, nalPresent, vclPresent, samePictureTiming, decodingUnits
    tickDivisorMinus2, bitRateScale, cpbSizeScale, cpbSizeDuScale, cpbCountMinus1 }

instance : Reportable GeneralHrd where
  report h := .group [
    field "num_units_in_tick" h.unitsInTick,
    field "time_scale" h.timeScale,
    field "general_nal_hrd_params_present_flag" h.nalPresent,
    field "general_vcl_hrd_params_present_flag" h.vclPresent,
    field "general_same_pic_timing_in_all_ols_flag" h.samePictureTiming,
    field "general_du_hrd_params_present_flag" h.decodingUnits,
    field "tick_divisor_minus2" h.tickDivisorMinus2,
    field "bit_rate_scale" h.bitRateScale,
    field "cpb_size_scale" h.cpbSizeScale,
    field "cpb_size_du_scale" h.cpbSizeDuScale,
    field "hrd_cpb_cnt_minus1" h.cpbCountMinus1]

end GeneralHrd

/-- A coded picture buffer of a sublayer. -/
structure CodedBuffer where
  bitRateMinus1 : Nat
  sizeMinus1 : Nat
  /-- Size and bit rate for decoding units. -/
  ofUnits : Option (Nat × Nat)
  constantRate : Bool
  deriving DecidableEq, Repr

namespace CodedBuffer

/-- Reads the parameters of one buffer. -/
def read (general : GeneralHrd) : Parse CodedBuffer := do
  let value := Parse.ueMax (pow2 32 - 2)
  let bitRateMinus1 ← value
  let sizeMinus1 ← value
  let ofUnits ←
    if general.decodingUnits then do
      let size ← value
      let rate ← value
      pure (some (size, rate))
    else pure none
  let constantRate ← Parse.flag
  return { bitRateMinus1, sizeMinus1, ofUnits, constantRate }

/-- Reads sublayer_hrd_parameters(), the parameters of all buffers. -/
def readAll (general : GeneralHrd) : Parse (List CodedBuffer) :=
  Parse.collect (general.cpbCountMinus1 + 1) fun _ => read general

/-- The report of the buffers of a sublayer. -/
def reportAll (buffers : List CodedBuffer) : Report :=
  .group [
    field "bit_rate_value_minus1" (buffers.map (·.bitRateMinus1)),
    field "cpb_size_value_minus1" (buffers.map (·.sizeMinus1)),
    field "cpb_size_du_value_minus1" (buffers.filterMap fun b => b.ofUnits.map (·.1)),
    field "bit_rate_du_value_minus1" (buffers.filterMap fun b => b.ofUnits.map (·.2)),
    field "cbr_flag" (buffers.map (·.constantRate))]

end CodedBuffer

/-- The timing of a sublayer. -/
structure SublayerTiming where
  fixedRate : Bool := false
  fixedRateInSequence : Bool := false
  elementalDurationMinus1 : Nat := 0
  lowDelay : Bool := false
  nalBuffers : List CodedBuffer := []
  vclBuffers : List CodedBuffer := []
  deriving DecidableEq, Repr

namespace SublayerTiming

instance : Inhabited SublayerTiming := ⟨{}⟩

/-- Reads the timing of one sublayer. -/
def read (general : GeneralHrd) : Parse SublayerTiming := do
  let fixedRate ← Parse.flag
  let fixedRateInSequence ← if fixedRate then pure true else Parse.flag
  let elementalDurationMinus1 ← Parse.given fixedRateInSequence (Parse.ueMax 2047)
  let lowDelay ←
    Parse.flagIf (!fixedRateInSequence && general.hasBuffers && general.cpbCountMinus1 == 0)
  let nalBuffers ← Parse.given general.nalPresent (CodedBuffer.readAll general)
  let vclBuffers ← Parse.given general.vclPresent (CodedBuffer.readAll general)
  return {
    fixedRate, fixedRateInSequence, elementalDurationMinus1, lowDelay, nalBuffers, vclBuffers }

end SublayerTiming

/-- The timing of the sublayers of an output layer set. -/
structure OlsTiming where
  /-- One timing for each sublayer from 0 on; those that are not coded are blank. -/
  sublayers : List SublayerTiming := []
  deriving DecidableEq, Repr, Inhabited

namespace OlsTiming

/-- Reads ols_timing_hrd_parameters() for the sublayers `first` to `last`. -/
def read (general : GeneralHrd) (first last : Nat) : Parse OlsTiming := do
  let coded ← Parse.collect (last + 1 - first) fun _ => SublayerTiming.read general
  return ⟨List.replicate first default ++ coded⟩

instance : Reportable OlsTiming where
  report t :=
    let buffers (f : SublayerTiming → List CodedBuffer) : List Report :=
      (t.sublayers ++ List.replicate (maxSublayers - t.sublayers.length) default).map
        fun s => CodedBuffer.reportAll (f s)
    .group [
      slots "fixed_pic_rate_general_flag" maxSublayers (t.sublayers.map (·.fixedRate)),
      slots "fixed_pic_rate_within_cvs_flag" maxSublayers
        (t.sublayers.map (·.fixedRateInSequence)),
      slots "elemental_duration_in_tc_minus1" maxSublayers
        (t.sublayers.map (·.elementalDurationMinus1)),
      slots "low_delay_hrd_flag" maxSublayers (t.sublayers.map (·.lowDelay)),
      ("nal_sublayer_hrd_parameters", .table (buffers (·.nalBuffers))),
      ("vcl_sublayer_hrd_parameters", .table (buffers (·.vclBuffers)))]

end OlsTiming

end CodedVideo
