import CodedVideo.Parse
import CodedVideo.Report

/-!
# Video usability information

How a decoded picture is meant to be shown: the shape of its samples, its
colours, and where its chroma samples lie.
-/

namespace CodedVideo

open Report (field)

/-- The shape of a sample. -/
structure AspectRatio where
  constant : Bool := false
  idc : Nat := 0
  width : Nat := 0
  height : Nat := 0
  deriving DecidableEq, Repr, Inhabited

/-- Reads the shape of a sample. -/
def AspectRatio.read : Parse AspectRatio := do
  let constant ← Parse.flag
  let idc ← Parse.u 8
  let width ← Parse.given (idc == 255) (Parse.u 16)
  let height ← Parse.given (idc == 255) (Parse.u 16)
  return { constant, idc, width, height }

/-- The colours of a picture.  The code 2 stands for an unknown characteristic. -/
structure ColourDescription where
  primaries : Nat := 2
  transfer : Nat := 2
  matrix : Nat := 2
  fullRange : Bool := false
  deriving DecidableEq, Repr

instance : Inhabited ColourDescription := ⟨{}⟩

/-- Reads the colours of a picture. -/
def ColourDescription.read : Parse ColourDescription := do
  let primaries ← Parse.u 8
  let transfer ← Parse.u 8
  let matrix ← Parse.u 8
  let fullRange ← Parse.flag
  return { primaries, transfer, matrix, fullRange }

/-- Where the chroma samples of frames and of fields lie. -/
structure ChromaLocation where
  frame : Nat := 0
  topField : Nat := 0
  bottomField : Nat := 0
  deriving DecidableEq, Repr, Inhabited

/-- Reads where chroma samples lie: for frames or for both kinds of fields. -/
def ChromaLocation.read (frames : Bool) : Parse ChromaLocation := do
  let frame ← Parse.given frames (Parse.ueMax 6)
  let topField ← Parse.given (!frames) (Parse.ueMax 6)
  let bottomField ← Parse.given (!frames) (Parse.ueMax 6)
  return { frame, topField, bottomField }

/-- How a decoded picture is meant to be shown. -/
structure Vui where
  progressive : Bool := false
  interlaced : Bool := false
  nonPacked : Bool := false
  nonProjected : Bool := false
  aspectRatioPresent : Bool := false
  aspectRatio : AspectRatio := {}
  overscanPresent : Bool := false
  overscanAppropriate : Bool := false
  colourPresent : Bool := false
  colour : ColourDescription := {}
  chromaLocationPresent : Bool := false
  chromaLocation : ChromaLocation := {}
  deriving DecidableEq, Repr

namespace Vui

instance : Inhabited Vui := ⟨{}⟩

/-- Reads vui_parameters(). -/
def read : Parse Vui := do
  let progressive ← Parse.flag
  let interlaced ← Parse.flag
  let nonPacked ← Parse.flag
  let nonProjected ← Parse.flag
  let aspectRatioPresent ← Parse.flag
  let aspectRatio ← Parse.given aspectRatioPresent AspectRatio.read
  let overscanPresent ← Parse.flag
  let overscanAppropriate ← Parse.flagIf overscanPresent
  let colourPresent ← Parse.flag
  let colour ← Parse.given colourPresent ColourDescription.read
  let chromaLocationPresent ← Parse.flag
  let chromaLocation ←
    Parse.given chromaLocationPresent (ChromaLocation.read (progressive && !interlaced))
  return {
    progressive, interlaced, nonPacked, nonProjected, aspectRatioPresent, aspectRatio
    overscanPresent, overscanAppropriate, colourPresent, colour
    chromaLocationPresent, chromaLocation }

instance : Reportable Vui where
  report v := .group [
    field "vui_progressive_source_flag" v.progressive,
    field "vui_interlaced_source_flag" v.interlaced,
    field "vui_non_packed_constraint_flag" v.nonPacked,
    field "vui_non_projected_constraint_flag" v.nonProjected,
    field "vui_aspect_ratio_info_present_flag" v.aspectRatioPresent,
    field "vui_aspect_ratio_constant_flag" v.aspectRatio.constant,
    field "vui_aspect_ratio_idc" v.aspectRatio.idc,
    field "vui_sar_width" v.aspectRatio.width,
    field "vui_sar_height" v.aspectRatio.height,
    field "vui_overscan_info_present_flag" v.overscanPresent,
    field "vui_overscan_appropriate_flag" v.overscanAppropriate,
    field "vui_colour_description_present_flag" v.colourPresent,
    field "vui_colour_primaries" v.colour.primaries,
    field "vui_transfer_characteristics" v.colour.transfer,
    field "vui_matrix_coeffs" v.colour.matrix,
    field "vui_full_range_flag" v.colour.fullRange,
    field "vui_chroma_loc_info_present_flag" v.chromaLocationPresent,
    field "vui_chroma_sample_loc_type_frame" v.chromaLocation.frame,
    field "vui_chroma_sample_loc_type_top_field" v.chromaLocation.topField,
    field "vui_chroma_sample_loc_type_bottom_field" v.chromaLocation.bottomField]

end Vui

end CodedVideo
