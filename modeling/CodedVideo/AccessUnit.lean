import CodedVideo.Parse
import CodedVideo.Profile

/-!
# Access units

Two kinds of NAL units start what belongs to one point in time: the delimiter,
which says what kinds of slices follow, and the operating point information,
which says which layers and sublayers are to be decoded.
-/

namespace CodedVideo

open Report (field)

/-- What is to be decoded. -/
structure OperatingPoint where
  /-- The output layer set. -/
  outputLayerSet : Option Nat
  /-- The number of sublayers. -/
  sublayers : Option Nat
  deriving DecidableEq, Repr

namespace OperatingPoint

/-- Reads what comes before the extension flag. -/
def readElements : Parse OperatingPoint := do
  let withSet ← Parse.flag
  let withSublayers ← Parse.flag
  let outputLayerSet ← if withSet then some <$> Parse.ue else pure none
  let sublayers ← if withSublayers then some <$> Parse.uMax 3 maxSublayers else pure none
  return { outputLayerSet, sublayers }

/-- Reads operating_point_information_rbsp(). -/
def read : Parse OperatingPoint := Parse.withExtension readElements fun point _ => point

instance : Reportable OperatingPoint where
  report o := .group [
    field "opi_ols_info_present_flag" o.outputLayerSet.isSome,
    field "opi_htid_info_present_flag" o.sublayers.isSome,
    field "opi_ols_idx" o.outputLayerSet,
    field "opi_htid_plus1" o.sublayers]

end OperatingPoint

/-- The start of an access unit. -/
structure AccessUnitDelimiter where
  /-- Whether pictures of all layers are random access points. -/
  randomAccess : Bool
  /-- Which types of slices follow: I only, P too, or all. -/
  pictureType : Nat
  deriving DecidableEq, Repr

namespace AccessUnitDelimiter

/-- Reads access_unit_delimiter_rbsp(). -/
def read : Parse AccessUnitDelimiter := do
  let randomAccess ← Parse.flag
  let pictureType ← Parse.uMax 3 2
  Parse.finish
  return { randomAccess, pictureType }

instance : Reportable AccessUnitDelimiter where
  report d := .group [
    field "aud_irap_or_gdr_flag" d.randomAccess,
    field "aud_pic_type" d.pictureType]

end AccessUnitDelimiter

end CodedVideo
