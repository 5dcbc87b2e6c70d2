import CodedVideo.Constraints

/-!
# Profile, tier and level

The profile says which tools a stream uses, the level how large its pictures
are, and the constraints which tools it leaves out.  A sublayer may have a level
of its own; one that has none shares the level of the sublayer above.
-/

namespace CodedVideo

open Report (field row slots)

/-- The number of temporal sublayers that a stream can have. -/
def maxSublayers : Nat := 7

/-- The profiles by code. -/
def profileNames : List (Nat × String) := [
  (1, "Main10"), (2, "Main12"), (10, "Main12Intra"), (17, "MultilayerMain10"),
  (33, "Main10_444"), (34, "Main12_444"), (36, "Main16_444"), (42, "Main12_444Intra"),
  (44, "Main16_444Intra"), (49, "MultilayerMain10_444"), (65, "Main10StillPicture"),
  (66, "Main12StillPicture"), (97, "Main10_444StillPicture"),
  (98, "Main12_444StillPicture"), (100, "Main16_444StillPicture")]

/-- A level of table A.8. -/
inductive Level where
  | l1 | l2 | l2_1 | l3 | l3_1 | l4 | l4_1 | l5 | l5_1 | l5_2 | l6 | l6_1 | l6_2 | l6_3 | l15_5
  deriving DecidableEq, Repr, Inhabited

namespace Level

/-- The levels by code: sixteen times the major number and three times the minor
one, and the largest code for the level without limits. -/
def table : List (Nat × Level × String) := [
  (16, l1, "L1"), (32, l2, "L2"), (35, l2_1, "L2_1"), (48, l3, "L3"), (51, l3_1, "L3_1"),
  (64, l4, "L4"), (67, l4_1, "L4_1"), (80, l5, "L5"), (83, l5_1, "L5_1"), (86, l5_2, "L5_2"),
  (96, l6, "L6"), (99, l6_1, "L6_1"), (102, l6_2, "L6_2"), (105, l6_3, "L6_3"),
  (255, l15_5, "L15_5")]

/-- The level with a given code. -/
def ofCode? (code : Nat) : Option Level := (table.lookup code).map (·.1)

instance : Reportable Level where
  report level :=
    ((table.find? fun (_, l, _) => l == level).map fun (_, _, name) => Report.name name).getD
      .absent

end Level

/-- Profile, tier and level of a stream. -/
structure ProfileTierLevel where
  /-- The code of the profile. -/
  profileIdc : Nat := 0
  tier : Bool := false
  level : Level := .l1
  frameOnly : Bool := false
  multilayer : Bool := false
  constraints : GeneralConstraints := {}
  /-- Which sublayers below the highest signal a level. -/
  sublayerLevelPresent : List Bool := []
  /-- The codes of the levels of the sublayers. -/
  sublayerLevels : List Nat := []
  /-- Codes for further interoperability points. -/
  subProfiles : List Nat := []
  deriving DecidableEq, Repr

namespace ProfileTierLevel

instance : Inhabited ProfileTierLevel := ⟨{}⟩

/-- The name of the profile, if its code is known. -/
def profile? (p : ProfileTierLevel) : Option String := profileNames.lookup p.profileIdc

/-- Reads a level. -/
def readLevel : Parse (Nat × Level) := do
  let code ← Parse.u 8
  let level ← Parse.ofFault ((Level.ofCode? code).elim (.error (.unknownLevel code)) .ok)
  return (code, level)

/-- Reads the levels of sublayers from the highest downwards, of which those with a
flag signal one; `above` is the level of the sublayer above. -/
def readSublayerLevels : List Bool → Nat → Parse (List Nat)
  | [], _ => return []
  | present :: rest, above => do
    let level ← if present then Parse.u 8 else pure above
    let levels ← readSublayerLevels rest level
    return level :: levels

/-- Reads profile_tier_level() for the sublayers 0 to `maxSublayer`.  A structure
without a profile shares it, and what belongs to it, with the one before. -/
def read (profilePresent : Bool) (maxSublayer : Nat) (previous : Option ProfileTierLevel) :
    Parse ProfileTierLevel := do
  Parse.refuseIf (!profilePresent && previous.isNone) .missingProfile
  let shared := previous.getD {}
  let profileIdc ← if profilePresent then Parse.u 7 else pure shared.profileIdc
  let tier ← if profilePresent then Parse.flag else pure shared.tier
  let (levelCode, level) ← readLevel
  let frameOnly ← Parse.flag
  let multilayer ← Parse.flag
  let constraints ←
    if profilePresent then GeneralConstraints.read else pure shared.constraints
  let presentFlags ← Parse.collect maxSublayer fun _ => Parse.flag
  let _ ← Parse.align Parse.done
  let levels ← readSublayerLevels presentFlags levelCode
  let subProfiles ←
    if profilePresent then do
      let count ← Parse.u 8
      Parse.collect count fun _ => Parse.u 32
    else pure shared.subProfiles
  return {
    profileIdc, tier, level, frameOnly, multilayer, constraints
    sublayerLevelPresent := presentFlags.reverse
    sublayerLevels := (levelCode :: levels).reverse
    subProfiles }

instance : Reportable ProfileTierLevel where
  report p := .group [
    field "general_profile_idc" p.profileIdc,
    field "profile" p.profile?,
    field "general_tier_flag" p.tier,
    field "general_level_idc" p.level,
    field "ptl_frame_only_constraint_flag" p.frameOnly,
    field "ptl_multilayer_enabled_flag" p.multilayer,
    field "general_constraints_info" p.constraints,
    slots "ptl_sublayer_level_present_flag" maxSublayers p.sublayerLevelPresent,
    slots "sublayer_level_idc" maxSublayers p.sublayerLevels,
    field "ptl_num_sub_profiles" p.subProfiles.length,
    field "general_sub_profile_idc" p.subProfiles]

end ProfileTierLevel

/-- The size of the decoded picture buffer for one sublayer. -/
structure DpbSize where
  maxPicturesMinus1 : Nat := 0
  maxReordered : Nat := 0
  maxLatencyPlus1 : Nat := 0
  deriving DecidableEq, Repr, Inhabited

namespace DpbSize

/-- Reads the size for one sublayer. -/
def read : Parse DpbSize := do
  let maxPicturesMinus1 ← Parse.ueMax 15
  let maxReordered ← Parse.ueMax maxPicturesMinus1
  let maxLatencyPlus1 ← Parse.ueMax (pow2 32 - 2)
  return { maxPicturesMinus1, maxReordered, maxLatencyPlus1 }

end DpbSize

/-- The sizes of the decoded picture buffer for the sublayers. -/
structure DpbParameters where
  sublayers : List DpbSize := []
  deriving DecidableEq, Repr, Inhabited

namespace DpbParameters

/-- Reads dpb_parameters() for the sublayers 0 to `maxSublayer`: one size for each
of them or one for all. -/
def read (maxSublayer : Nat) (each : Bool) : Parse DpbParameters := do
  if each then return ⟨← Parse.collect (maxSublayer + 1) fun _ => DpbSize.read⟩
  else return ⟨List.replicate (maxSublayer + 1) (← DpbSize.read)⟩

instance : Reportable DpbParameters where
  report p := .group [
    slots "dpb_max_dec_pic_buffering_minus1" maxSublayers
      (p.sublayers.map (·.maxPicturesMinus1)),
    slots "dpb_max_num_reorder_pics" maxSublayers (p.sublayers.map (·.maxReordered)),
    slots "dpb_max_latency_increase_plus1" maxSublayers (p.sublayers.map (·.maxLatencyPlus1))]

end DpbParameters

end CodedVideo
