import CodedVideo.Aps.Alf
import CodedVideo.Aps.Lmcs
import CodedVideo.ScalingList

/-!
# Adaptation parameter sets

An adaptation parameter set (APS) holds data that slices select by id: loop
filters, a mapping of luma values, or scaling matrices.  Each of the three kinds
has ids of its own.
-/

namespace CodedVideo

open Report (field)

/-- What an adaptation parameter set holds. -/
inductive ApsKind where
  | alf
  | lmcs
  | scalingList
  deriving DecidableEq, Repr, Inhabited

namespace ApsKind

/-- The kind with a given code. -/
def ofCode? : Nat → Option ApsKind
  | 0 => some alf
  | 1 => some lmcs
  | 2 => some scalingList
  | _ => none

/-- The number of ids of a kind. -/
def capacity : ApsKind → Nat
  | lmcs => 4
  | _ => 8

/-- The name under which reports mention a kind. -/
def name : ApsKind → String
  | alf => "Alf"
  | lmcs => "Lmcs"
  | scalingList => "ScalingList"

end ApsKind

/-- The data of an adaptation parameter set. -/
inductive ApsContent where
  | alf (filters : AlfFilters)
  | lmcs (mapping : LumaMapping)
  | scalingList (lists : ScalingLists)
  deriving DecidableEq, Repr

/-- The kind of some data. -/
def ApsContent.kind : ApsContent → ApsKind
  | alf _ => .alf
  | lmcs _ => .lmcs
  | scalingList _ => .scalingList

/-- Reads the data of a given kind. -/
def ApsContent.read (chroma : Bool) : ApsKind → Parse ApsContent
  | .alf => .alf <$> AlfFilters.read chroma
  | .lmcs => .lmcs <$> LumaMapping.read chroma
  | .scalingList => .scalingList <$> ScalingLists.read chroma

/-- Data that slices select by id. -/
structure Aps where
  id : Nat
  /-- Whether there are data for chroma. -/
  chroma : Bool
  content : ApsContent
  extension : Bool := false
  /-- The layer of the NAL unit. -/
  layer : Nat
  deriving DecidableEq, Repr

namespace Aps

/-- What the set holds. -/
def kind (aps : Aps) : ApsKind := aps.content.kind

/-- The filters, if the set holds filters. -/
def alf? (aps : Aps) : Option AlfFilters :=
  match aps.content with
  | .alf filters => some filters
  | _ => none

/-- Reads what comes before the extension flag. -/
def readElements (layer : Nat) : Parse Aps := do
  let code ← Parse.u 3
  match ApsKind.ofCode? code with
  | none => Parse.fail (.unsupportedAps code)
  | some kind => do
    let id ← Parse.uMax 5 (kind.capacity - 1)
    let chroma ← Parse.flag
    let content ← ApsContent.read chroma kind
    return { id, chroma, content, layer }

/-- Reads adaptation_parameter_set_rbsp() of a layer. -/
def read (layer : Nat) : Parse Aps :=
  Parse.withExtension (readElements layer) fun aps extension => { aps with extension }

instance : Reportable Aps where
  report aps := .group [
    field "aps_params_type" aps.kind.name,
    field "aps_adaptation_parameter_set_id" aps.id,
    field "aps_chroma_present_flag" aps.chroma,
    match aps.content with
    | .alf filters => field "alf" filters
    | .lmcs mapping => field "lmcs" mapping
    | .scalingList lists => field "scaling_list" lists,
    field "aps_extension_flag" aps.extension,
    field "nuh_layer_id" aps.layer]

end Aps

end CodedVideo
