import CodedVideo.Nal.Kind
import CodedVideo.Report

/-!
# NAL unit headers

A NAL unit starts with two bytes: a bit that must be zero, a reserved bit, six
bits of layer id, five bits of kind and three bits of temporal id plus one.
-/

namespace CodedVideo.Nal

open Report (field)

/-- Why a byte stream or a byte string yields no NAL unit. -/
inductive FramingError where
  /-- No start code is left in the stream. -/
  | noStartCode
  /-- Fewer than two bytes follow. -/
  | tooShort
  /-- The first bit of the header is one. -/
  | forbiddenBit
  /-- The layer id is larger than 55. -/
  | invalidLayer (layer : Nat)
  /-- The temporal id plus one is zero. -/
  | zeroTemporalId
  /-- A random access point lies above the lowest temporal sublayer. -/
  | temporalIrap (kind : Kind) (temporalId : Nat)
  /-- A NAL unit holds less than its header. -/
  | shorterThanHeader (size : Nat)
  deriving DecidableEq, Repr

/-- The text that reports a framing error. -/
def FramingError.message : FramingError → String
  | .noStartCode => "No NAL found"
  | .tooShort => "Broken Data"
  | .forbiddenBit => "forbidden_zero_bit is set"
  | .invalidLayer layer => s!"Invalid nuh_layer_id {layer}"
  | .zeroTemporalId => "nuh_temporal_id_plus1 is 0"
  | .temporalIrap kind tid => "IRAP NALU " ++ kind.name ++ s!" with TemporalId {tid}"
  | .shorterThanHeader size => s!"NALU of {size} bytes is shorter than its header"

/-- The two-byte header of a NAL unit. -/
structure Header where
  /-- What the unit carries. -/
  kind : Kind := .trail
  /-- The layer the unit belongs to. -/
  layer : Nat := 0
  /-- The temporal id plus one. -/
  temporalIdPlus1 : Nat := 0
  deriving DecidableEq, Repr, Inhabited

namespace Header

/-- The number of bytes of a header. -/
def size : Nat := 2

/-- The temporal sublayer of the unit. -/
def temporalId (h : Header) : Nat := h.temporalIdPlus1 - 1

/-- The kind coded in the five high bits of the second byte. -/
def kindOf (byte : UInt8) : Kind :=
  Kind.ofCode ⟨byte.toNat / 8, by have := byte.toNat_lt; omega⟩

/-- Reads the header at the start of some bytes. -/
def ofBytes : List UInt8 → Except FramingError Header
  | first :: second :: _ =>
    let layer := first.toNat % 64
    let kind := kindOf second
    let temporalIdPlus1 := second.toNat % 8
    if 128 ≤ first.toNat then .error .forbiddenBit
    else if layer > 55 then .error (.invalidLayer layer)
    else if temporalIdPlus1 = 0 then .error .zeroTemporalId
    else if kind.isIrap ∧ temporalIdPlus1 ≠ 1 then
      .error (.temporalIrap kind (temporalIdPlus1 - 1))
    else .ok { kind, layer, temporalIdPlus1 }
  | _ => .error .tooShort

instance : Reportable Header where
  report h := .group [
    field "type_" h.kind,
    field "nuh_layer_id" h.layer,
    field "nuh_temporal_id_plus1" h.temporalIdPlus1,
    field "temporal_id" h.temporalId]

end Header

end CodedVideo.Nal
