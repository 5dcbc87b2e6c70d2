import CodedVideo.Report

/-!
# Kinds of NAL units

The 32 values of `nal_unit_type`, their names, and the classes that parsing and
decoding distinguish.  `Kind.ofCode` reads the five bits of a header and
`Kind.code` gives them back.
-/

namespace CodedVideo.Nal

/-- What a NAL unit carries, in the order of the codes 0 to 31. -/
inductive Kind where
  | trail | stsa | radl | rasl
  | reservedVcl4 | reservedVcl5 | reservedVcl6
  | idrWithRadl | idrNoLeading | cra | gdr | reservedIrap11
  | opi | dci | vps | sps | pps | prefixAps | suffixAps
  | pictureHeader | accessUnitDelimiter | endOfSequence | endOfBitstream
  | prefixSei | suffixSei | fillerData
  | reservedNonVcl26 | reservedNonVcl27
  | unspecified28 | unspecified29 | unspecified30 | unspecified31
  deriving DecidableEq, Repr, Inhabited

namespace Kind

/-- All kinds by code. -/
def all : Vector Kind 32 := #v[
  trail, stsa, radl, rasl, reservedVcl4, reservedVcl5, reservedVcl6,
  idrWithRadl, idrNoLeading, cra, gdr, reservedIrap11,
  opi, dci, vps, sps, pps, prefixAps, suffixAps,
  pictureHeader, accessUnitDelimiter, endOfSequence, endOfBitstream,
  prefixSei, suffixSei, fillerData, reservedNonVcl26, reservedNonVcl27,
  unspecified28, unspecified29, unspecified30, unspecified31]

/-- The kind with a given five-bit code. -/
def ofCode (code : Fin 32) : Kind := all[code]

/-- The five-bit code of a kind. -/
def code (kind : Kind) : Nat := kind.ctorIdx

/-- The name under which reports mention a kind. -/
def name : Kind → String
  | trail => "TrailNut"
  | stsa => "StsaNut"
  | radl => "RadlNut"
  | rasl => "RaslNut"
  | reservedVcl4 => "RsvVcl4"
  | reservedVcl5 => "RsvVcl5"
  | reservedVcl6 => "RsvVcl6"
  | idrWithRadl => "IdrWRadl"
  | idrNoLeading => "IdrNLp"
  | cra => "CraNut"
  | gdr => "GdrNut"
  | reservedIrap11 => "RsvIrap11"
  | opi => "OpiNut"
  | dci => "DciNut"
  | vps => "VpsNut"
  | sps => "SpsNut"
  | pps => "PpsNut"
  | prefixAps => "PrefixApsNut"
  | suffixAps => "SuffixApsNut"
  | pictureHeader => "PhNut"
  | accessUnitDelimiter => "AudNut"
  | endOfSequence => "EosNut"
  | endOfBitstream => "EobNut"
  | prefixSei => "PrefixSeiNut"
  | suffixSei => "SuffixSeiNut"
  | fillerData => "FdNut"
  | reservedNonVcl26 => "RsvNvcl26"
  | reservedNonVcl27 => "RsvNvcl27"
  | unspecified28 => "Unspec28"
  | unspecified29 => "Unspec29"
  | unspecified30 => "Unspec30"
  | unspecified31 => "Unspec31"

/-- The kinds of an instantaneous decoding refresh picture. -/
def isIdr (kind : Kind) : Bool := kind matches idrWithRadl | idrNoLeading

/-- The kinds with codes 7 to 11, at which decoding can start.  A gradual
decoding refresh counts among them. -/
def isIrap (kind : Kind) : Bool := 7 ≤ kind.code && kind.code ≤ 11

/-- The kinds that carry coded slices. -/
def isVcl (kind : Kind) : Bool := kind.code ≤ 11

/-- The kinds of picture that may start a coded layer video sequence. -/
def isIrapOrGdr (kind : Kind) : Bool := kind.isIrap || kind == gdr

/-- The kinds that end a sequence or the bitstream and consist of a header only. -/
def isEnd (kind : Kind) : Bool := kind matches endOfSequence | endOfBitstream

instance : Reportable Kind := ⟨fun kind => .name kind.name⟩

end Kind

end CodedVideo.Nal
