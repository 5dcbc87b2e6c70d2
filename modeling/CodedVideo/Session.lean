import CodedVideo.AccessUnit
import CodedVideo.Nal.Framing
import CodedVideo.Slice.Header

/-!
# Parsing NAL units one after another

A `Session` keeps what later NAL units may refer to: the parameter sets received
so far and the last picture header.

A parameter set is registered only when all of it has been read, so a session
does not change when one is refused.  Picture headers are different.  As soon as
the picture parameter set of a picture header is found it is put in use, together
with its sequence parameter set, and the picture header that a slice carries
becomes the current one even if the slice header that follows is refused.
-/

namespace CodedVideo

/-- What later NAL units may refer to. -/
structure Session where
  /-- Whether payloads hold emulation prevention bytes. -/
  escaped : Bool := false
  operatingPoints : ParameterStore OperatingPoint := { capacity := 1 }
  videoSets : ParameterStore Vps := { capacity := 16 }
  sequenceSets : ParameterStore Sps := { capacity := 16 }
  pictureSets : ParameterStore Pps := { capacity := 64 }
  alfSets : ParameterStore Aps := { capacity := ApsKind.alf.capacity }
  lmcsSets : ParameterStore Aps := { capacity := ApsKind.lmcs.capacity }
  scalingListSets : ParameterStore Aps := { capacity := ApsKind.scalingList.capacity }
  /-- The current picture header. -/
  picture : Option PictureHeader := none
  deriving DecidableEq, Repr

namespace Session

/-- A session in which nothing has been received. -/
def start (escaped : Bool) : Session := { escaped }

/-- The adaptation parameter sets of a kind. -/
def adaptationSets (s : Session) : ApsKind → ParameterStore Aps
  | .alf => s.alfSets
  | .lmcs => s.lmcsSets
  | .scalingList => s.scalingListSets

/-- Replaces the adaptation parameter sets of a kind. -/
def setAdaptationSets (s : Session) (sets : ParameterStore Aps) : ApsKind → Session
  | .alf => { s with alfSets := sets }
  | .lmcs => { s with lmcsSets := sets }
  | .scalingList => { s with scalingListSets := sets }

/-- The operating point, if one has been received. -/
def operatingPoint? (s : Session) : Option OperatingPoint := s.operatingPoints.get? 0

/-- The adaptation parameter set of a given kind and id. -/
def adaptationSet? (s : Session) (kind : ApsKind) (id : Nat) : Option Aps :=
  (s.adaptationSets kind).get? id

/-- The sequence parameter set in use. -/
def activeSps? (s : Session) : Option Sps := s.sequenceSets.current?

/-- The picture parameter set in use. -/
def activePps? (s : Session) : Option Pps := s.pictureSets.current?

/-- Forgets all that has been received, or with `keeping` all but the parameter sets
in use.  The picture header is forgotten in any case. -/
def reset (keeping : Bool) (s : Session) : Session where
  escaped := s.escaped
  operatingPoints := s.operatingPoints.reset keeping
  videoSets := s.videoSets.reset keeping
  sequenceSets := s.sequenceSets.reset keeping
  pictureSets := s.pictureSets.reset keeping
  alfSets := s.alfSets.reset keeping
  lmcsSets := s.lmcsSets.reset keeping
  scalingListSets := s.scalingListSets.reset keeping

/-- A reader at the start of the payload of a NAL unit. -/
def readerFor (s : Session) (nal : Nal) : BitReader := .ofBytes s.escaped nal.payload

/-- Refuses a NAL unit that is not of one of the expected kinds. -/
def checkKind (expected : List Nal.Kind) (nal : Nal) : Except ParseError Unit :=
  if nal.header.kind ∈ expected then .ok ()
  else .error (.invalid (.unexpectedKind expected nal.header.kind))

/-! ### Parameter sets -/

/-- Reads the payload of a NAL unit of one of the expected kinds. -/
def readPayload {α : Type} (s : Session) (expected : List Nal.Kind) (content : Parse α)
    (nal : Nal) : Except ParseError α := do
  checkKind expected nal
  (content.run (s.readerFor nal)).1

/-- Reads a parameter set and registers it. -/
def register {α : Type} (s : Session) (expected : List Nal.Kind) (content : Parse α)
    (insert : α → Except StoreError Session) (nal : Nal) : Except ParseError α × Session :=
  match s.readPayload expected content nal with
  | .error e => (.error e, s)
  | .ok set =>
    match insert set with
    | .error e => (.error (.invalid (.store e)), s)
    | .ok s => (.ok set, s)

/-- Reads operating point information. -/
def readOperatingPoint (s : Session) : Nal → Except ParseError OperatingPoint × Session :=
  s.register [.opi] OperatingPoint.read fun point => do
    return { s with operatingPoints := ← s.operatingPoints.insert 0 point }

/-- Reads a video parameter set. -/
def readVps (s : Session) : Nal → Except ParseError Vps × Session :=
  s.register [.vps] Vps.read fun vps => do
    return { s with videoSets := ← s.videoSets.insert vps.id vps }

/-- Reads a sequence parameter set. -/
def readSps (s : Session) (nal : Nal) : Except ParseError Sps × Session :=
  s.register [.sps] (Sps.read s.videoSets.get? nal.header.layer) (fun sps => do
    return { s with sequenceSets := ← s.sequenceSets.insert sps.id sps }) nal

/-- Reads a picture parameter set. -/
def readPps (s : Session) : Nal → Except ParseError Pps × Session :=
  s.register [.pps] (Pps.read s.sequenceSets.get?) fun pps => do
    return { s with pictureSets := ← s.pictureSets.insert pps.id pps }

/-- Reads an adaptation parameter set. -/
def readAps (s : Session) (nal : Nal) : Except ParseError Aps × Session :=
  s.register [.prefixAps, .suffixAps] (Aps.read nal.header.layer) (fun aps => do
    let sets ← (s.adaptationSets aps.kind).insert aps.id aps
    return s.setAdaptationSets sets aps.kind) nal

/-- Reads an access unit delimiter, which nothing refers to. -/
def readDelimiter (s : Session) (nal : Nal) : Except ParseError AccessUnitDelimiter :=
  s.readPayload [.accessUnitDelimiter] AccessUnitDelimiter.read nal

/-! ### Picture and slice headers -/

/-- A session and the reader of the payload that is being read. -/
structure Reading where
  session : Session
  reader : BitReader

/-- A part of a header.  The session keeps what has happened to it when the part is
refused. -/
abbrev Step (α : Type) : Type := ExceptT ParseError (StateM Reading) α

namespace Step

/-- Reads a structure that leaves the session alone. -/
def ofParse {α : Type} (content : Parse α) : Step α := do
  let reading ← get
  let (result, reader) := content.run reading.reader
  set { reading with reader }
  result

/-- Changes the session. -/
def update (f : Session → Session) : Step Unit :=
  modify fun reading => { reading with session := f reading.session }

/-- The session as it is. -/
def session : Step Session := do return (← get).session

/-- The numbers of bits read and of emulation prevention bytes dropped so far. -/
def extent : Step (Nat × Nat) := do
  let reader := (← get).reader
  return (reader.position, reader.removed)

/-- The picture parameter set with a given id. -/
def pictureSet (id : Nat) : Step Pps := do
  ofParse (Parse.ofReference .pps id ((← session).pictureSets.get? id))

end Step

/-- Puts a picture parameter set and its sequence parameter set in use. -/
def activate (id : Nat) (pps : Pps) (s : Session) : Session :=
  { s with
    pictureSets := s.pictureSets.setCurrent id
    sequenceSets := s.sequenceSets.setCurrent pps.sps.id }

/-- Finds to how many layers a header of a layer can refer. -/
def references (s : Session) (layer : Nat) (pps : Pps) : Parse Nat :=
  pps.sps.headerReferences s.videoSets.get? layer

/-- Reads picture_header_structure(). -/
def pictureStructure (layer : Nat) : Step PictureHeader := do
  let start ← Step.ofParse PictureHeader.readStart
  let pps ← Step.pictureSet start.ppsId
  Step.update (activate start.ppsId pps)
  let s ← Step.session
  Step.ofParse (PictureHeader.readRest pps (s.references layer pps) start)

/-- Makes a picture header the current one. -/
def setPicture (picture : PictureHeader) (s : Session) : Session :=
  { s with picture := some picture }

/-- Reads a picture header that comes in a NAL unit of its own. -/
def separatePicture (layer : Nat) : Step PictureHeader := do
  let picture ← pictureStructure layer
  Step.ofParse Parse.finish
  Step.update (setPicture picture)
  return picture

/-- The picture header of a slice: the one it carries, or else the current one. -/
def pictureOfSlice (layer : Nat) (carried : Bool) : Step PictureHeader := do
  if carried then
    let picture ← pictureStructure layer
    Step.update (setPicture picture)
    return picture
  else Step.ofParse (Parse.ofReference .pictureHeader 0 (← Step.session).picture)

/-- Finds what a slice header is read against. -/
def sliceContext (header : Nal.Header) (carriesPicture : Bool) : Step SliceHeader.Context := do
  let picture ← pictureOfSlice header.layer carriesPicture
  let pps ← Step.pictureSet picture.start.ppsId
  let s ← Step.session
  return {
    kind := header.kind, carriesPicture, picture, pps
    references := s.references header.layer pps }

/-- Reads the elements of a slice header. -/
def sliceElements (header : Nal.Header) : Step SliceHeader := do
  let carriesPicture ← Step.ofParse Parse.flag
  let context ← sliceContext header carriesPicture
  let slice ← Step.ofParse (SliceHeader.read context)
  return { slice with carriesPicture }

/-- Reads the header of a slice and checks what it refers to. -/
def sliceStructure (header : Nal.Header) : Step SliceHeader := do
  let slice ← sliceElements header
  Step.ofParse Parse.finish
  let s ← Step.session
  Step.ofParse (SliceHeader.checkReferences s.adaptationSet? slice)
  let (bits, escapes) ← Step.extent
  return { slice with bits, escapes }

/-- Runs the parts of a header on the payload of a NAL unit of an expected kind. -/
def runStep {α : Type} (s : Session) (expected : List Nal.Kind) (step : Step α) (nal : Nal) :
    Except ParseError α × Session :=
  match checkKind expected nal with
  | .error e => (.error e, s)
  | .ok _ =>
    let (result, reading) := step.run { session := s, reader := s.readerFor nal }
    (result, reading.session)

/-- Reads a picture header. -/
def readPictureHeader (s : Session) (nal : Nal) : Except ParseError PictureHeader × Session :=
  s.runStep [.pictureHeader] (separatePicture nal.header.layer) nal

/-- The kinds of NAL units that carry slices. -/
def sliceKinds : List Nal.Kind :=
  [.trail, .stsa, .radl, .rasl, .idrWithRadl, .idrNoLeading, .cra, .gdr]

/-- Reads the header of a slice. -/
def readSlice (s : Session) (nal : Nal) : Except ParseError SliceHeader × Session :=
  s.runStep sliceKinds (sliceStructure nal.header) nal

end Session

end CodedVideo
