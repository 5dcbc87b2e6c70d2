import CodedVideo.OrderCount
import CodedVideo.Session

/-!
# Following a stream

A `Decoder` reads the headers of a stream and keeps track of its pictures.  The
first slice of a picture gives it an order count, resolves its reference lists
and puts it into the picture buffer.  A picture counts as shown and output at
once, so it stays in the buffer only as long as others may refer to it.  If the
buffer is full all pictures are dropped.

`Decoder.run` takes a byte stream apart and receives its NAL units in order.
-/

namespace CodedVideo

/-- The headers and pictures of a stream. -/
structure Decoder where
  session : Session
  counter : OrderCounter := {}
  buffer : PictureBuffer := {}
  deriving DecidableEq, Repr

/-- What happens to a picture when its first slice arrives. -/
structure PictureOutcome where
  picture : Picture
  /-- The pictures that its lists refer to. -/
  lists : ResolvedLists
  /-- The buffer after marking, before pictures are dropped. -/
  marked : PictureBuffer
  /-- Why the picture has not been stored. -/
  refused : Option BufferError
  deriving DecidableEq, Repr

/-- A slice, and what happens to the picture that it starts, if it starts one. -/
structure SliceOutcome where
  header : SliceHeader
  picture : Option PictureOutcome
  deriving DecidableEq, Repr

/-- What a NAL unit carries. -/
inductive NalContent where
  | operatingPoint (point : OperatingPoint)
  | vps (vps : Vps)
  | sps (sps : Sps)
  | pps (pps : Pps)
  | aps (aps : Aps)
  | pictureHeader (picture : PictureHeader)
  | delimiter (delimiter : AccessUnitDelimiter)
  | slice (slice : SliceOutcome)
  /-- The end of a sequence, or something that is not looked at. -/
  | nothing
  deriving DecidableEq, Repr

namespace Decoder

/-- A decoder that has received nothing and keeps at most `capacity` pictures. -/
def start (escaped : Bool) (capacity : Nat) : Decoder where
  session := .start escaped
  buffer := { capacity }

/-- What the order count of the picture of a slice depends on. -/
def orderInfo (header : Nal.Header) (slice : SliceHeader) : OrderInfo where
  kind := header.kind
  temporalId := header.temporalId
  lsb := slice.picture.lsb
  msbCycle := slice.picture.msbCycle
  nonReference := slice.picture.start.nonReference

/-- The picture that a slice starts, given its order count. -/
def pictureOf (header : Nal.Header) (slice : SliceHeader) (orderCount : Int) : Picture where
  kind := header.kind
  layer := header.layer
  lsb := slice.picture.lsb
  orderCount := orderCount
  nonReference := slice.picture.start.nonReference
  output := slice.picture.output
  noOutputOfPrior := slice.noOutputOfPrior

/-- What a slice asks of the picture buffer. -/
def queryOf (layers : Option LayerTable) (slice : SliceHeader) (picture : Picture) : RefQuery where
  orderCount := picture.orderCount
  layer := picture.layer
  maxLsb := slice.pps.sps.maxLsb
  layers := layers
  list0 := { entries := slice.applied.lists.list0.refEntries, active := slice.active.counts.1 }
  list1 := { entries := slice.applied.lists.list1.refEntries, active := slice.active.counts.2 }

/-- Whether the picture of a slice retires all pictures before it. -/
def flushes (header : Nal.Header) (slice : SliceHeader) : Bool :=
  header.kind.isIdr && !slice.pps.mixedKinds

/-- Stores a picture after pictures that nobody waits for have been dropped.  If there
is no place for it, it is dropped along with all others. -/
def store (b : PictureBuffer) (picture : Picture) : Option BufferError × PictureBuffer :=
  match b.removeDisposable.store picture with
  | .ok b => (none, b)
  | .error e => (some e, b.removeDisposable.retireAll.clear)

/-- Takes up the picture that a slice starts. -/
def startPicture (d : Decoder) (header : Nal.Header) (slice : SliceHeader) :
    Except ParseError PictureOutcome × Decoder :=
  let sps := slice.pps.sps
  match d.counter.next sps.maxLsb (orderInfo header slice) with
  | (.error fault, counter) => (.error (.invalid fault), { d with counter })
  | (.ok orderCount, counter) =>
    let found := pictureOf header slice orderCount
    let layers := (d.session.videoSets.get? sps.vpsId).map (·.layerTable)
    let (lists, marked) :=
      d.buffer.update (flushes header slice) (queryOf layers slice found)
    let picture :=
      { found with missingReference := lists.missing, displayed := true, outputDone := true }
    let (refused, buffer) := store marked picture
    (.ok { picture, lists, marked, refused }, { d with counter, buffer })

/-- Receives a slice.  One whose address is zero starts a picture. -/
def receiveSlice (d : Decoder) (nal : Nal) : Except ParseError SliceOutcome × Decoder :=
  match d.session.readSlice nal with
  | (.error e, session) => (.error e, { d with session })
  | (.ok header, session) =>
    let d := { d with session }
    if header.place.address ≠ 0 then (.ok { header, picture := none }, d)
    else
      match d.startPicture nal.header header with
      | (.error e, d) => (.error e, d)
      | (.ok picture, d) => (.ok { header, picture := some picture }, d)

/-- Passes on what has been read, with the session after it. -/
def ofRead {α : Type} (d : Decoder) (content : α → NalContent)
    (r : Except ParseError α × Session) : Except ParseError NalContent × Decoder :=
  (r.1.map content, { d with session := r.2 })

/-- Receives a NAL unit. -/
def receive (d : Decoder) (nal : Nal) : Except ParseError NalContent × Decoder :=
  match nal.header.kind with
  | .opi => d.ofRead .operatingPoint (d.session.readOperatingPoint nal)
  | .vps => d.ofRead .vps (d.session.readVps nal)
  | .sps => d.ofRead .sps (d.session.readSps nal)
  | .pps => d.ofRead .pps (d.session.readPps nal)
  | .prefixAps | .suffixAps => d.ofRead .aps (d.session.readAps nal)
  | .pictureHeader => d.ofRead .pictureHeader (d.session.readPictureHeader nal)
  | .accessUnitDelimiter => ((d.session.readDelimiter nal).map .delimiter, d)
  | .endOfSequence => (.ok .nothing, { d with counter := d.counter.reset })
  | kind =>
    if kind.isVcl then
      let (result, d) := d.receiveSlice nal
      (result.map .slice, d)
    else (.ok .nothing, d)

/-- What is found next in a byte stream. -/
inductive Event where
  /-- Something that is no NAL unit. -/
  | broken (error : Nal.FramingError)
  /-- A NAL unit, and what it carries. -/
  | received (nal : Nal) (result : Except ParseError NalContent)

/-- What is found in a byte stream from `cursor` on, each with the cursor after it and
the decoder then.  After an error the search goes on, except at the end of the
stream; `limit` bounds how often. -/
def runFrom (data : List UInt8) : (limit cursor : Nat) → Decoder → List (Event × Nat × Decoder)
  | 0, _, _ => []
  | limit + 1, cursor, d =>
    match Nal.next data cursor with
    | (.error .noStartCode, cursor) => [(.broken .noStartCode, cursor, d)]
    | (.error e, cursor) => (.broken e, cursor, d) :: runFrom data limit cursor d
    | (.ok nal, cursor) =>
      let (result, d) := d.receive nal
      (.received nal result, cursor, d) :: runFrom data limit cursor d

/-- What is found in a byte stream.  Every step but the last passes a start code, so
there are no more steps than bytes and one. -/
def run (data : List UInt8) (d : Decoder) : List (Event × Nat × Decoder) :=
  runFrom data (data.length + 1) 0 d

end Decoder

end CodedVideo
