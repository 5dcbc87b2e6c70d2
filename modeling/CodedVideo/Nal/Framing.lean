import CodedVideo.Nal.Header

/-!
# NAL units and their framing

In a byte stream every NAL unit follows a start code `00 00 01` and ends before
the next one or at the end of the data, without the zero bytes before that end.
`Nal.next` takes one unit off a stream; `Nal.ofBytes` takes a byte string as
one unit.

A unit that ends a sequence or the bitstream is its header alone, whatever
follows.  When the header after a start code is refused the cursor is left
behind that start code, so that a caller can go on.
-/

namespace CodedVideo

/-- A NAL unit and where it was found. -/
structure Nal where
  /-- What the unit carries and for which layer. -/
  header : Nal.Header
  /-- The bytes of the unit, header included. -/
  bytes : List UInt8
  /-- Where the header lies in the stream. -/
  offset : Nat := 0
  /-- Where the start code lies in the stream. -/
  startCodeOffset : Nat := 0
  deriving DecidableEq, Repr, Inhabited

namespace Nal

/-- The distance to the first start code, counted from `passed` on. -/
def findStartCodeFrom (passed : Nat) : List UInt8 → Option Nat
  | [] => none
  | b :: rest =>
    if b = 0 ∧ rest.take 2 = [0, 1] then some passed else findStartCodeFrom (passed + 1) rest

/-- The distance to the first start code. -/
def findStartCode (bytes : List UInt8) : Option Nat := findStartCodeFrom 0 bytes

/-- A byte string without the zero bytes at its end. -/
def dropTrailingZeros (bytes : List UInt8) : List UInt8 :=
  (bytes.reverse.dropWhile (· == 0)).reverse

/-- The bytes after the header. -/
def payload (u : Nal) : List UInt8 := u.bytes.drop Header.size

/-- The number of bytes, header included. -/
def size (u : Nal) : Nat := u.bytes.length

/-- Takes a byte string without a start code as a NAL unit. -/
def ofBytes (bytes : List UInt8) : Except FramingError Nal :=
  (Header.ofBytes bytes).map fun header => { header, bytes }

/-- Where a start code begins, the zero byte of a four-byte one included. -/
def startCodeFrom (data : List UInt8) (start : Nat) : Nat :=
  if start > 0 ∧ data[start - 1]? = some 0 then start - 1 else start

/-- The bytes of the unit with the given header at the front of `rest`. -/
def extent (header : Header) (rest : List UInt8) : List UInt8 :=
  if header.kind.isEnd then rest.take Header.size
  else
    match findStartCode rest with
    | some distance => dropTrailingZeros (rest.take distance)
    | none => dropTrailingZeros rest

/-- Takes the next NAL unit off a stream, searching from `cursor` on, and
returns the cursor after it. -/
def next (data : List UInt8) (cursor : Nat) : Except FramingError Nal × Nat :=
  match findStartCode (data.drop cursor) with
  | none => (.error .noStartCode, cursor)
  | some distance =>
    let start := cursor + distance
    let offset := start + 3
    let rest := data.drop offset
    match Header.ofBytes rest with
    | .error e => (.error e, offset)
    | .ok header =>
      let bytes := extent header rest
      if bytes.length < Header.size then (.error (.shorterThanHeader bytes.length), offset)
      else
        (.ok { header, bytes, offset, startCodeOffset := startCodeFrom data start },
          offset + bytes.length)

end Nal

end CodedVideo
