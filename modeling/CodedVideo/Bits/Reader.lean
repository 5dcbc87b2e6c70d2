import CodedVideo.Bits.Width

/-!
# Reading bits

A `BitReader` walks over the bytes of a payload, most significant bit first.
It keeps the byte it is in, the number of bits of that byte still unread, and
the bytes it has not fetched yet.  With `escaped` set, a byte `03` that follows
two zero bytes is an emulation prevention byte: it is dropped on the way in,
and the count of zero bytes starts again after it.

`readBits` fetches as many whole bytes as the request needs and hands the low
bits of the last one back.  Every operation returns the reader it leaves behind,
also when it fails: a failed fetch keeps the bits that were visible before it
and does not move `position`, which counts the bits of successful reads only.
-/

namespace CodedVideo

/-- What can go wrong while bits are read. -/
inductive ReadError where
  /-- More than 32 bits were asked for at once. -/
  | tooManyBits (requested : Nat)
  /-- The payload ended within the request. -/
  | outOfBits
  /-- An Exp-Golomb codeword denotes no 32-bit number. -/
  | expGolombOverflow
  /-- A value lies outside the range its element allows. -/
  | outOfRange (value min max : Int)
  /-- A value does not fit the integer type it is stored in. -/
  | conversionFailed
  /-- More bits were decoded than the payload holds. -/
  | overrun (decoded available : Nat)
  deriving DecidableEq, Repr

/-- The text that reports a read error. -/
def ReadError.message : ReadError → String
  | .tooManyBits n => s!"more than 32 ({n}) bits were requested"
  | .outOfBits => "reader ran out of bits"
  | .expGolombOverflow => "exp-golomb codeword has more than 32 leading zero bits"
  | .outOfRange v lo hi => s!"value {v} is out of range [{lo}, {hi}]"
  | .conversionFailed => "failed to convert read input to target type"
  | .overrun decoded available =>
    s!"{decoded} bits decoded from a buffer holding {available} bits"

/-- A cursor over the bits of a payload. -/
structure BitReader where
  /-- The bytes that have not been fetched. -/
  bytes : List UInt8
  /-- The byte fetched last. -/
  current : UInt8 := 0
  /-- How many low bits of `current` are unread. -/
  left : Nat := 0
  /-- The number of zero bytes fetched in a row since the last dropped byte. -/
  zeroRun : Nat := 0
  /-- The number of emulation prevention bytes dropped so far. -/
  removed : Nat := 0
  /-- Whether emulation prevention bytes are to be dropped. -/
  escaped : Bool
  /-- The number of bits read so far. -/
  position : Nat := 0
  /-- The number of bytes of the whole payload, dropped ones included. -/
  size : Nat
  deriving DecidableEq, Repr

namespace BitReader

/-- A reader at the first bit of a payload. -/
def ofBytes (escaped : Bool) (bytes : List UInt8) : BitReader :=
  { bytes, escaped, size := bytes.length }

/-- Makes `byte` the current byte, all of it unread. -/
def load (r : BitReader) (zeroRun : Nat) (byte : UInt8) (rest : List UInt8) : BitReader :=
  { r with
    bytes := rest
    current := byte
    left := 8
    zeroRun := if byte = 0 then zeroRun + 1 else 0 }

/-- Fetches the next byte, dropping an emulation prevention byte before it.  A
dropped byte stays dropped when no byte follows it. -/
def fetch (r : BitReader) : Except ReadError Unit × BitReader :=
  match r.bytes with
  | [] => (.error .outOfBits, r)
  | byte :: rest =>
    if r.escaped ∧ 2 ≤ r.zeroRun ∧ byte = 3 then
      match rest with
      | [] => (.error .outOfBits, { r with bytes := [], removed := r.removed + 1 })
      | next :: rest => (.ok (), { r with removed := r.removed + 1 }.load 0 next rest)
    else (.ok (), r.load r.zeroRun byte rest)

/-- Fetches `count` bytes, each appended to the number `acc` read so far. -/
def gather : Nat → Nat → BitReader → Except ReadError Nat × BitReader
  | 0, acc, r => (.ok acc, r)
  | count + 1, acc, r =>
    match r.fetch with
    | (.error e, r) => (.error e, r)
    | (.ok _, r) => gather count (acc * 256 + r.current.toNat) r

/-- The number of bytes to fetch before `n` bits are at hand. -/
def bytesFor (r : BitReader) (n : Nat) : Nat := (n - r.left + 7) / 8

/-- Reads `n ≤ 32` bits as one number, the first bit being the highest. -/
def readBits (n : Nat) (r : BitReader) : Except ReadError Nat × BitReader :=
  if n > 32 then (.error (.tooManyBits n), r)
  else
    let count := r.bytesFor n
    let spare := r.left + 8 * count - n
    match gather count (r.current.toNat % pow2 r.left) r with
    | (.error e, r) => (.error e, r)
    | (.ok all, r) =>
      (.ok (all / pow2 spare), { r with left := spare, position := r.position + n })

/-- The number of bits that have not been read, dropped bytes ahead included. -/
def bitsLeft (r : BitReader) : Nat := r.bytes.length * 8 + r.left

/-- The number of whole bytes that have not been touched. -/
def bytesLeft (r : BitReader) : Nat := r.bitsLeft / 8

/-- Whether the next bit starts a byte. -/
def isAligned (r : BitReader) : Bool := r.left % 8 == 0

/-- Whether a one follows the next bit, as far as the raw bytes tell. -/
def oneAhead (r : BitReader) : Bool :=
  r.current.toNat % pow2 (r.left - 1) != 0 || r.bytes.any (· != 0)

/-- Whether payload data comes before the stop bit.  A fetch that this needs
stays done, and no byte at all means no data. -/
def moreData (r : BitReader) : Bool × BitReader :=
  if r.left = 0 then
    match r.fetch with
    | (.error _, r) => (false, r)
    | (.ok _, r) => (r.oneAhead, r)
  else (r.oneAhead, r)

/-- Skips to the next byte boundary and tells whether all skipped bits were zero. -/
def align (r : BitReader) : Bool × BitReader :=
  let skipped := r.left % 8
  (r.current.toNat % pow2 skipped == 0,
    { r with left := r.left - skipped, position := r.position + skipped })

/-- Reads single bits, at most `limit` of them, while there is more data. -/
def skipDataUpTo : Nat → BitReader → Except ReadError Unit × BitReader
  | 0, r => (.ok (), r)
  | limit + 1, r =>
    match r.moreData with
    | (false, r) => (.ok (), r)
    | (true, r) =>
      match r.readBits 1 with
      | (.error e, r) => (.error e, r)
      | (.ok _, r) => skipDataUpTo limit r

/-- Skips to the stop bit.  No more bits can be skipped than are left. -/
def skipData (r : BitReader) : Except ReadError Unit × BitReader :=
  skipDataUpTo r.bitsLeft r

/-- Refuses a reader that has decoded more bits than the payload holds once the
dropped bytes are taken out. -/
def checkOverrun (r : BitReader) : Except ReadError Unit :=
  let available := (r.size - r.removed) * 8
  if r.position > available then .error (.overrun r.position available) else .ok ()

end BitReader

end CodedVideo
