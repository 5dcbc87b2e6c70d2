import CodedVideo.Bits.Width

/-!
# Writing bits

A `BitWriter` packs bits into bytes, most significant bit first.  Bits that do
not fill a byte yet wait in a `PartialByte`, which `flush` pads with zeros.
-/

namespace CodedVideo

/-- The `n` low bits of `value`, the highest first. -/
def lowBits (n value : Nat) : List Bool :=
  (List.range n).reverse.map value.testBit

/-- The number that a list of bits denotes, the highest bit first. -/
def ofBits (bits : List Bool) : Nat :=
  bits.foldl (fun acc b => 2 * acc + b.toNat) 0

/-- What can go wrong while bits are written. -/
inductive BitWriteError where
  /-- More than 32 bits were given at once. -/
  | invalidBitCount
  deriving DecidableEq, Repr

/-- The text that reports a write error. -/
def BitWriteError.message : BitWriteError → String
  | .invalidBitCount => "invalid bit count"

/-- The bits of a byte that is being filled, oldest first; fewer than eight. -/
abbrev PartialByte := List Bool

namespace PartialByte

/-- The byte that the bits make once zeros fill it up. -/
def padded (bits : PartialByte) : UInt8 :=
  UInt8.ofNat (ofBits bits * pow2 (8 - bits.length))

/-- Adds a bit; the eighth one completes a byte. -/
def push (bits : PartialByte) (b : Bool) : PartialByte × Option UInt8 :=
  let all := bits ++ [b]
  if all.length = 8 then ([], some (padded all)) else (all, none)

/-- Adds bits in turn and returns the completed bytes. -/
def pushAll (bits : PartialByte) : List Bool → PartialByte × List UInt8
  | [] => (bits, [])
  | b :: rest =>
    let (bits, byte) := push bits b
    let (bits, bytes) := pushAll bits rest
    (bits, byte.toList ++ bytes)

/-- The bytes that are still to be written when no bit follows. -/
def drain (bits : PartialByte) : List UInt8 :=
  if bits = [] then [] else [padded bits]

end PartialByte

/-- A writer of bits into memory. -/
structure BitWriter where
  /-- The bytes written so far. -/
  out : Array UInt8 := #[]
  /-- The bits that wait for their byte to fill. -/
  pending : PartialByte := []
  deriving DecidableEq, Repr

namespace BitWriter

/-- Writes bits one after another. -/
def put (w : BitWriter) (bits : List Bool) : BitWriter :=
  let (pending, bytes) := w.pending.pushAll bits
  { out := w.out ++ bytes, pending }

/-- Writes the `n ≤ 32` low bits of a number. -/
def writeBits (n value : Nat) (w : BitWriter) : Except BitWriteError Nat × BitWriter :=
  if n > 32 then (.error .invalidBitCount, w) else (.ok n, w.put (lowBits n value))

/-- Writes the bits of an unfinished byte, padded with zeros. -/
def flush (w : BitWriter) : BitWriter :=
  { out := w.out ++ w.pending.drain, pending := [] }

/-- Whether bits wait for their byte to fill. -/
def hasPending (w : BitWriter) : Bool := !w.pending.isEmpty

end BitWriter

end CodedVideo
