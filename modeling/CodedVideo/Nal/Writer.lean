import CodedVideo.Bits.Writer
import CodedVideo.Nal.Kind

/-!
# Writing NAL units

A `Writer` packs fixed-length fields and Exp-Golomb codewords into bytes and,
if asked to, keeps start codes out of them: two zero bytes are never followed
by a byte below four, because a byte `03` is put between.  To see such a run
coming it holds the last two bytes back in `delayed`.
-/

namespace CodedVideo.Nal

/-- The Exp-Golomb codeword of a number: one zero less than the successor has
digits, then the successor in binary. -/
def expGolombBits (value : Nat) : List Bool :=
  let digits := (value + 1).log2 + 1
  List.replicate (digits - 1) false ++ lowBits digits (value + 1)

/-- The code number of a signed value: `2v - 1` for a positive one and `-2v`
for any other. -/
def signedCode (value : Int) : Nat :=
  if value ≤ 0 then 2 * value.natAbs else 2 * value.natAbs - 1

/-- What can go wrong while a NAL unit is written. -/
inductive WriteError where
  /-- The code number of a signed value does not fit in 32 bits. -/
  | overflow
  /-- The bits themselves cannot be written. -/
  | bits (error : BitWriteError)
  deriving DecidableEq, Repr

/-- The text that reports a write error. -/
def WriteError.message : WriteError → String
  | .overflow => "value increment caused value overflow"
  | .bits e => e.message

/-- A writer of NAL units into memory. -/
structure Writer where
  /-- The bytes that have reached memory. -/
  out : Array UInt8 := #[]
  /-- Bytes held back, oldest first; at most two. -/
  delayed : List UInt8 := []
  /-- The bits that wait for their byte to fill. -/
  pending : PartialByte := []
  /-- Whether emulation prevention bytes are inserted. -/
  escaped : Bool
  deriving DecidableEq, Repr

namespace Writer

/-- Passes a byte on, with emulation prevention if that is asked for. -/
def putByte (w : Writer) (byte : UInt8) : Writer :=
  if w.escaped then
    match w.delayed with
    | [first, second] =>
      if first = 0 ∧ second = 0 ∧ byte ≤ 3 then
        { w with out := w.out ++ [0, 0, 3, byte], delayed := [] }
      else { w with out := w.out.push first, delayed := [second, byte] }
    | delayed => { w with delayed := delayed ++ [byte] }
  else { w with out := w.out.push byte }

/-- Writes bits one after another. -/
def put (w : Writer) (bits : List Bool) : Writer :=
  let (pending, bytes) := w.pending.pushAll bits
  bytes.foldl putByte { w with pending }

/-- Writes out everything that is held back, an unfinished byte padded with zeros. -/
def flush (w : Writer) : Writer :=
  let w := w.pending.drain.foldl putByte { w with pending := [] }
  { w with out := w.out ++ w.delayed, delayed := [] }

/-- Writes the `n ≤ 32` low bits of a number. -/
def writeBits (n value : Nat) (w : Writer) : Except WriteError Nat × Writer :=
  if n > 32 then (.error (.bits .invalidBitCount), w) else (.ok n, w.put (lowBits n value))

/-- Writes an unsigned Exp-Golomb codeword. -/
def writeUnsigned (value : Nat) (w : Writer) : Writer := w.put (expGolombBits value)

/-- Writes a signed Exp-Golomb codeword.  The code number of `-2^31` needs 33 bits
and is refused. -/
def writeSigned (value : Int) (w : Writer) : Except WriteError PUnit × Writer :=
  if signedCode value < pow2 32 then (.ok ⟨⟩, w.writeUnsigned (signedCode value))
  else (.error .overflow, w)

/-- Whether the next bit starts a byte. -/
def isAligned (w : Writer) : Bool := w.pending.isEmpty

/-- Writes a stop bit and zeros up to the next byte boundary. -/
def writeTrailing (w : Writer) : Writer :=
  w.put (true :: List.replicate (7 - w.pending.length) false)

/-- Whether anything is held back. -/
def hasPending (w : Writer) : Bool := !w.isAligned || !w.delayed.isEmpty

/-- Writes a start code and a header, past emulation prevention. -/
def writeHeader (layer : Nat) (kind : Kind) (temporalIdPlus1 : Nat) (w : Writer) : Writer :=
  let w := w.flush
  { w with
    out := w.out ++ [0, 0, 0, 1, UInt8.ofNat (layer % 64),
      UInt8.ofNat (kind.code * 8 + temporalIdPlus1 % 8)] }

end Writer

end CodedVideo.Nal
