import CodedVideo.Fault

/-!
# Descriptions of syntax structures

A `Parse α` is what a syntax structure asks of a bit reader before it yields an
`α`: read so many bits, tell whether more data follows, align, and so on, each
request followed by what to do with the answer.  It says nothing about how the
bits are stored.  `Parse.run` answers the requests from a `BitReader`.

Since a description is data, a fact that holds of every request holds of every
structure, by one induction.

The descriptors of the syntax tables are built on the requests: `u` for u(n),
`ue` for ue(v) and `se` for se(v), each also with a range that the value must
lie in.
-/

namespace CodedVideo

/-- What a syntax structure asks of a bit reader before it yields a value. -/
inductive Parse (α : Type) : Type where
  /-- Nothing more is asked. -/
  | done (value : α)
  /-- The structure is refused. -/
  | fail (error : ParseError)
  /-- The next bits are read as one number. -/
  | bits (count : Nat) (next : Nat → Parse α)
  /-- Is there data before the stop bit? -/
  | moreData (next : Bool → Parse α)
  /-- The rest of the byte is skipped; were its bits all zero? -/
  | align (next : Bool → Parse α)
  /-- The data before the stop bit is skipped. -/
  | skipData (next : Parse α)
  /-- How many bits have been read? -/
  | position (next : Nat → Parse α)
  /-- The bits read are checked against the size of the payload. -/
  | checkOverrun (next : Parse α)

namespace Parse

variable {α β : Type}

/-- One structure after another. -/
protected def bind : Parse α → (α → Parse β) → Parse β
  | done value, f => f value
  | fail error, _ => fail error
  | bits count next, f => bits count fun value => (next value).bind f
  | moreData next, f => moreData fun answer => (next answer).bind f
  | align next, f => align fun zero => (next zero).bind f
  | skipData next, f => skipData (next.bind f)
  | position next, f => position fun value => (next value).bind f
  | checkOverrun next, f => checkOverrun (next.bind f)

instance : Monad Parse where
  pure := done
  bind := Parse.bind

/-- Answers the requests from a bit reader.  The reader is returned as it was
left, also when the structure is refused. -/
def run : Parse α → BitReader → Except ParseError α × BitReader
  | done value, r => (.ok value, r)
  | fail error, r => (.error error, r)
  | bits count next, r =>
    match r.readBits count with
    | (.ok value, r) => (next value).run r
    | (.error e, r) => (.error (.read e), r)
  | moreData next, r =>
    let (answer, r) := r.moreData
    (next answer).run r
  | align next, r =>
    let (zero, r) := r.align
    (next zero).run r
  | skipData next, r =>
    match r.skipData with
    | (.ok _, r) => next.run r
    | (.error e, r) => (.error (.read e), r)
  | position next, r => (next r.position).run r
  | checkOverrun next, r =>
    match r.checkOverrun with
    | .ok _ => next.run r
    | .error e => (.error (.read e), r)

/-- Refuses the structure for breaking a rule. -/
def invalid (fault : Fault) : Parse α := fail (.invalid fault)

/-- Refuses the structure if a rule is broken. -/
def refuseIf (broken : Bool) (fault : Fault) : Parse Unit :=
  if broken then invalid fault else done ()

/-- Goes on with a value, or refuses the structure for breaking a rule. -/
def ofFault : Except Fault α → Parse α
  | .ok value => done value
  | .error fault => invalid fault

/-- Goes on with a partition, or refuses the structure. -/
def ofPartition (result : Except PartitionError α) : Parse α :=
  ofFault (result.mapError .partition)

/-- Goes on with a referenced structure, or refuses one that has not been received. -/
def ofReference (reference : Reference) (id : Nat) : Option α → Parse α
  | some value => done value
  | none => fail (.missing reference id)

/-- Reads the structure if `present`, and otherwise infers its default value. -/
def given [Inhabited α] (present : Bool) (p : Parse α) : Parse α :=
  if present then p else done default

/-- Reads structures for the indices `start`, `start + 1`, … after those in `read`,
the last of which comes first there. -/
def collectOnto (p : Nat → Parse α) : (read : List α) → (start count : Nat) → Parse (List α)
  | read, _, 0 => done read.reverse
  | read, start, count + 1 => do
    let value ← p start
    collectOnto p (value :: read) (start + 1) count

/-- Reads structures for the indices `start`, `start + 1`, … -/
def collectFrom (p : Nat → Parse α) (start count : Nat) : Parse (List α) :=
  collectOnto p [] start count

/-- Reads `count` structures, which may depend on their indices. -/
def collect (count : Nat) (p : Nat → Parse α) : Parse (List α) := collectFrom p 0 count

/-! ### Descriptors -/

/-- Refuses a value outside a range. -/
def inRange (lo hi value : Int) : Parse Unit :=
  if lo ≤ value ∧ value ≤ hi then done () else fail (.read (.outOfRange value lo hi))

/-- A number of `n` bits, u(n). -/
def u (n : Nat) : Parse Nat := bits n done

/-- A number of `n` bits that is at most `hi`. -/
def uMax (n hi : Nat) : Parse Nat := do
  let value ← u n
  inRange 0 hi value
  return value

/-- A flag, u(1). -/
def flag : Parse Bool := do
  let bit ← u 1
  return bit == 1

/-- A flag that is inferred to be off unless it is present. -/
def flagIf (present : Bool) : Parse Bool := given present flag

/-- Skips `n` bits, at most 32 at a time. -/
def skip (n : Nat) : Parse Unit := do
  let _ ← collect (n / 32) fun _ => u 32
  let _ ← u (n % 32)
  return ()

/-- Counts the zero bits before a one, given that `zeros` have been read.  A
33rd zero is one too many. -/
def leadingZeros (zeros : Nat) : Nat → Parse Nat
  | 0 => fail (.read .expGolombOverflow)
  | limit + 1 => do
    let one ← flag
    if one then return zeros else leadingZeros (zeros + 1) limit

/-- An unsigned Exp-Golomb codeword, ue(v), of a number below 2^32. -/
def ue : Parse Nat := do
  let zeros ← leadingZeros 0 33
  let suffix ← u zeros
  let value := pow2 zeros - 1 + suffix
  if value < pow2 32 then return value else fail (.read .expGolombOverflow)

/-- An unsigned Exp-Golomb codeword of a number between `lo` and `hi`. -/
def ueBetween (lo hi : Nat) : Parse Nat := do
  let value ← ue
  inRange lo hi value
  return value

/-- An unsigned Exp-Golomb codeword of a number that is at most `hi`. -/
def ueMax (hi : Nat) : Parse Nat := ueBetween 0 hi

/-- The value that a code number denotes: odd ones are positive and even ones are
not, and the magnitudes grow. -/
def signedValue (code : Nat) : Int :=
  if code % 2 = 0 then -(code / 2 : Nat) else ((code + 1) / 2 : Nat)

/-- A signed Exp-Golomb codeword, se(v), of a number below 2^31. -/
def se : Parse Int := do
  let code ← ue
  let value := signedValue code
  if value < pow2 31 then return value else fail (.read .conversionFailed)

/-- A signed Exp-Golomb codeword of a number between `lo` and `hi`. -/
def seBetween (lo hi : Int) : Parse Int := do
  let value ← se
  inRange lo hi value
  return value

/-- Refuses a value that does not fit in an integer type with the given range. -/
def fit (lo hi value : Int) : Parse Int :=
  if lo ≤ value ∧ value ≤ hi then done value else fail (.read .conversionFailed)

/-- A stop bit and the bits up to the next byte boundary, whatever these are. -/
def trailingBits : Parse Unit := do
  let stop ← flag
  inRange 1 1 (if stop then 1 else 0)
  let _ ← align done
  return ()

/-- Extension data, if its flag is set. -/
def extension : Parse Bool := do
  let announced ← flag
  if announced then skipData (done ())
  return announced

/-- The end of a payload. -/
def finish : Parse Unit := do
  trailingBits
  checkOverrun (done ())

/-- The elements of a parameter set and its end, where extension data may come.  Their
flag is noted. -/
def withExtension (elements : Parse α) (note : α → Bool → α) : Parse α := do
  let set ← elements
  let announced ← extension
  finish
  return note set announced

end Parse

end CodedVideo
