import CodedVideo.Fault

/-!
# Picture order counts

A picture carries the low bits of its order count.  `orderCount` finds the high
ones: they are transmitted, or zero at the start of a sequence, or else chosen
such that the count comes closest to that of the previous picture, a distance
of half the range counting as a step forward.

`OrderCounter` follows the previous picture through a sequence.  Only pictures
of the lowest temporal sublayer that others may refer to count as previous ones.
-/

namespace CodedVideo

/-- The low bits of a count below `maxLsb`, taken in two's complement. -/
def lowCount (value : Int) (maxLsb : Nat) : Int :=
  (BitVec.ofInt 64 value &&& BitVec.ofInt 64 ((maxLsb : Int) - 1)).toInt

/-- The high part of a count whose low part is `lsb`, next to a previous count. -/
def countNear (lsb maxLsb : Nat) (previous : Int) : Int :=
  let previousLow := lowCount previous maxLsb
  let previousHigh := previous - previousLow
  if lsb < previousLow ∧ previousLow - lsb ≥ (maxLsb / 2 : Nat) then previousHigh + maxLsb
  else if lsb > previousLow ∧ lsb - previousLow > (maxLsb / 2 : Nat) then previousHigh - maxLsb
  else previousHigh

/-- The order count of a picture.  It has to fit in 32 bits. -/
def orderCount (lsb maxLsb : Nat) (msbCycle : Option Nat) (previous : Option Int) :
    Except Fault Int :=
  let high : Int :=
    match msbCycle, previous with
    | some cycle, _ => cycle * maxLsb
    | none, none => 0
    | none, some previous => countNear lsb maxLsb previous
  let value := high + lsb
  if -(pow2 31 : Int) ≤ value ∧ value < pow2 31 then .ok value else .error (.orderCountRange value)

/-- What the order count of a picture depends on, the previous picture apart. -/
structure OrderInfo where
  /-- The kind of the first slice. -/
  kind : Nal.Kind
  /-- The temporal sublayer. -/
  temporalId : Nat
  /-- The low part of the count. -/
  lsb : Nat
  /-- The high part in units of `maxLsb`, if it is transmitted. -/
  msbCycle : Option Nat
  /-- Whether no other picture refers to this one. -/
  nonReference : Bool

/-- Whether later pictures count from this one. -/
def OrderInfo.precedesOthers (info : OrderInfo) : Bool :=
  info.temporalId == 0 && info.kind != .rasl && info.kind != .radl && !info.nonReference

/-- The order count of the previous picture, if the sequence has one. -/
structure OrderCounter where
  previous : Option Int := none
  deriving DecidableEq, Repr

namespace OrderCounter

/-- Forgets the previous picture, so that a new sequence starts. -/
def reset (_ : OrderCounter) : OrderCounter := {}

/-- The order count of the next picture, and the counter after it.  On an error
the counter stays as it is. -/
def next (counter : OrderCounter) (maxLsb : Nat) (info : OrderInfo) :
    Except Fault Int × OrderCounter :=
  let previous := if info.kind.isIdr then none else counter.previous
  match orderCount info.lsb maxLsb info.msbCycle previous with
  | .error e => (.error e, counter)
  | .ok value => (.ok value, if info.precedesOthers then ⟨some value⟩ else counter)

end OrderCounter

end CodedVideo
