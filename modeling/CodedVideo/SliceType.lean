/-!
# Slice types

A slice predicts from two lists of pictures, from one, or from none.
-/

namespace CodedVideo

/-- How many reference picture lists a slice predicts from. -/
inductive SliceType where
  /-- Two lists. -/
  | b
  /-- One list. -/
  | p
  /-- No list. -/
  | i
  deriving DecidableEq, Repr

namespace SliceType

/-- The type with a given code. -/
def ofCode? : Nat → Option SliceType
  | 0 => some b
  | 1 => some p
  | 2 => some i
  | _ => none

/-- The name under which reports mention a type. -/
def name : SliceType → String
  | b => "B"
  | p => "P"
  | i => "I"

/-- The number of lists that a slice predicts from. -/
def lists : SliceType → Nat
  | b => 2
  | p => 1
  | i => 0

/-- A slice without a type of its own is an I slice. -/
instance : Inhabited SliceType := ⟨i⟩

end SliceType

end CodedVideo
