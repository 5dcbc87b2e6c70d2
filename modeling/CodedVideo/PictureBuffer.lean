import CodedVideo.Bits.Width
import CodedVideo.LayerTable
import CodedVideo.Picture

/-!
# The decoded picture buffer

The buffer holds the pictures that later ones may refer to, in the order in
which they were stored.  Pictures are told apart by a number given to them when
they are stored first; entries with the same number are the same picture, and
what happens to one happens to all of them.

`resolve` finds the pictures that the reference lists of a slice name.  A
long-term entry marks the picture it finds for long-term reference, and this
comes first, so that no short-term entry can pick that picture any more.
`update` resolves the lists of a picture and retires the pictures of its layer
that they do not name.
-/

namespace CodedVideo

/-- How an entry of a reference list names a picture. -/
inductive RefEntry where
  /-- By the distance of its order count from that of the short-term entry before. -/
  | shortTerm (delta : Int)
  /-- By the low part of its order count and, if given, how many ranges of the
  low part it lies back. -/
  | longTerm (lsb : Nat) (msbCycle : Option Nat)
  /-- By the reference layer in which it has the same order count. -/
  | interLayer (reference : Nat)
  deriving DecidableEq, Repr

/-- A reference list as it is signalled. -/
structure RefRequest where
  entries : List RefEntry := []
  /-- How many of the entries are used. -/
  active : Nat := 0
  deriving DecidableEq, Repr

/-- What a slice asks of the buffer. -/
structure RefQuery where
  /-- The order count of the current picture. -/
  orderCount : Int
  /-- The layer of the current picture. -/
  layer : Nat
  /-- The range of the low part of order counts. -/
  maxLsb : Nat
  /-- The layers of the bitstream, if they are known. -/
  layers : Option LayerTable
  /-- The two lists. -/
  list0 : RefRequest
  list1 : RefRequest

/-- The numbers of the pictures that the entries of a list name. -/
abbrev RefList := List (Option Nat)

/-- The pictures that the two lists of a slice name. -/
structure ResolvedLists where
  list0 : RefList
  list1 : RefList
  /-- Whether an active entry names no picture. -/
  missing : Bool
  deriving DecidableEq, Repr

/-- A picture in the buffer and its number. -/
structure StoredPicture where
  number : Nat
  picture : Picture
  deriving DecidableEq, Repr

/-- The pictures that later ones may refer to. -/
structure PictureBuffer where
  /-- The pictures in the order in which they were stored. -/
  entries : List StoredPicture := []
  /-- How many entries there may be. -/
  capacity : Nat := 0
  /-- The number of the next new picture. -/
  nextNumber : Nat := 0
  deriving DecidableEq, Repr

/-- A picture finds no place in the buffer. -/
inductive BufferError where
  | full
  deriving DecidableEq, Repr

/-- The text that reports a buffer error. -/
def BufferError.message : BufferError → String
  | full => "DPB is full"

/-- A count reduced to 32 bits in two's complement. -/
def wrapCount (value : Int) : Int := value.bmod (pow2 32)

namespace PictureBuffer

/-- The pictures in storage order. -/
def pictures (b : PictureBuffer) : List Picture := b.entries.map (·.picture)

/-- Changes all pictures. -/
def mapPictures (b : PictureBuffer) (f : Picture → Picture) : PictureBuffer :=
  { b with entries := b.entries.map fun e => { e with picture := f e.picture } }

/-- Changes the pictures whose numbers are listed. -/
def modify (b : PictureBuffer) (numbers : List Nat) (f : Picture → Picture) : PictureBuffer :=
  { b with entries := b.entries.map fun e =>
      if e.number ∈ numbers then { e with picture := f e.picture } else e }

/-- The number of the first picture with a property. -/
def findNumber (b : PictureBuffer) (p : Picture → Bool) : Option Nat :=
  (b.entries.find? fun e => p e.picture).map (·.number)

/-- The position of a picture. -/
def position? (b : PictureBuffer) (number : Nat) : Option Nat :=
  b.entries.findIdx? fun e => e.number == number

/-! ### Looking for pictures -/

/-- A reference picture of a layer with a given order count. -/
def findReference (b : PictureBuffer) (orderCount : Int) (layer : Nat) : Option Nat :=
  b.findNumber fun p => p.isReference && p.layer == layer && p.orderCount == orderCount

/-- A short-term reference picture of a layer with a given order count. -/
def findShortTerm (b : PictureBuffer) (orderCount : Int) (layer : Nat) : Option Nat :=
  b.findNumber fun p =>
    p.marking == .shortTerm && p.layer == layer && p.orderCount == orderCount

/-- The low part of an order count, masked in 32 bits. -/
def maskedCount (value : Int) (maxLsb : Nat) : Int :=
  (BitVec.ofInt 32 value &&& (BitVec.ofNat 32 maxLsb - 1)).toInt

/-- A reference picture of a layer whose order count has a given low part. -/
def findByLsb (b : PictureBuffer) (lsb : Int) (maxLsb layer : Nat) : Option Nat :=
  b.findNumber fun p =>
    p.isReference && p.layer == layer && maskedCount p.orderCount maxLsb == lsb

/-! ### Storing and dropping pictures -/

/-- Drops all pictures. -/
def clear (b : PictureBuffer) : PictureBuffer := { b with entries := [] }

/-- Drops the pictures that nobody waits for. -/
def removeDisposable (b : PictureBuffer) : PictureBuffer :=
  { b with entries := b.entries.filter fun e => !e.picture.isDisposable }

/-- Retires all pictures. -/
def retireAll (b : PictureBuffer) : PictureBuffer := b.mapPictures Picture.retire

/-- A decoded picture is a short-term reference for the pictures after it. -/
def asDecoded (p : Picture) : Picture := { p.mark .shortTerm with referenced := true }

/-- Stores a new picture. -/
def store (b : PictureBuffer) (p : Picture) : Except BufferError PictureBuffer :=
  if b.entries.length < b.capacity then
    .ok { b with
      entries := b.entries ++ [⟨b.nextNumber, asDecoded p⟩]
      nextNumber := b.nextNumber + 1 }
  else .error .full

/-- Stores a picture of the buffer once more. -/
def storeAgain (b : PictureBuffer) (e : StoredPicture) : Except BufferError PictureBuffer :=
  if b.entries.length < b.capacity then
    let b := b.modify [e.number] asDecoded
    .ok { b with entries := b.entries ++ [⟨e.number, asDecoded e.picture⟩] }
  else .error .full

/-! ### Reference lists -/

/-- The picture that a long-term entry names. -/
def findLongTerm (b : PictureBuffer) (q : RefQuery) (lsb : Nat) (msbCycle : Option Nat) :
    Option Nat :=
  let low : Int := (lsb % q.maxLsb : Nat)
  match msbCycle with
  | some cycle =>
    b.findReference (q.orderCount - q.orderCount % q.maxLsb - cycle * q.maxLsb + low) q.layer
  | none => b.findByLsb low q.maxLsb q.layer

/-- The picture that an inter-layer entry names. -/
def findInterLayer (b : PictureBuffer) (q : RefQuery) (reference : Nat) : Option Nat := do
  let layers ← q.layers
  let layer ← layers.referenceId? q.layer reference
  b.findReference q.orderCount layer

/-- The pictures that long-term entries name. -/
def longTermPicks (b : PictureBuffer) (q : RefQuery) (entries : List RefEntry) : List Nat :=
  entries.filterMap fun
    | .longTerm lsb msbCycle => b.findLongTerm q lsb msbCycle
    | _ => none

/-- Marks the pictures that long-term entries of either list name for long-term
reference. -/
def promote (b : PictureBuffer) (q : RefQuery) : PictureBuffer :=
  b.modify (b.longTermPicks q q.list0.entries ++ b.longTermPicks q q.list1.entries)
    (·.mark .longTerm)

/-- The pictures that entries name, the distance of the first short-term one
being counted from `base`. -/
def pickFrom (b : PictureBuffer) (q : RefQuery) : Int → List RefEntry → RefList
  | _, [] => []
  | base, .shortTerm delta :: rest =>
    let base := wrapCount (base + delta)
    b.findShortTerm base q.layer :: pickFrom b q base rest
  | base, .longTerm lsb msbCycle :: rest =>
    b.findLongTerm q lsb msbCycle :: pickFrom b q base rest
  | base, .interLayer reference :: rest =>
    b.findInterLayer q reference :: pickFrom b q base rest

/-- The pictures that the entries of a list name. -/
def pick (b : PictureBuffer) (q : RefQuery) (request : RefRequest) : RefList :=
  b.pickFrom q q.orderCount request.entries

/-- Whether an active entry names no picture. -/
def lacksActive (request : RefRequest) (list : RefList) : Bool :=
  (list.take request.active).any Option.isNone

/-- Resolves the reference lists of a slice. -/
def resolve (b : PictureBuffer) (q : RefQuery) : ResolvedLists × PictureBuffer :=
  let b := b.promote q
  let list0 := b.pick q q.list0
  let list1 := b.pick q q.list1
  ({ list0, list1, missing := lacksActive q.list0 list0 || lacksActive q.list1 list1 }, b)

/-- Retires all pictures because an IDR picture follows. -/
def flush (b : PictureBuffer) : PictureBuffer :=
  b.mapPictures fun p => { p.retire with beforeIdr := true }

/-- Retires the pictures of the current layer that the lists do not name, except
those that share the current order count. -/
def retireUnlisted (b : PictureBuffer) (q : RefQuery) (lists : ResolvedLists) : PictureBuffer :=
  { b with entries := b.entries.map fun e =>
      if some e.number ∈ lists.list0 ++ lists.list1 ∨ e.picture.layer ≠ q.layer
          ∨ e.picture.orderCount = q.orderCount then e
      else { e with picture := e.picture.retire } }

/-- Resolves the reference lists of a picture and marks the pictures of the buffer
accordingly.  With `flushing` all of them are retired beforehand. -/
def update (b : PictureBuffer) (flushing : Bool) (q : RefQuery) : ResolvedLists × PictureBuffer :=
  let b := if flushing then b.flush else b
  let (lists, b) := b.resolve q
  (lists, b.retireUnlisted q lists)

/-! ### Showing the buffer -/

/-- The order count, the layer and the marking of a picture. -/
def describePicture (p : Picture) : String :=
  "(" ++ toString p.orderCount ++ ", " ++ toString p.layer ++ ", " ++ p.marking.name ++ ")"

/-- The pictures and the capacity, on one line. -/
def describe (b : PictureBuffer) : String :=
  "Dpb \x7b pictures: [" ++ ", ".intercalate (b.pictures.map describePicture)
    ++ "], max_num_pics: " ++ toString b.capacity ++ " \x7d"

end PictureBuffer

end CodedVideo
