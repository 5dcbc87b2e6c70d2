import CodedVideo.Parse

/-!
# Chroma quantisation

A chroma QP is looked up in a table, which follows a curve.  A curve is coded by
pivots: it starts at a point of the diagonal, and each step moves it to the right
and up.  Between two pivots it is the line through them, rounded; it continues
diagonally on both sides, as far as the range of QPs allows.

The table is filled from the first pivot on, to the left and then line by line to
the right.  Each entry is found from one that has been filled before it.
-/

namespace CodedVideo

/-- A step from one pivot to the next. -/
structure QpStep where
  /-- One less than how far the luma QP moves. -/
  advanceMinus1 : Nat
  /-- How the chroma QP differs from that, bit by bit. -/
  difference : Nat
  deriving DecidableEq, Repr

namespace QpStep

/-- How far the luma QP moves. -/
def advance (s : QpStep) : Nat := s.advanceMinus1 + 1

/-- How far the chroma QP moves. -/
def rise (s : QpStep) : Nat := s.advanceMinus1 ^^^ s.difference

end QpStep

/-- A curve from luma to chroma QPs. -/
structure QpCurve where
  /-- The first pivot, counted from 26. -/
  startMinus26 : Int := 0
  steps : List QpStep := []
  deriving DecidableEq, Repr

/-- The largest QP. -/
def maxQp : Int := 63

/-- The QPs from `lowest` to the largest one. -/
def qpRange (lowest : Int) : List Int :=
  (List.range (maxQp + 1 - lowest).toNat).map fun (i : Nat) => lowest + i

/-! ### Tables -/

namespace QpTable

/-- Where the entry for a QP stands in a table. -/
def place (lowest qp : Int) : Nat := (qp - lowest).toNat

/-- The entry for a QP. -/
def entry (lowest : Int) (table : List Int) (qp : Int) : Int := table.getD (place lowest qp) 0

/-- Fills the entry for a QP. -/
def fill (lowest : Int) (table : List Int) (qp value : Int) : List Int :=
  table.set (place lowest qp) value

/-- A value moved into the range of QPs. -/
def clip (lowest value : Int) : Int := max lowest (min maxQp value)

/-- A table in which nothing has been filled. -/
def blank (lowest : Int) : List Int := List.replicate (maxQp + 1 - lowest).toNat 0

/-- Fills the entries to the left of a QP, each with one less than the entry to its
right. -/
def fillLeft (lowest qp : Int) (table : List Int) : List Int :=
  (List.range (qp - lowest).toNat).foldl (fun table (i : Nat) =>
    let next := qp - 1 - i
    fill lowest table next (clip lowest (entry lowest table (next + 1) - 1))) table

/-- Fills the entries to the right of a QP, each with one more than the entry to its
left. -/
def fillRight (lowest qp : Int) (table : List Int) : List Int :=
  (List.range (maxQp - qp).toNat).foldl (fun table (i : Nat) =>
    let next := qp + 1 + i
    fill lowest table next (clip lowest (entry lowest table (next - 1) + 1))) table

/-- Fills the entries from the pivot with luma QP `input` to the next pivot. -/
def fillLine (lowest input : Int) (step : QpStep) (table : List Int) : List Int :=
  (List.range step.advance).foldl (fun table (i : Nat) =>
    let rounded := (step.rise * (i + 1) + step.advance / 2) / step.advance
    fill lowest table (input + 1 + i) (entry lowest table input + rounded)) table

/-- Fills the entries to the right of the pivot with luma QP `input`. -/
def fillSteps (lowest : Int) : Int → List QpStep → List Int → List Int
  | input, [], table => fillRight lowest input table
  | input, step :: rest, table =>
    fillSteps lowest (input + step.advance) rest (fillLine lowest input step table)

end QpTable

/-! ### Curves -/

namespace QpCurve

/-- The first pivot. -/
def start (c : QpCurve) : Int := c.startMinus26 + 26

/-- The pivots after a given one. -/
def pivotsFrom : Int × Int → List QpStep → List (Int × Int)
  | _, [] => []
  | (input, output), step :: rest =>
    let next := (input + step.advance, output + step.rise)
    next :: pivotsFrom next rest

/-- The pivots of a curve. -/
def pivots (c : QpCurve) : List (Int × Int) :=
  (c.start, c.start) :: pivotsFrom (c.start, c.start) c.steps

/-- Whether all pivots lie in the range of QPs from `lowest` on. -/
def fits (lowest : Int) (c : QpCurve) : Bool :=
  c.pivots.all fun (input, output) => input ≤ maxQp && lowest ≤ output && output ≤ maxQp

/-- The table of a curve whose pivots lie in the range of QPs from `lowest` on. -/
def table (lowest : Int) (c : QpCurve) : List Int :=
  let first := QpTable.fill lowest (QpTable.blank lowest) c.start c.start
  QpTable.fillSteps lowest c.start c.steps (QpTable.fillLeft lowest c.start first)

/-- Reads the curve with a given index. -/
def read (lowest : Int) : Parse QpCurve := do
  let startMinus26 ← Parse.seBetween (lowest - 26) 36
  let countMinus1 ← Parse.ueMax (36 - startMinus26).toNat
  let steps ← Parse.collect (countMinus1 + 1) fun _ => do
    let advanceMinus1 ← Parse.ueMax 63
    let difference ← Parse.ueMax 63
    return { advanceMinus1, difference : QpStep }
  return { startMinus26, steps }

/-- The index of the first curve that leaves the range of QPs. -/
def findUnfit (lowest : Int) (curves : List QpCurve) : Option Nat :=
  curves.findIdx? fun c => !c.fits lowest

/-- Reads curves, all of which have to stay in the range of QPs. -/
def readAll (lowest : Int) (count : Nat) : Parse (List QpCurve) := do
  let curves ← Parse.collect count fun _ => read lowest
  Parse.ofFault ((findUnfit lowest curves).elim (.ok curves) (.error ∘ .chromaQpTable))

end QpCurve

/-- The QP mapping of the three kinds of chroma residuals.  Kinds beyond the coded
curves share the last one; without chroma there is no curve and the QPs are equal. -/
structure ChromaQp where
  joint : Bool := false
  same : Bool := false
  curves : List QpCurve := []
  deriving DecidableEq, Repr

instance : Inhabited ChromaQp := ⟨{}⟩

namespace ChromaQp

/-- The number of kinds of chroma residuals. -/
def kinds : Nat := 3

/-- Reads the mapping of a sequence with chroma. -/
def read (lowest : Int) : Parse ChromaQp := do
  let joint ← Parse.flag
  let same ← Parse.flag
  let curves ← QpCurve.readAll lowest (if same then 1 else if joint then 3 else 2)
  return { joint, same, curves }

/-- The curve for a kind of chroma residuals. -/
def curve? (m : ChromaQp) (kind : Nat) : Option QpCurve := m.curves[min kind (m.curves.length - 1)]?

/-- The table for a kind of chroma residuals, from the lowest QP on. -/
def table (lowest : Int) (m : ChromaQp) (kind : Nat) : List Int :=
  ((m.curve? kind).map (·.table lowest)).getD (qpRange lowest)

/-- The chroma QP of a kind of residuals: the entry for a luma QP, if there is one. -/
def value? (lowest : Int) (m : ChromaQp) (kind : Nat) (qp : Int) : Option Int :=
  if kind < kinds ∧ lowest ≤ qp then (m.table lowest kind)[QpTable.place lowest qp]? else none

end ChromaQp

end CodedVideo
