import CodedVideo.Parse
import CodedVideo.Report

/-!
# Scaling lists

An adaptation parameter set may carry 28 scaling matrices: two of size 2, six of
size 4 and twenty of size 8, of which the last fourteen have a separate DC
coefficient.  Each is coded as differences, along the up-right diagonals, to a
prediction: a flat matrix or an earlier matrix of the same size.

Matrices 26 and 27 have no coefficients in the quadrant of high frequencies.
`ScalingLists.read` follows the syntax and reconstructs each matrix on the way.
-/

namespace CodedVideo

open Report (field row)

/-- One scaling matrix and how it was coded. -/
structure ScalingList where
  /-- The matrix is taken over from its prediction. -/
  copied : Bool := false
  /-- The matrix is coded as differences to another one. -/
  predicted : Bool := false
  /-- How many places before this matrix its reference lies. -/
  idDelta : Nat := 0
  /-- The coded difference of the DC coefficient. -/
  dcDelta : Int := 0
  /-- The coefficients, row by row. -/
  coefficients : Array Nat
  /-- The DC coefficient, if it is separate. -/
  dc : Option Nat
  deriving DecidableEq, Repr

/-- The scaling matrices by id. -/
structure ScalingLists where
  matrices : Array ScalingList := #[]
  deriving DecidableEq, Repr, Inhabited

namespace ScalingList

/-- The number of scaling matrices. -/
def count : Nat := 28

/-- The first matrix with a separate DC coefficient. -/
def firstDc : Nat := 14

/-- The width of matrix `id`. -/
def size (id : Nat) : Nat := if id < 2 then 2 else if id < 8 then 4 else 8

/-- How far before matrix `id` its reference can lie. -/
def maxDelta (id : Nat) : Nat := if id < 2 then id else if id < 8 then id - 2 else id - 8

/-- Whether matrix `id` is used for luma. -/
def isLuma (id : Nat) : Bool := id % 3 == 2 || id == 27

/-- The positions of a square block along its up-right diagonals, as pairs of
column and row. -/
def diagonals (size : Nat) : List (Nat × Nat) :=
  (List.range (2 * size - 1)).flatMap fun sum =>
    (List.range (sum + 1)).filterMap fun x =>
      if x < size ∧ sum - x < size then some (x, sum - x) else none

/-- Whether matrix `id` has no coefficient in column `x` and row `y`. -/
def isZeroed (id x y : Nat) : Bool := id > 25 && x ≥ 4 && y ≥ 4

/-- The separate DC coefficient of a flat matrix. -/
def flatDc (id : Nat) : Option Nat := if id < firstDc then none else some 16

/-- A matrix in which every coefficient is 16. -/
def flat (id : Nat) : ScalingList :=
  { coefficients := Array.replicate (size id * size id) 16, dc := flatDc id }

/-- The coefficient of matrix `id` in column `x` and row `y`. -/
def coefficient (list : ScalingList) (id x y : Nat) : Nat :=
  list.coefficients.getD (y * size id + x) 0

/-- What a matrix is predicted from: its coefficients and its DC coefficient. -/
structure Prediction where
  coefficients : Array Nat
  dc : Nat

/-- The prediction of matrix `id`, given the matrices before it. -/
def prediction (id : Nat) (copied predicted : Bool) (idDelta : Nat) (earlier : ScalingLists) :
    Prediction :=
  let constant (value : Nat) : Prediction :=
    { coefficients := Array.replicate (size id * size id) value, dc := value }
  if !copied && !predicted then constant 8
  else if idDelta = 0 then constant 16
  else
    match earlier.matrices[id - idDelta]? with
    | none => constant 16
    | some reference =>
      { coefficients := reference.coefficients
        dc := reference.dc.getD (reference.coefficients.getD 0 0) }

/-- Adds differences to the prediction of matrix `id`, one position after another,
modulo 256.  The result is put into `matrix`; a zero coefficient is refused. -/
def addDeltas (id : Nat) (base : Prediction) (matrix : Array Nat) :
    List ((Nat × Nat) × Int) → Except Fault (Array Nat)
  | [] => .ok matrix
  | ((x, y), delta) :: rest =>
    if isZeroed id x y then addDeltas id base matrix rest
    else
      let place := y * size id + x
      let value := ((base.coefficients.getD place 0 + delta) % 256).toNat
      if value = 0 then .error (.zeroCoefficient id x y)
      else addDeltas id base (matrix.setIfInBounds place value) rest

/-- The DC coefficient of matrix `id`, if it has one; zero is refused. -/
def addDc (id : Nat) (base : Prediction) (delta : Int) : Except Fault (Option Nat) :=
  if id < firstDc then .ok none
  else
    let value := ((base.dc + delta) % 256).toNat
    if value = 0 then .error (.zeroDc id) else .ok (some value)

/-- Matrix `id`, given what is coded of it.  The differences are listed along the
diagonals. -/
def reconstruct (id : Nat) (copied predicted : Bool) (idDelta : Nat) (dcDelta : Int)
    (deltas : List Int) (earlier : ScalingLists) : Except Fault ScalingList := do
  let base := prediction id copied predicted idDelta earlier
  let blank := Array.replicate (size id * size id) 0
  let coefficients ← addDeltas id base blank ((diagonals (size id)).zip deltas)
  let dc ← addDc id base dcDelta
  return { copied, predicted, idDelta, dcDelta, coefficients, dc }

/-- Reads the differences at some positions.  Each is coded relative to the one
before; a position without a coefficient repeats it. -/
def readDeltas (id : Nat) : List (Nat × Nat) → Int → Parse (List Int)
  | [], _ => return []
  | (x, y) :: rest, previous => do
    let step ← Parse.given (!isZeroed id x y) (Parse.seBetween (-128) 127)
    let deltas ← readDeltas id rest (previous + step)
    return (previous + step) :: deltas

/-- Reads matrix `id`, given the matrices before it.  Without chroma, only luma
matrices are coded and the others are flat. -/
def read (chroma : Bool) (id : Nat) (earlier : ScalingLists) : Parse ScalingList := do
  let coded := chroma || isLuma id
  let copied ← if coded then Parse.flag else pure true
  let predicted ← Parse.flagIf (coded && !copied)
  let idDelta ←
    Parse.given (coded && (copied || predicted) && id != 0 && id != 2 && id != 8)
      (Parse.ueMax (maxDelta id))
  let positions := diagonals (size id)
  let dcDelta ← Parse.given (!copied && id ≥ firstDc) (Parse.seBetween (-254) 254)
  let deltas ←
    if copied then pure (positions.map fun _ => 0) else readDeltas id positions dcDelta
  Parse.ofFault (reconstruct id copied predicted idDelta dcDelta deltas earlier)

end ScalingList

namespace ScalingLists

/-- The matrices when none is coded. -/
def flat : ScalingLists := ⟨((List.range ScalingList.count).map ScalingList.flat).toArray⟩

/-- Reads `remaining` matrices after the ones read so far. -/
def readMore (chroma : Bool) : Nat → ScalingLists → Parse ScalingLists
  | 0, lists => return lists
  | remaining + 1, lists => do
    let list ← ScalingList.read chroma lists.matrices.size lists
    readMore chroma remaining ⟨lists.matrices.push list⟩

/-- Reads all matrices. -/
def read (chroma : Bool) : Parse ScalingLists := readMore chroma ScalingList.count {}

/-- The coefficient of matrix `id` in column `x` and row `y`. -/
def coefficient (lists : ScalingLists) (id x y : Nat) : Nat :=
  ((lists.matrices[id]?).map fun list => list.coefficient id x y).getD 0

/-- The separate DC coefficient of matrix `id`, if it has one. -/
def dc? (lists : ScalingLists) (id : Nat) : Option Nat := (lists.matrices[id]?).bind (·.dc)

/-- The coding of the matrices and the matrices themselves, each as one byte per
coefficient. -/
instance : Reportable ScalingLists where
  report lists :=
    let all := lists.matrices.toList
    .group [
      row "scaling_list_copy_mode_flag" (all.map (·.copied)),
      row "scaling_list_pred_mode_flag" (all.map (·.predicted)),
      row "scaling_list_pred_id_delta" (all.map (·.idDelta)),
      row "scaling_list_dc_coef" ((all.drop ScalingList.firstDc).map (·.dcDelta)),
      field "matrices" (all.map fun list => Report.hex list.coefficients.toList),
      field "dc" (all.map (·.dc))]

end ScalingLists

end CodedVideo
