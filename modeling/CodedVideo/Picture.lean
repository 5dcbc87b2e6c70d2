import CodedVideo.Nal.Kind

/-!
# Decoded pictures

What is kept of a picture for reference management: how it is identified, how
it is marked, and whether it is still waited for.

`mark` takes a reference when a picture becomes used for reference and releases
it when the picture stops being so.  A release without a reference is ignored.
-/

namespace CodedVideo

/-- What a picture may be used for as a reference. -/
inductive Marking where
  | unused
  | shortTerm
  | longTerm
  deriving DecidableEq, Repr, Inhabited

/-- The name under which reports mention a marking. -/
def Marking.name : Marking → String
  | unused => "None"
  | shortTerm => "ShortTerm"
  | longTerm => "LongTerm"

/-- A picture as reference management sees it. -/
structure Picture where
  /-- The kind of the first slice. -/
  kind : Nal.Kind := .trail
  /-- The layer of the picture. -/
  layer : Nat := 0
  /-- The low part of the order count. -/
  lsb : Nat := 0
  /-- The order count. -/
  orderCount : Int := 0
  /-- Whether no other picture refers to this one. -/
  nonReference : Bool := false
  /-- Whether the picture is to be output. -/
  output : Bool := false
  /-- Whether pictures before this one are dropped without output. -/
  noOutputOfPrior : Bool := false
  /-- What the picture may be used for. -/
  marking : Marking := .unused
  /-- Whether a later picture may still refer to this one. -/
  referenced : Bool := false
  /-- The number of references taken. -/
  references : Nat := 0
  /-- Whether an IDR picture followed. -/
  beforeIdr : Bool := false
  /-- Whether an active reference could not be found. -/
  missingReference : Bool := false
  /-- Whether the picture has been handed out for display. -/
  displayed : Bool := false
  /-- Whether the picture has been output. -/
  outputDone : Bool := false
  deriving DecidableEq, Repr, Inhabited

namespace Picture

/-- Whether the picture is marked for short-term or long-term reference. -/
def isReference (p : Picture) : Bool := p.marking != .unused

/-- Takes a reference. -/
def retain (p : Picture) : Picture := { p with references := p.references + 1 }

/-- Releases a reference, if there is one. -/
def release (p : Picture) : Picture := { p with references := p.references - 1 }

/-- Changes the marking alone. -/
def setMarking (p : Picture) (marking : Marking) : Picture := { p with marking }

/-- Changes the marking and takes or releases a reference along with it. -/
def mark (p : Picture) (marking : Marking) : Picture :=
  let marked := p.setMarking marking
  match p.isReference, marked.isReference with
  | false, true => marked.retain
  | true, false => marked.release
  | _, _ => marked

/-- Marks the picture as unused, now and for later pictures. -/
def retire (p : Picture) : Picture := { p.mark .unused with referenced := false }

/-- Whether the picture can be dropped. -/
def isDisposable (p : Picture) : Bool :=
  p.references == 0 && p.displayed && p.outputDone && !p.isReference

end Picture

end CodedVideo
