import CodedVideo.Parse
import CodedVideo.Report

/-!
# Reference list structures

A reference list structure names pictures by how they differ from the current
one: a picture of the same layer by the distance of the order counts, or by the
low bits of its order count, and a picture of another layer by the position of
that layer among the references of the current one.

Distances of the first kind add up along the list, from the current picture to
the first of them and from each to the next.  Structures of a sequence parameter
set are candidates, which pictures and slices select by index.
-/

namespace CodedVideo

open Report (field row)

/-- An entry of a reference list as it is coded. -/
inductive ListEntry where
  /-- The picture of the same time in a layer that the current one refers to. -/
  | interLayer (reference : Nat)
  /-- A short-term picture: the coded magnitude and the distance it stands for. -/
  | shortTerm (coded : Nat) (distance : Int)
  /-- A long-term picture, with the low bits of its order count unless a header
  gives them. -/
  | longTerm (lsb : Option Nat)
  deriving DecidableEq, Repr

namespace ListEntry

/-- Whether the entry names a long-term picture. -/
def isLongTerm : ListEntry → Bool
  | longTerm _ => true
  | _ => false

end ListEntry

/-- A list of references. -/
structure ListStructure where
  /-- Whether the low bits for long-term entries are left to the header. -/
  lsbInHeader : Bool := false
  entries : List ListEntry := []
  deriving DecidableEq, Repr

instance : Inhabited ListStructure := ⟨{}⟩

/-- What the coding of reference lists depends on. -/
structure ListRules where
  /-- Whether long-term pictures can be named. -/
  longTerm : Bool
  /-- Whether pictures of other layers can be named. -/
  interLayer : Bool
  /-- Whether a picture can be named twice in a row, with different weights. -/
  weighted : Bool
  /-- The number of low bits of an order count. -/
  lsbBits : Nat
  deriving DecidableEq, Repr

namespace ListStructure

/-- The largest number of entries of a list. -/
def maxEntries : Nat := 28

/-- The number of entries. -/
def size (s : ListStructure) : Nat := s.entries.length

/-- The low bits in the structure, in the order of the long-term entries. -/
def longTermLsbs (s : ListStructure) : List (Option Nat) :=
  s.entries.filterMap fun
    | .longTerm lsb => some lsb
    | _ => none

/-- The number of long-term entries. -/
def longTermCount (s : ListStructure) : Nat := s.longTermLsbs.length

/-- Reads the entry of an other layer, of which there are `references`. -/
def readInterLayer (references : Nat) : Parse ListEntry := do
  Parse.refuseIf (references == 0) .interLayerWithoutReference
  return .interLayer (← Parse.ueMax (references - 1))

/-- Reads a short-term entry.  A magnitude of zero stands for the distance one,
unless the picture may be named twice. -/
def readShortTerm (zeroAllowed : Bool) : Parse ListEntry := do
  let coded ← Parse.ueMax (pow2 15 - 1)
  let magnitude := if zeroAllowed then coded else coded + 1
  let negative ← Parse.flagIf (magnitude > 0)
  return .shortTerm coded (if negative then -(magnitude : Int) else magnitude)

/-- Reads the entry at a given index. -/
def readEntry (rules : ListRules) (references : Nat) (lsbInHeader : Bool) (index : Nat) :
    Parse ListEntry := do
  let interLayer ← Parse.flagIf rules.interLayer
  if interLayer then readInterLayer references
  else
    let shortTerm ← if rules.longTerm then Parse.flag else pure true
    if shortTerm then readShortTerm (rules.weighted && index != 0)
    else if lsbInHeader then return .longTerm none
    else return .longTerm (some (← Parse.u rules.lsbBits))

/-- Reads ref_pic_list_struct().  Only a candidate can carry low bits itself. -/
def read (rules : ListRules) (candidate : Bool) (references : Nat) : Parse ListStructure := do
  let count ← Parse.ueMax maxEntries
  let lsbInHeader ←
    if rules.longTerm && candidate && count > 0 then Parse.flag else pure true
  let entries ← Parse.collect count (readEntry rules references lsbInHeader)
  return { lsbInHeader, entries }

/-- A part of each entry, blank for the entries that lack it. -/
def column {α : Type} [Inhabited α] (s : ListStructure) (f : ListEntry → Option α) : List α :=
  s.entries.map fun entry => (f entry).getD default

instance : Reportable ListStructure where
  report s :=
    let lsbs := s.longTermLsbs.map (·.getD 0)
    .group [
      field "num_ref_entries" s.size,
      field "ltrp_in_header_flag" s.lsbInHeader,
      row "inter_layer_ref_pic_flag" (s.column fun
        | .interLayer _ => some true
        | _ => none),
      row "st_ref_pic_flag" (s.column fun
        | .shortTerm .. => some true
        | _ => none),
      row "abs_delta_poc_st" (s.column fun
        | .shortTerm coded _ => some coded
        | _ => none),
      row "strp_entry_sign_flag" (s.column fun
        | .shortTerm _ distance => some (decide (distance < 0))
        | _ => none),
      row "rpls_poc_lsb_lt" (lsbs ++ List.replicate (s.size - lsbs.length) 0),
      row "ilrp_idx" (s.column fun
        | .interLayer reference => some reference
        | _ => none),
      row "delta_poc_val_st" (s.column fun
        | .shortTerm _ distance => some distance
        | _ => none),
      field "num_ltrp_entries" s.longTermCount]

end ListStructure

end CodedVideo
