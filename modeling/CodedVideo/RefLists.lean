import CodedVideo.Bits.Width
import CodedVideo.PictureBuffer
import CodedVideo.RefLists.Structure

/-!
# Reference lists of a header

A picture or slice header has two reference lists.  For each it selects a
candidate of the sequence parameter set or gives a structure of its own, and it
completes the order counts of the long-term entries: the low bits where the
structure leaves them out and, on demand, the high part as a distance from the
current picture.  The distances add up along the list.
-/

namespace CodedVideo

open Report (field row)

/-- What a header adds to a long-term entry. -/
structure LongTermCount where
  /-- The low bits, if the header gives them. -/
  codedLsb : Option Nat
  /-- The step of the high part, if the header gives it. -/
  codedCycle : Option Nat
  /-- The low bits that apply. -/
  lsb : Nat
  /-- The distance of the high part from that of the current picture. -/
  cycle : Nat
  deriving DecidableEq, Repr

/-- One reference list of a header. -/
structure HeaderList where
  /-- The index of the selected candidate, if one is selected. -/
  candidate : Option Nat := none
  /-- The index of the structure; one after the last candidate is the header's own. -/
  index : Nat := 0
  content : ListStructure := {}
  longTerm : List LongTermCount := []
  deriving DecidableEq, Repr

/-- The two reference lists of a header. -/
structure RefLists where
  list0 : HeaderList := {}
  list1 : HeaderList := {}
  deriving DecidableEq, Repr

instance : Inhabited RefLists := ⟨{}⟩

namespace HeaderList

/-- The number of entries. -/
def size (l : HeaderList) : Nat := l.content.size

/-- The entries as the picture buffer looks for them, given what the header adds
to the long-term ones. -/
def completeEntries : List LongTermCount → List ListEntry → List RefEntry
  | _, [] => []
  | counts, .interLayer reference :: rest =>
    .interLayer reference :: completeEntries counts rest
  | counts, .shortTerm _ distance :: rest => .shortTerm distance :: completeEntries counts rest
  | [], .longTerm _ :: rest => .longTerm 0 none :: completeEntries [] rest
  | count :: counts, .longTerm _ :: rest =>
    .longTerm count.lsb (count.codedCycle.map fun _ => count.cycle)
      :: completeEntries counts rest

/-- The entries as the picture buffer looks for them. -/
def refEntries (l : HeaderList) : List RefEntry :=
  completeEntries l.longTerm l.content.entries

/-- Reads what a header adds to the long-term entries, whose low bits are `lsbs` as
far as the structure has them.  The high parts add up in 32 bits. -/
def readLongTerm (lsbBits : Nat) : Nat → List (Option Nat) → Parse (List LongTermCount)
  | _, [] => return []
  | previous, held :: rest => do
    let codedLsb ←
      match held with
      | some _ => pure none
      | none => some <$> Parse.u lsbBits
    let codedCycle ←
      if ← Parse.flag then some <$> Parse.ueMax (pow2 (32 - lsbBits)) else pure none
    let cycle := min (codedCycle.getD 0 + previous) (pow2 32 - 1)
    let others ← readLongTerm lsbBits cycle rest
    return { codedLsb, codedCycle, lsb := (held <|> codedLsb).getD 0, cycle } :: others

/-- Reads the list with number `list`.  Unless its choice is coded, it follows that
of the list before, `previous`. -/
def read (rules : ListRules) (candidates : List ListStructure) (references list : Nat)
    (choiceCoded : Bool) (previous : HeaderList) : Parse HeaderList := do
  let count := candidates.length
  let select ←
    if count > 0 && choiceCoded then Parse.flag
    else pure (count > 0 && previous.candidate.isSome)
  if select then
    let index ←
      if count > 1 then
        if choiceCoded then Parse.uMax (ceilLog2 count) (count - 1)
        else pure (previous.candidate.getD 0)
      else pure 0
    let content ←
      Parse.ofFault (candidates[index]?.elim (.error (.missingListCandidate list index)) .ok)
    let longTerm ← readLongTerm rules.lsbBits 0 content.longTermLsbs
    return { candidate := some index, index, content, longTerm }
  else
    let content ← ListStructure.read rules false references
    let longTerm ← readLongTerm rules.lsbBits 0 content.longTermLsbs
    return { candidate := none, index := count, content, longTerm }

end HeaderList

namespace RefLists

/-- Reads ref_pic_lists(). -/
def read (rules : ListRules) (candidates0 candidates1 : List ListStructure)
    (choice1Coded : Bool) (references : Nat) : Parse RefLists := do
  let list0 ← HeaderList.read rules candidates0 references 0 true {}
  let list1 ← HeaderList.read rules candidates1 references 1 choice1Coded list0
  return { list0, list1 }

/-- The two lists. -/
def lists (r : RefLists) : List HeaderList := [r.list0, r.list1]

/-- A part of the long-term entries of both lists. -/
def longTermRow {α : Type} [Reportable α] (r : RefLists) (label : String)
    (f : LongTermCount → α) : String × Report :=
  (label, .table (r.lists.map fun l => .table (l.longTerm.map fun count => report (f count))))

instance : Reportable RefLists where
  report r := .group [
    row "rpl_sps_flag" (r.lists.map (·.candidate.isSome)),
    row "rpl_idx" (r.lists.map (·.candidate.getD 0)),
    row "rpl" (r.lists.map (·.content)),
    row "rpls_idx" (r.lists.map (·.index)),
    r.longTermRow "poc_lsb_lt" (·.codedLsb.getD 0),
    r.longTermRow "delta_poc_msb_cycle_present_flag" (·.codedCycle.isSome),
    r.longTermRow "delta_poc_msb_cycle_lt" (·.codedCycle.getD 0),
    r.longTermRow "poc_lsb_lt_val" (·.lsb),
    r.longTermRow "delta_poc_msb_cycle_lt_val" (·.cycle)]

end RefLists

end CodedVideo
