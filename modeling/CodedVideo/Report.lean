/-!
# Reports

A report shows a parsed structure by the names of its syntax elements.  Members
that are blank are left out: nothing, an unset flag, zero, and whatever has no
parts.  A table, whose length is fixed, is blank as soon as all of its parts
are; a list, whose length is coded, only when it is empty.
-/

namespace CodedVideo

/-- What is shown of a value. -/
inductive Report where
  /-- There is no value. -/
  | absent
  | flag (value : Bool)
  | number (value : Int)
  | name (text : String)
  /-- Parts that are told apart by their position. -/
  | parts (items : List Report)
  /-- Parts that are told apart by their names. -/
  | members (items : List (String × Report))

namespace Report

/-- Whether a member is left out. -/
def isBlank : Report → Bool
  | absent => true
  | flag value => !value
  | number value => value == 0
  | name _ => false
  | parts items => items.isEmpty
  | members items => items.isEmpty

/-- The members that are not blank. -/
def group (items : List (String × Report)) : Report :=
  members (items.filter fun (_, value) => !value.isBlank)

/-- Parts of a structure with a fixed number of them. -/
def table (items : List Report) : Report :=
  if items.all isBlank then absent else parts items

end Report

/-- The types whose values can be shown. -/
class Reportable (α : Type) where
  /-- What is shown of a value. -/
  report : α → Report

export Reportable (report)

instance : Reportable Report := ⟨id⟩
instance : Reportable Bool := ⟨.flag⟩
instance : Reportable Int := ⟨.number⟩
instance : Reportable Nat := ⟨fun n => .number n⟩
instance : Reportable String := ⟨.name⟩

instance {α : Type} [Reportable α] : Reportable (Option α) :=
  ⟨fun value => (value.map report).getD .absent⟩

instance {α : Type} [Reportable α] : Reportable (List α) :=
  ⟨fun items => .parts (items.map report)⟩

instance {α : Type} [Reportable α] : Reportable (Array α) :=
  ⟨fun items => .parts (items.toList.map report)⟩

namespace Report

/-- Bytes in hexadecimal notation, two digits each. -/
def hex (bytes : List Nat) : Report :=
  name (String.ofList (bytes.flatMap fun byte =>
    [Nat.digitChar (byte / 16), Nat.digitChar (byte % 16)]))

/-- A member of a report. -/
def field {α : Type} [Reportable α] (label : String) (value : α) : String × Report :=
  (label, report value)

/-- A member with a fixed number of parts. -/
def row {α : Type} [Reportable α] (label : String) (values : List α) : String × Report :=
  (label, table (values.map report))

/-- A member with `size` parts, of which only the first ones have been set. -/
def slots {α : Type} [Reportable α] [Inhabited α] (label : String) (size : Nat)
    (values : List α) : String × Report :=
  row label (values ++ List.replicate (size - values.length) default)

end Report

end CodedVideo
