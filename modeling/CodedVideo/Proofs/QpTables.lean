import CodedVideo.ChromaQp
import Mathlib.Tactic

/-!
# Tables of QPs that are filled

The entries of a table that have been filled are those of an interval, and it grows by one QP at
a time.  `QpTable.Holds` says that the entries of an interval are the values of a function.  A
loop keeps this if each entry that it fills is the value of the function there, given those that
have been filled before (`Holds.foldl_right`, `Holds.foldl_left`).

So a loop is told by an equation that the function has to satisfy: one more than the value before,
one less than the value behind, or so far along a line (`Holds.fillRight`, `Holds.fillLeft`,
`Holds.fillLine`).
-/

namespace CodedVideo

namespace QpTable

variable {lowest : Int} {f : Int → Int} {first last qp : Int} {table : List Int}

/-- The entries from one QP to another are the values of a function. -/
structure Holds (lowest : Int) (f : Int → Int) (first last : Int) (table : List Int) : Prop where
  length_eq : table.length = (maxQp + 1 - lowest).toNat
  entry_eq : ∀ qp, first ≤ qp → qp ≤ last → entry lowest table qp = f qp

theorem place_inj {qp qp' : Int} (hqp : lowest ≤ qp) (hqp' : lowest ≤ qp')
    (h : place lowest qp = place lowest qp') : qp = qp' := by
  unfold place at h
  omega

theorem length_blank (lowest : Int) : (blank lowest).length = (maxQp + 1 - lowest).toNat :=
  List.length_replicate

/-- An entry that is filled is the value, and the others stay. -/
theorem entry_fill (hlength : table.length = (maxQp + 1 - lowest).toNat) (hlow : lowest ≤ qp)
    (hhigh : qp ≤ maxQp) (value : Int) {other : Int} (hother : lowest ≤ other) :
    entry lowest (fill lowest table qp value) other =
      if other = qp then value else entry lowest table other := by
  have hplace : place lowest qp < table.length := by
    unfold place
    omega
  unfold entry fill
  rw [List.getD_eq_getElem?_getD, List.getD_eq_getElem?_getD, List.getElem?_set]
  by_cases hsame : other = qp
  · rw [if_pos hsame, if_pos (by rw [hsame]), if_pos hplace]
    rfl
  · rw [if_neg hsame, if_neg fun h => hsame (place_inj hother hlow h.symm)]

namespace Holds

/-- A table with one entry filled. -/
theorem start (f : Int → Int) (hlow : lowest ≤ qp) (hhigh : qp ≤ maxQp) :
    Holds lowest f qp qp (fill lowest (blank lowest) qp (f qp)) where
  length_eq := by rw [fill, List.length_set, length_blank]
  entry_eq other hfirst hlast := by
    obtain rfl : other = qp := le_antisymm hlast hfirst
    rw [entry_fill (length_blank lowest) hlow hhigh _ hlow, if_pos rfl]

/-- One more entry to the right. -/
theorem right (h : Holds lowest f first last table) (hlow : lowest ≤ first) (hle : first ≤ last)
    (hhigh : last < maxQp) :
    Holds lowest f first (last + 1) (fill lowest table (last + 1) (f (last + 1))) where
  length_eq := by rw [fill, List.length_set, h.length_eq]
  entry_eq other hfirst hlast := by
    rw [entry_fill h.length_eq (by omega) (by omega) _ (by omega)]
    split
    · rename_i hsame
      rw [hsame]
    · exact h.entry_eq other hfirst (by omega)

/-- One more entry to the left. -/
theorem left (h : Holds lowest f first last table) (hlow : lowest < first)
    (hhigh : last ≤ maxQp) :
    Holds lowest f (first - 1) last (fill lowest table (first - 1) (f (first - 1))) where
  length_eq := by rw [fill, List.length_set, h.length_eq]
  entry_eq other hfirst hlast := by
    rw [entry_fill h.length_eq (by omega) (by omega) _ (by omega)]
    split
    · rename_i hsame
      rw [hsame]
    · exact h.entry_eq other (by omega) hlast

/-- **A loop to the right fills in what the function has there**, if each entry does. -/
theorem foldl_right {step : List Int → Nat → List Int} (h : Holds lowest f first last table)
    (hlow : lowest ≤ first) (hle : first ≤ last) {count : Nat} (hcount : last + count ≤ maxQp)
    (hstep : ∀ (i : Nat) (table : List Int), i < count → Holds lowest f first (last + i) table →
      step table i = fill lowest table (last + 1 + i) (f (last + 1 + i))) :
    Holds lowest f first (last + count) ((List.range count).foldl step table) := by
  induction count with
  | zero => simpa using h
  | succ count ih =>
    have hfilled := ih (by omega) fun i table hi => hstep i table (by omega)
    have hnext : last + 1 + (count : Int) = last + count + 1 := by omega
    rw [List.range_succ, List.foldl_append, List.foldl_cons, List.foldl_nil,
      hstep count _ (by omega) hfilled, hnext, Nat.cast_succ, ← Int.add_assoc]
    exact hfilled.right hlow (by omega) (by omega)

/-- **A loop to the left fills in what the function has there**, if each entry does. -/
theorem foldl_left {step : List Int → Nat → List Int} (h : Holds lowest f first last table)
    (hhigh : last ≤ maxQp) {count : Nat} (hcount : lowest ≤ first - count)
    (hstep : ∀ (i : Nat) (table : List Int), i < count → Holds lowest f (first - i) last table →
      step table i = fill lowest table (first - 1 - i) (f (first - 1 - i))) :
    Holds lowest f (first - count) last ((List.range count).foldl step table) := by
  induction count with
  | zero => simpa using h
  | succ count ih =>
    have hfilled := ih (by omega) fun i table hi => hstep i table (by omega)
    have hnext : first - 1 - (count : Int) = first - count - 1 := by omega
    have hend : first - ((count + 1 : Nat) : Int) = first - count - 1 := by omega
    rw [List.range_succ, List.foldl_append, List.foldl_cons, List.foldl_nil,
      hstep count _ (by omega) hfilled, hnext, hend]
    exact hfilled.left (by omega) hhigh

/-- To the right of the last pivot each value is one more than the one before. -/
theorem fillRight (h : Holds lowest f first last table) (hlow : lowest ≤ first)
    (hle : first ≤ last) (hhigh : last ≤ maxQp)
    (hf : ∀ qp, last ≤ qp → qp < maxQp → f (qp + 1) = clip lowest (f qp + 1)) :
    Holds lowest f first maxQp (QpTable.fillRight lowest last table) := by
  have hcount : last + ((maxQp - last).toNat : Int) = maxQp := by omega
  rw [← hcount]
  refine h.foldl_right hlow hle hcount.le fun i table hi hfilled => ?_
  have hnext : last + 1 + (i : Int) = last + i + 1 := by omega
  dsimp only
  rw [hnext, Int.add_sub_cancel, hfilled.entry_eq _ (by omega) le_rfl, hf _ (by omega) (by omega)]

/-- To the left of the first pivot each value is one less than the one behind. -/
theorem fillLeft (h : Holds lowest f first last table) (hlow : lowest ≤ first)
    (hle : first ≤ last) (hhigh : last ≤ maxQp)
    (hf : ∀ qp, lowest < qp → qp ≤ first → f (qp - 1) = clip lowest (f qp - 1)) :
    Holds lowest f lowest last (QpTable.fillLeft lowest first table) := by
  have hcount : first - ((first - lowest).toNat : Int) = lowest := by omega
  conv => arg 3; rw [← hcount]
  refine h.foldl_left hhigh hcount.ge fun i table hi hfilled => ?_
  have hnext : first - 1 - (i : Int) = first - i - 1 := by omega
  dsimp only
  rw [hnext, Int.sub_add_cancel, hfilled.entry_eq _ le_rfl (by omega), hf _ (by omega) (by omega)]

/-- From one pivot to the next the values are those of a line, rounded. -/
theorem fillLine {step : QpStep} (h : Holds lowest f first last table) (hlow : lowest ≤ first)
    (hle : first ≤ last) (hhigh : last + step.advance ≤ maxQp)
    (hf : ∀ m : Nat, m < step.advance → f (last + 1 + m) =
      f last + ((step.rise * (m + 1) + step.advance / 2) / step.advance : Nat)) :
    Holds lowest f first (last + step.advance) (QpTable.fillLine lowest last step table) := by
  refine h.foldl_right hlow hle hhigh fun i table hi hfilled => ?_
  dsimp only
  rw [hfilled.entry_eq last hle (by omega), hf i hi]

/-- A table that holds all values lists them. -/
theorem eq_map (h : Holds lowest f lowest maxQp table) : table = (qpRange lowest).map f := by
  refine List.ext_getElem? fun i => ?_
  rw [qpRange, List.map_map, List.getElem?_map]
  by_cases hi : i < (maxQp + 1 - lowest).toNat
  · have hentry := h.entry_eq (lowest + i) (by omega) (by omega)
    have hplace : place lowest (lowest + i) = i := by
      unfold place
      omega
    rw [entry, hplace, List.getD_eq_getElem?_getD,
      List.getElem?_eq_getElem (by rw [h.length_eq]; exact hi), Option.getD_some] at hentry
    rw [List.getElem?_range hi, List.getElem?_eq_getElem (by rw [h.length_eq]; exact hi), hentry]
    rfl
  · rw [List.getElem?_eq_none (by rw [h.length_eq]; omega),
      List.getElem?_eq_none (by rw [List.length_range]; omega)]
    rfl

end Holds

/-! ### Lengths -/

theorem length_foldl_fill (count : Nat) (qp : Nat → Int) (value : List Int → Nat → Int)
    (table : List Int) :
    ((List.range count).foldl (fun table i => fill lowest table (qp i) (value table i))
      table).length = table.length := by
  induction count with
  | zero => rfl
  | succ count ih =>
    rw [List.range_succ, List.foldl_append, List.foldl_cons, List.foldl_nil, fill, List.length_set,
      ih]

theorem length_fillSteps (input : Int) (steps : List QpStep) (table : List Int) :
    (fillSteps lowest input steps table).length = table.length := by
  induction steps generalizing input table with
  | nil => exact length_foldl_fill ..
  | cons step rest ih => exact (ih _ _).trans (length_foldl_fill ..)

end QpTable

/-- A table has an entry for each QP in range. -/
theorem QpCurve.length_table (lowest : Int) (c : QpCurve) :
    (c.table lowest).length = (maxQp + 1 - lowest).toNat := by
  have hleft : ∀ table, (QpTable.fillLeft lowest c.start table).length = table.length :=
    QpTable.length_foldl_fill _ _ _
  rw [table, QpTable.length_fillSteps, hleft, QpTable.fill, List.length_set, QpTable.length_blank]

/-- So has the table of each kind of residuals, whether it has a curve or not. -/
theorem ChromaQp.length_table (lowest : Int) (m : ChromaQp) (kind : Nat) :
    (m.table lowest kind).length = (maxQp + 1 - lowest).toNat := by
  unfold table
  cases m.curve? kind with
  | none =>
    show (qpRange lowest).length = _
    rw [qpRange, List.length_map, List.length_range]
  | some curve => exact curve.length_table lowest

end CodedVideo
