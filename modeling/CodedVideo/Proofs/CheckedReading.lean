import CodedVideo.Proofs.Outcome
import CodedVideo.Proofs.Reads

/-!
# Reading with watched arithmetic

Readers compute with natural numbers and lists, where a difference below zero is zero and an
entry that does not exist is a default.  A `CheckedParse` is a reader that ends without a
result when an operation leaves its range: a difference would be negative, a shift would lose
its bit, or an index would lie outside of a list.

`CheckedParse.Agrees` says that a checked reader does on every input what a plain one does.
Then no operation of it ever leaves its range.  A checked reader agrees with a plain one if
their parts do, each for the values that the parts before can give.
-/

namespace CodedVideo

open Parse

/-- A syntax structure that yields nothing if an operation leaves its range. -/
abbrev CheckedParse := OptionT Parse

namespace CheckedParse

variable {α β : Type}

/-- A difference, which must not be negative. -/
def sub (a b : Nat) : CheckedParse Nat := if b ≤ a then pure (a - b) else failure

/-- One shifted left in a word of 32 bits. -/
def shiftOne (n : Nat) : CheckedParse Nat := if n < 32 then pure (pow2 n) else failure

/-- A number that must not be negative. -/
def natural (value : Int) : CheckedParse Nat := if 0 ≤ value then pure value.toNat else failure

/-- A number that has to fit in a signed byte. -/
def byte (value : Int) : CheckedParse Int :=
  if -128 ≤ value ∧ value ≤ 127 then pure value else failure

/-- The entry of a list at an index. -/
def entry (list : List α) (index : Nat) : CheckedParse α := list[index]?.elim failure pure

/-- The first `count` places of an array are used. -/
def usePlaces (capacity count : Nat) : CheckedParse Unit :=
  if count ≤ capacity then pure () else failure

/-- Reads the structure if `present`, and otherwise infers its default value. -/
def given [Inhabited α] (present : Bool) (x : CheckedParse α) : CheckedParse α :=
  if present then x else pure default

/-- Reads structures for the indices `start`, `start + 1`, … after those in `read`,
the last of which comes first there. -/
def collectOnto (x : Nat → CheckedParse α) :
    (read : List α) → (start count : Nat) → CheckedParse (List α)
  | read, _, 0 => pure read.reverse
  | read, start, count + 1 => do
    let value ← x start
    collectOnto x (value :: read) (start + 1) count

/-- Reads `count` structures, which may depend on their indices. -/
def collect (count : Nat) (x : Nat → CheckedParse α) : CheckedParse (List α) :=
  collectOnto x [] 0 count

/-- The checked reader does what the plain one does, and never ends without a result. -/
def Agrees (x : CheckedParse α) (p : Parse α) : Prop := ∀ r, x.run.run r = (some <$> p).run r

theorem run_map (f : α → β) (p : Parse α) (r : BitReader) :
    (f <$> p).run r = ((p.run r).1.map f, (p.run r).2) := by
  show (p >>= fun a => done (f a)).run r = _
  rw [run_bind]
  rcases p.run r with ⟨e | a, r'⟩ <;> rfl

/-! ### Operations in their range -/

theorem sub_of_le {a b : Nat} (h : b ≤ a) : sub a b = pure (a - b) := if_pos h

example (r : BitReader) : ((sub 0 1).run.run r).1 = .ok none := rfl

theorem shiftOne_of_lt {n : Nat} (h : n < 32) : shiftOne n = pure (pow2 n) := if_pos h

theorem natural_of_nonneg {value : Int} (h : 0 ≤ value) : natural value = pure value.toNat :=
  if_pos h

theorem byte_of_fits {value : Int} (h : -128 ≤ value ∧ value ≤ 127) : byte value = pure value :=
  if_pos h

theorem entry_of_eq_some {list : List α} {index : Nat} {a : α} (h : list[index]? = some a) :
    entry list index = pure a := by
  rw [entry, h, Option.elim_some]

theorem entry_table_of_lt {table : Array α} {index : Nat} (h : index < table.size) (default : α) :
    entry table.toList index = pure (table.getD index default) :=
  entry_of_eq_some (by simp [h])

theorem usePlaces_of_le {capacity count : Nat} (h : count ≤ capacity) :
    usePlaces capacity count = pure () :=
  if_pos h

/-- An operation in its range goes unnoticed. -/
theorem bind_within {x : CheckedParse α} {a : α} {f : α → CheckedParse β} {y : CheckedParse β}
    (hx : x = pure a) (hf : f a = y) : (x >>= f) = y := by
  subst hx
  exact hf

/-! ### Readers that agree -/

theorem agrees_lift (p : Parse α) : (liftM p : CheckedParse α).Agrees p := fun _ => rfl

theorem agrees_pure (a : α) : (pure a : CheckedParse α).Agrees (pure a) := fun _ => rfl

/-- What follows has to agree for what the first part can give. -/
theorem Agrees.bind {x : CheckedParse α} {p : Parse α} {f : α → CheckedParse β} {g : α → Parse β}
    (hx : x.Agrees p) (hf : ∀ a, p.Gives (.ok a) → (f a).Agrees (g a)) :
    (x >>= f).Agrees (p >>= g) := by
  intro r
  have hrun := hx r
  have hgives := gives_run p r
  rw [OptionT.run_bind, Option.elimM, run_bind, hrun, run_map, run_map, run_bind]
  rcases hp : p.run r with ⟨e | a, r'⟩
  · rfl
  · rw [hp] at hgives
    have hnext := hf a hgives r'
    rw [run_map] at hnext
    exact hnext

/-- The same where nothing has to be known of the first part. -/
theorem Agrees.andThen {x : CheckedParse α} {p : Parse α} {f : α → CheckedParse β}
    {g : α → Parse β} (hx : x.Agrees p) (hf : ∀ a, (f a).Agrees (g a)) :
    (x >>= f).Agrees (p >>= g) :=
  hx.bind fun a _ => hf a

theorem Agrees.map {x : CheckedParse α} {p : Parse α} (h : x.Agrees p) (f : α → β) :
    (f <$> x).Agrees (f <$> p) :=
  h.andThen fun a => agrees_pure (f a)

theorem Agrees.within {x : CheckedParse α} {a : α} {f : α → CheckedParse β} {p : Parse β}
    (hx : x = pure a) (hf : (f a).Agrees p) : (x >>= f).Agrees p :=
  bind_within hx rfl ▸ hf

theorem Agrees.ite {c : Prop} [Decidable c] {x y : CheckedParse α} {p q : Parse α}
    (hx : c → x.Agrees p) (hy : ¬ c → y.Agrees q) :
    (if c then x else y).Agrees (if c then p else q) := by
  split
  · exact hx ‹_›
  · exact hy ‹_›

/-- Two ways to read a value that is used in the same way. -/
theorem Agrees.choice {c : Prop} [Decidable c] {x y : CheckedParse α} {p q : Parse α}
    {f : α → CheckedParse β} {g : α → Parse β} (hx : c → x.Agrees p) (hy : ¬ c → y.Agrees q)
    (hf : ∀ a, (f a).Agrees (g a)) :
    (if c then x >>= f else y >>= f).Agrees (if c then p >>= g else q >>= g) :=
  .ite (fun hc => (hx hc).andThen hf) fun hc => (hy hc).andThen hf

theorem Agrees.given [Inhabited α] {present : Bool} {x : CheckedParse α} {p : Parse α}
    (h : present = true → x.Agrees p) : (given present x).Agrees (Parse.given present p) :=
  .ite h fun _ => agrees_pure default

theorem agrees_collectOnto {x : Nat → CheckedParse α} {p : Nat → Parse α}
    (h : ∀ index, (x index).Agrees (p index)) : ∀ {count start : Nat} {read : List α},
      (collectOnto x read start count).Agrees (Parse.collectOnto p read start count) := by
  intro count
  induction count with
  | zero => exact fun {_ read} => agrees_pure read.reverse
  | succ count ih => exact (h _).andThen fun _ => ih

theorem Agrees.collect {x : Nat → CheckedParse α} {p : Nat → Parse α}
    (h : ∀ index, (x index).Agrees (p index)) (count : Nat) :
    (collect count x).Agrees (Parse.collect count p) :=
  agrees_collectOnto h

end CheckedParse

end CodedVideo
