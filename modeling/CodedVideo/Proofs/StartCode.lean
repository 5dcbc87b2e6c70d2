import CodedVideo.Nal.Framing
import Mathlib.Data.List.DropRight
import Mathlib.Data.List.Infix

/-!
# Where start codes are found

`findStartCode` walks over a byte string and counts.  Here its answer is put in
terms of the string alone: `findStartCode_eq_some` says that it is the first
place at which the bytes go on with `00 00 01`, and `findStartCode_eq_none` that
there is no answer exactly when `00 00 01` does not occur at all.

`findStartCode_append` is what framing rests on.  Behind bytes that hold no start
code and do not end in a zero the search behaves as if it began there, because no
start code straddles the end of such bytes.
-/

namespace CodedVideo.Nal

/-- The three bytes of a start code. -/
def startCode : List UInt8 := [0, 0, 1]

theorem startCode_prefix_cons (b : UInt8) (rest : List UInt8) :
    startCode <+: b :: rest ↔ b = 0 ∧ rest.take 2 = [0, 1] := by
  rw [startCode, List.cons_prefix_cons, List.prefix_iff_eq_take, eq_comm (a := b),
    eq_comm (a := rest.take 2)]
  rfl

theorem findStartCodeFrom_eq (passed : Nat) (data : List UInt8) :
    findStartCodeFrom passed data = (findStartCode data).map (passed + ·) := by
  induction data generalizing passed with
  | nil => rfl
  | cons b rest ih =>
    rw [findStartCode, findStartCodeFrom, findStartCodeFrom]
    split
    · rfl
    · rw [ih, ih 1, Option.map_map]
      exact congrArg (fun f => Option.map f _) (funext fun d => by simp; omega)

@[simp] theorem findStartCode_nil : findStartCode [] = none := rfl

theorem findStartCode_cons (b : UInt8) (rest : List UInt8) :
    findStartCode (b :: rest) =
      if startCode <+: b :: rest then some 0 else (findStartCode rest).map (1 + ·) := by
  rw [findStartCode, findStartCodeFrom, findStartCodeFrom_eq]
  simp only [startCode_prefix_cons]

/-- **The search finds the first start code.** -/
theorem findStartCode_eq_some {data : List UInt8} {d : Nat} :
    findStartCode data = some d ↔
      startCode <+: data.drop d ∧ ∀ i < d, ¬ startCode <+: data.drop i := by
  induction data generalizing d with
  | nil => simp [startCode]
  | cons b rest ih =>
    rw [findStartCode_cons]
    by_cases h : startCode <+: b :: rest
    · rw [if_pos h]
      constructor
      · rintro ⟨⟩
        exact ⟨h, fun i hi => absurd hi (by omega)⟩
      · rintro ⟨-, hfirst⟩
        cases d with
        | zero => rfl
        | succ d => exact absurd h (hfirst 0 (by omega))
    · rw [if_neg h]
      cases d with
      | zero => simp [h]
      | succ d =>
        have hshift : (findStartCode rest).map (1 + ·) = some (d + 1) ↔
            findStartCode rest = some d := by
          cases findStartCode rest <;> simp; omega
        rw [hshift, ih, List.drop_succ_cons]
        refine and_congr_right fun _ => ⟨fun hfirst i hi => ?_, fun hfirst i hi => ?_⟩
        · cases i with
          | zero => exact h
          | succ i => exact hfirst i (by omega)
        · exact hfirst (i + 1) (by omega)

/-- **The search fails only if there is no start code.** -/
theorem findStartCode_eq_none {data : List UInt8} :
    findStartCode data = none ↔ ¬ startCode <:+: data := by
  induction data with
  | nil => simp [startCode]
  | cons b rest ih =>
    rw [findStartCode_cons, List.infix_cons_iff, not_or]
    split
    · simp [*]
    · simp [*]

theorem not_infix_take_of_findStartCode {data : List UInt8} {d : Nat}
    (h : findStartCode data = some d) : ¬ startCode <:+: data.take d := by
  rintro ⟨front, back, heq⟩
  have hlen : front.length + 3 ≤ d := by
    have := congrArg List.length heq
    simp only [List.length_append, startCode, List.length_cons, List.length_nil,
      List.length_take] at this
    omega
  have hinside : startCode <+: (data.take d).drop front.length := by
    rw [← heq, List.append_assoc, List.drop_left]
    exact List.prefix_append _ _
  exact (findStartCode_eq_some.mp h).2 front.length (by omega)
    (hinside.trans ((List.take_prefix _ _).drop _))

/-- A start code that begins in `front` reaches to the end of it or beyond only if
`front` ends in a zero. -/
theorem startCode_prefix_append {front rest : List UInt8} (hne : front ≠ [])
    (hlast : front.getLast? ≠ some 0) (h : startCode <+: front ++ rest) :
    startCode <+: front := by
  match front with
  | [] => exact absurd rfl hne
  | [a] =>
    rw [List.cons_append, startCode_prefix_cons] at h
    exact absurd (by rw [h.1]; rfl) hlast
  | [a, b] =>
    rw [List.cons_append, startCode_prefix_cons] at h
    simp only [List.cons_append, List.nil_append, List.take_succ_cons, List.cons.injEq] at h
    exact absurd (by rw [h.2.1]; rfl) hlast
  | a :: b :: c :: more =>
    rw [List.cons_append, startCode_prefix_cons] at h
    rw [startCode_prefix_cons]
    exact h

/-- **No start code straddles the end of a unit.** -/
theorem findStartCode_append {front : List UInt8} (hclean : ¬ startCode <:+: front)
    (hlast : front.getLast? ≠ some 0) (rest : List UInt8) :
    findStartCode (front ++ rest) = (findStartCode rest).map (front.length + ·) := by
  induction front with
  | nil => simp
  | cons b front ih =>
    rw [List.infix_cons_iff, not_or] at hclean
    have hstart : ¬ startCode <+: b :: front ++ rest := fun h =>
      hclean.1 (startCode_prefix_append (by simp) hlast h)
    rw [List.cons_append] at hstart ⊢
    rw [findStartCode_cons, if_neg hstart]
    cases front with
    | nil => simp
    | cons c front =>
      rw [ih hclean.2 (by simpa using hlast), Option.map_map]
      exact congrArg (fun f => Option.map f _) (funext fun d => by simp; omega)

/-- Zeros in front of a one hold a start code in their last two places. -/
theorem findStartCode_zeros (zeros : Nat) (rest : List UInt8) :
    findStartCode (List.replicate (zeros + 2) 0 ++ 1 :: rest) = some zeros := by
  induction zeros with
  | zero => simp [findStartCode_cons, startCode, List.replicate_succ]
  | succ zeros ih =>
    rw [List.replicate_succ, List.cons_append, findStartCode_cons, ih, if_neg]
    · simp; omega
    · simp [startCode, List.replicate_succ, List.cons_prefix_cons]

theorem findStartCode_replicate_zero (zeros : Nat) :
    findStartCode (List.replicate zeros 0) = none := by
  rw [findStartCode_eq_none]
  intro h
  have hone : (1 : UInt8) ∈ List.replicate zeros (0 : UInt8) := h.subset (by simp [startCode])
  simp [List.mem_replicate] at hone

/-! ### Zero bytes at the end -/

theorem dropTrailingZeros_eq (bytes : List UInt8) :
    dropTrailingZeros bytes = bytes.rdropWhile (· == 0) := rfl

theorem isPrefix_dropTrailingZeros (bytes : List UInt8) : dropTrailingZeros bytes <+: bytes := by
  rw [dropTrailingZeros_eq]
  exact List.rdropWhile_prefix _ _

theorem getLast?_dropTrailingZeros (bytes : List UInt8) :
    (dropTrailingZeros bytes).getLast? ≠ some 0 := by
  rw [dropTrailingZeros_eq]
  intro h
  have hne : bytes.rdropWhile (· == 0) ≠ [] := by rintro he; simp [he] at h
  rw [List.getLast?_eq_some_getLast hne, Option.some.injEq] at h
  exact List.rdropWhile_last_not (· == 0) bytes hne (by simp [h])

/-- Zeros are dropped, and nothing in front of them. -/
theorem dropTrailingZeros_append_zeros {bytes : List UInt8} (hlast : bytes.getLast? ≠ some 0)
    (zeros : Nat) : dropTrailingZeros (bytes ++ List.replicate zeros 0) = bytes := by
  induction zeros with
  | zero =>
    rw [List.replicate_zero, List.append_nil, dropTrailingZeros_eq, List.rdropWhile_eq_self_iff]
    intro hne h
    rw [List.getLast?_eq_some_getLast hne] at hlast
    exact hlast (by simpa using h)
  | succ zeros ih =>
    rw [List.replicate_succ', ← List.append_assoc, dropTrailingZeros_eq,
      List.rdropWhile_concat_pos _ _ _ (by rfl), ← dropTrailingZeros_eq, ih]

/-- What is kept reaches at least as far as any byte that is not zero. -/
theorem lt_length_dropTrailingZeros {bytes : List UInt8} {i : Nat} {b : UInt8}
    (hb : bytes[i]? = some b) (hne : b ≠ 0) : i < (dropTrailingZeros bytes).length := by
  induction bytes using List.reverseRecOn with
  | nil => simp at hb
  | append_singleton front last ih =>
    by_cases hlast : last = 0
    · subst hlast
      rw [dropTrailingZeros_eq, List.rdropWhile_concat_pos _ _ _ (by rfl), ← dropTrailingZeros_eq]
      refine ih ?_
      rcases Nat.lt_trichotomy i front.length with hi | rfl | hi
      · rwa [List.getElem?_append_left hi] at hb
      · simp at hb
        exact absurd hb.symm hne
      · rw [List.getElem?_eq_none (by simp; omega)] at hb
        exact absurd hb (by simp)
    · rw [dropTrailingZeros_eq, List.rdropWhile_concat_neg _ _ _ (by simpa using hlast)]
      exact (List.getElem?_eq_some_iff.mp hb).1

end CodedVideo.Nal
