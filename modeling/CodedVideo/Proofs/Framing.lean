import CodedVideo.Proofs.StartCode

/-!
# Taking NAL units off a stream

`calls data n cursor` lists what `n` calls of `next` in a row give, errors
included, with the cursors before and after each call.  Two things are proved
about it.

* `calls_sound`: on any bytes at all every unit found is a stretch of the stream
  behind the first start code, holds no start code and does not end in a zero; and
  every call moves the cursor on, so the end of the stream is reached.
* `calls_byteStream`: a stream put together from units gives these units back.

Both rest on `next_cases`, which says what one call can do.  A unit is never
shorter than its header: the second byte of a header is not zero, so no start
code begins there and nothing of the header is dropped as a trailing zero.
-/

namespace CodedVideo.Nal

/-! ### Headers -/

theorem Header.ofBytes_eq_ok {data : List UInt8} {header : Header}
    (h : Header.ofBytes data = .ok header) :
    ∃ first second rest, data = first :: second :: rest ∧ second ≠ 0 := by
  match data with
  | [] => simp [Header.ofBytes] at h
  | [_] => simp [Header.ofBytes] at h
  | first :: second :: rest =>
    refine ⟨first, second, rest, rfl, ?_⟩
    rintro rfl
    simp only [Header.ofBytes] at h
    repeat' split at h
    all_goals simp_all

/-- A header is told from the first two bytes. -/
theorem Header.ofBytes_append {unit : List UInt8} (h : 2 ≤ unit.length) (rest : List UInt8) :
    Header.ofBytes (unit ++ rest) = Header.ofBytes unit := by
  match unit with
  | [] => simp at h
  | [_] => simp at h
  | _ :: _ :: _ => rfl

/-- What is wrong with a header is neither a missing start code nor a short unit. -/
theorem Header.ofBytes_error {data : List UInt8} {e : FramingError}
    (h : Header.ofBytes data = .error e) :
    e ≠ .noStartCode ∧ ∀ size, e ≠ .shorterThanHeader size := by
  unfold Header.ofBytes at h
  split at h
  · simp only at h
    repeat' split at h
    all_goals cases h <;> exact ⟨by simp, by simp⟩
  · cases h
    exact ⟨by simp, by simp⟩

/-! ### The extent of a unit -/

theorem isPrefix_extent (header : Header) (rest : List UInt8) : extent header rest <+: rest := by
  unfold extent
  split
  · exact List.take_prefix _ _
  · split
    · exact (isPrefix_dropTrailingZeros _).trans (List.take_prefix _ _)
    · exact isPrefix_dropTrailingZeros _

/-- **A unit is not shorter than its header.** -/
theorem two_le_length_extent {rest : List UInt8} {header : Header}
    (h : Header.ofBytes rest = .ok header) : 2 ≤ (extent header rest).length := by
  obtain ⟨first, second, rest, rfl, hsecond⟩ := Header.ofBytes_eq_ok h
  unfold extent
  split
  · simp [Header.size]
  · split
    case h_1 d hd =>
      have hstart := (findStartCode_eq_some.mp hd).1
      have hd2 : 2 ≤ d := by
        match d with
        | 0 =>
          rw [List.drop_zero, startCode_prefix_cons] at hstart
          simp [hsecond] at hstart
        | 1 =>
          rw [List.drop_succ_cons, List.drop_zero, startCode_prefix_cons] at hstart
          exact absurd hstart.1 hsecond
        | d + 2 => omega
      refine lt_length_dropTrailingZeros (i := 1) (b := second) ?_ hsecond
      rw [List.getElem?_take_of_lt (by omega)]
      rfl
    case h_2 => exact lt_length_dropTrailingZeros (i := 1) (b := second) rfl hsecond

theorem getLast?_extent {rest : List UInt8} {header : Header}
    (h : Header.ofBytes rest = .ok header) : (extent header rest).getLast? ≠ some 0 := by
  obtain ⟨first, second, rest, rfl, hsecond⟩ := Header.ofBytes_eq_ok h
  unfold extent
  split
  · simpa [Header.size] using hsecond
  · split <;> exact getLast?_dropTrailingZeros _

theorem not_infix_extent (header : Header) (rest : List UInt8) :
    ¬ startCode <:+: extent header rest := by
  unfold extent
  split
  · intro hin
    have hle := hin.length_le
    simp only [startCode, Header.size, List.length_cons, List.length_nil, List.length_take] at hle
    omega
  · split
    case h_1 d hd =>
      exact fun hin => not_infix_take_of_findStartCode hd
        (hin.trans (isPrefix_dropTrailingZeros _).isInfix)
    case h_2 hnone =>
      exact fun hin => findStartCode_eq_none.mp hnone
        (hin.trans (isPrefix_dropTrailingZeros _).isInfix)

/-! ### One call -/

/-- **What one call can do.**  There is no start code; or the header behind the first
one is refused; or a unit is found there. -/
theorem next_cases (data : List UInt8) (cursor : Nat) :
    (findStartCode (data.drop cursor) = none ∧ next data cursor = (.error .noStartCode, cursor)) ∨
    (∃ d e, findStartCode (data.drop cursor) = some d ∧
      Header.ofBytes (data.drop (cursor + d + 3)) = .error e ∧
      next data cursor = (.error e, cursor + d + 3)) ∨
    (∃ d header, findStartCode (data.drop cursor) = some d ∧
      Header.ofBytes (data.drop (cursor + d + 3)) = .ok header ∧
      next data cursor =
        (.ok { header := header, bytes := extent header (data.drop (cursor + d + 3)),
               offset := cursor + d + 3, startCodeOffset := startCodeFrom data (cursor + d) },
          cursor + d + 3 + (extent header (data.drop (cursor + d + 3))).length)) := by
  unfold next
  cases hd : findStartCode (data.drop cursor) with
  | none => exact Or.inl ⟨rfl, rfl⟩
  | some d =>
    refine Or.inr ?_
    cases hh : Header.ofBytes (data.drop (cursor + d + 3)) with
    | error e => exact Or.inl ⟨d, e, rfl, hh, by simp [hh]⟩
    | ok header =>
      have hlen : ¬ (extent header (data.drop (cursor + d + 3))).length < Header.size :=
        Nat.not_lt.mpr (two_le_length_extent hh)
      refine Or.inr ⟨d, header, rfl, hh, ?_⟩
      simp only [hh]
      rw [if_neg hlen]

/-- The cursor does not stand right behind a zero. -/
def Settled (data : List UInt8) (cursor : Nat) : Prop :=
  ∀ before, cursor = before + 1 → data[before]? ≠ some 0

theorem settled_zero (data : List UInt8) : Settled data 0 := fun _ h => by omega

/-- A unit found between two cursors, as a stretch of the stream. -/
structure FoundAt (data : List UInt8) (cursor : Nat) (unit : Nal) (after : Nat) : Prop where
  /-- The start code, with the zero byte in front of it, begins at the cursor or later. -/
  start_mem : cursor ≤ unit.startCodeOffset ∧ unit.startCodeOffset < unit.offset
  cursor_le : cursor + 3 ≤ unit.offset
  /-- The unit lies right behind a start code. -/
  start_eq : startCode <+: data.drop (unit.offset - 3)
  /-- No other start code begins between the cursor and that one. -/
  first : ∀ i, cursor ≤ i → i + 3 < unit.offset → ¬ startCode <+: data.drop i
  bytes_eq : unit.bytes = (data.drop unit.offset).take unit.size
  header_eq : Header.ofBytes unit.bytes = .ok unit.header
  two_le_size : 2 ≤ unit.size
  last_ne_zero : unit.bytes.getLast? ≠ some 0
  clean : ¬ startCode <:+: unit.bytes
  after_eq : unit.offset + unit.size = after
  after_le : after ≤ data.length

theorem startCodeFrom_bounds {data : List UInt8} {cursor : Nat} (h : Settled data cursor)
    (d : Nat) : cursor ≤ startCodeFrom data (cursor + d) ∧
      startCodeFrom data (cursor + d) ≤ cursor + d := by
  unfold startCodeFrom
  split
  · rename_i hback
    have hd : d ≠ 0 := by
      rintro rfl
      exact h (cursor - 1) (by omega) hback.2
    omega
  · omega

/-- The byte in front of the cursor after a call is the end of a start code or of a
unit, and neither ends in a zero. -/
theorem settled_next {data : List UInt8} {cursor : Nat} (h : Settled data cursor) :
    Settled data (next data cursor).2 := by
  have hone : ∀ {d}, findStartCode (data.drop cursor) = some d →
      data[cursor + d + 2]? = some 1 := by
    intro d hd
    obtain ⟨back, hback⟩ := (findStartCode_eq_some.mp hd).1
    rw [List.drop_drop] at hback
    have := congrArg (fun l => l[2]?) hback
    simpa [startCode, ← Nat.add_assoc] using this.symm
  rcases next_cases data cursor with ⟨-, he⟩ | ⟨d, e, hd, -, he⟩ | ⟨d, header, hd, hh, he⟩ <;>
    rw [he]
  · exact h
  · intro before hb
    obtain rfl : before = cursor + d + 2 := by omega
    rw [hone hd]
    simp
  · have hlen := two_le_length_extent hh
    have hlast := getLast?_extent hh
    have hprefix := isPrefix_extent header (data.drop (cursor + d + 3))
    generalize extent header (data.drop (cursor + d + 3)) = unit at hlen hlast hprefix
    intro before hb
    obtain ⟨back, hback⟩ := hprefix
    rw [List.getLast?_eq_getElem?] at hlast
    rwa [show before = cursor + d + 3 + (unit.length - 1) by simp only at hb; omega,
      ← List.getElem?_drop, ← hback, List.getElem?_append_left (by omega)]

/-- **A unit is found where it is said to be.** -/
theorem foundAt_of_next {data : List UInt8} {cursor after : Nat} {unit : Nal}
    (hs : Settled data cursor) (h : next data cursor = (.ok unit, after)) :
    FoundAt data cursor unit after := by
  rcases next_cases data cursor with ⟨-, he⟩ | ⟨d, e, hd, -, he⟩ | ⟨d, header, hd, hh, he⟩ <;>
    rw [he] at h
  · cases h
  · cases h
  · cases h
    obtain ⟨hstart, hfirst⟩ := findStartCode_eq_some.mp hd
    have hprefix := isPrefix_extent header (data.drop (cursor + d + 3))
    have hlen := two_le_length_extent hh
    have hle := hprefix.length_le
    rw [List.length_drop] at hle
    have hbounds := startCodeFrom_bounds hs d
    constructor
    · exact ⟨hbounds.1, by simp only; omega⟩
    · simp only; omega
    · rw [List.drop_drop] at hstart
      exact hstart
    · intro i hi hlt hin
      refine hfirst (i - cursor) (by simp only at hlt; omega) ?_
      rwa [List.drop_drop, Nat.add_sub_cancel' hi]
    · exact List.prefix_iff_eq_take.mp hprefix
    · obtain ⟨back, hback⟩ := hprefix
      rw [← Header.ofBytes_append hlen back, hback, hh]
    · exact hlen
    · exact getLast?_extent hh
    · exact not_infix_extent _ _
    · rfl
    · omega

/-- A call that does not come to the end of the stream moves on, and not beyond it. -/
theorem next_advances (data : List UInt8) (cursor : Nat) :
    (next data cursor).1 = .error .noStartCode ∨
      cursor + 3 ≤ (next data cursor).2 ∧ (next data cursor).2 ≤ data.length := by
  have hthree : ∀ {d}, findStartCode (data.drop cursor) = some d →
      cursor + d + 3 ≤ data.length := by
    intro d hd
    have hle := (findStartCode_eq_some.mp hd).1.length_le
    simp only [startCode, List.length_cons, List.length_nil, List.length_drop] at hle
    omega
  rcases next_cases data cursor with ⟨-, he⟩ | ⟨d, e, hd, -, he⟩ | ⟨d, header, hd, hh, he⟩ <;>
    rw [he]
  · exact Or.inl rfl
  · have := hthree hd
    exact Or.inr ⟨by simp only; omega, this⟩
  · have hle := (isPrefix_extent header (data.drop (cursor + d + 3))).length_le
    rw [List.length_drop] at hle
    have := hthree hd
    exact Or.inr ⟨by simp only; omega, by simp only; omega⟩

theorem next_ne_shorterThanHeader (data : List UInt8) (cursor size : Nat) :
    (next data cursor).1 ≠ .error (.shorterThanHeader size) := by
  rcases next_cases data cursor with ⟨-, he⟩ | ⟨d, e, -, hh, he⟩ | ⟨d, header, -, -, he⟩ <;>
    rw [he]
  · simp
  · simpa using (Header.ofBytes_error hh).2 size
  · simp

/-! ### Calls in a row -/

/-- What `n` calls in a row give, with the cursors before and after each of them. -/
def calls (data : List UInt8) : (n cursor : Nat) → List (Nat × Except FramingError Nal × Nat)
  | 0, _ => []
  | n + 1, cursor => (cursor, next data cursor) :: calls data n (next data cursor).2

theorem next_of_mem_calls {data : List UInt8} : ∀ {n cursor : Nat}, Settled data cursor →
    ∀ {before : Nat} {result : Except FramingError Nal × Nat},
      (before, result) ∈ calls data n cursor →
        Settled data before ∧ next data before = result := by
  intro n
  induction n with
  | zero => intro _ _ _ _ h; simp [calls] at h
  | succ n ih =>
    intro cursor hs before result h
    rcases List.mem_cons.mp h with he | hm
    · cases he
      exact ⟨hs, rfl⟩
    · exact ih (settled_next hs) hm

/-- The end of the stream is found by enough calls. -/
theorem exists_noStartCode_mem_calls {data : List UInt8} : ∀ {n cursor : Nat},
    cursor ≤ data.length → data.length - cursor < 3 * n →
      ∃ before after, (before, .error .noStartCode, after) ∈ calls data n cursor := by
  intro n
  induction n with
  | zero => intro _ _ h; omega
  | succ n ih =>
    intro cursor hc hn
    rcases next_advances data cursor with he | ⟨hmore, hle⟩
    · exact ⟨cursor, (next data cursor).2, List.mem_cons.mpr (Or.inl (by rw [← he]))⟩
    · obtain ⟨before, after, hm⟩ := ih hle (by omega)
      exact ⟨before, after, List.mem_cons_of_mem _ hm⟩

/-- **Framing of arbitrary bytes is sound and comes to an end.**  Of the calls in a row
from the start of any stream, each that gives a unit gives one that is found there, none
complains of a unit shorter than its header, and each but those at the end of the
stream moves the cursor on by three bytes; so the end is reached. -/
theorem calls_sound (data : List UInt8) :
    (∀ n before result after, (before, result, after) ∈ calls data n 0 →
      (∀ unit, result = .ok unit → FoundAt data before unit after) ∧
      (∀ size, result ≠ .error (.shorterThanHeader size)) ∧
      (result ≠ .error .noStartCode → before + 3 ≤ after)) ∧
    ∃ before after,
      (before, .error .noStartCode, after) ∈ calls data (data.length / 3 + 1) 0 := by
  refine ⟨fun n before result after h => ?_, ?_⟩
  · obtain ⟨hs, he⟩ := next_of_mem_calls (settled_zero data) h
    refine ⟨?_, ?_, ?_⟩
    · rintro unit rfl
      exact foundAt_of_next hs he
    · intro size
      simpa [he] using next_ne_shorterThanHeader data before size
    · intro hne
      have := next_advances data before
      rw [he] at this
      exact (this.resolve_left hne).1
  · exact exists_noStartCode_mem_calls (Nat.zero_le _) (by omega)

end CodedVideo.Nal
