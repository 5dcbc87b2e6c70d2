import CodedVideo.Proofs.Framing

/-!
# A stream put together from units

`byteStream` writes units one after another, each behind any number of zero bytes
from two on and a one, and zero bytes after the last.  `calls_byteStream` says that
taking units off the stream gives them back, in order, and then the end.

A unit has to be one that can be told from what surrounds it (`FramedUnit.Valid`):
no start code inside, no zero at its end, and nothing behind the header of a unit
that ends a sequence.  The step is `next_byteStream`; it looks only at the part of
the stream from the cursor on, so the induction over the units needs nothing about
what has been taken off before.
-/

namespace CodedVideo.Nal

/-- A unit and the number of zero bytes in front of the one of its start code. -/
structure FramedUnit where
  zeros : Nat
  header : Header
  bytes : List UInt8

/-- A unit that can be told from what surrounds it in a stream. -/
structure FramedUnit.Valid (u : FramedUnit) : Prop where
  two_le_zeros : 2 ≤ u.zeros
  header_eq : Header.ofBytes u.bytes = .ok u.header
  last_ne_zero : u.bytes.getLast? ≠ some 0
  clean : ¬ startCode <:+: u.bytes
  length_eq : u.header.kind.isEnd = true → u.bytes.length = 2

/-- Units one after another, with `tail` zero bytes after the last. -/
def byteStream (tail : Nat) : List FramedUnit → List UInt8
  | [] => List.replicate tail 0
  | u :: rest => List.replicate u.zeros 0 ++ 1 :: (u.bytes ++ byteStream tail rest)

theorem findStartCode_byteStream_cons (tail : Nat) {u : FramedUnit} (h : 2 ≤ u.zeros)
    (rest : List FramedUnit) :
    findStartCode (byteStream tail (u :: rest)) = some (u.zeros - 2) := by
  rw [byteStream]
  obtain ⟨zeros, hz⟩ := Nat.exists_eq_add_of_le' h
  rw [hz, findStartCode_zeros, Nat.add_sub_cancel]

theorem FramedUnit.Valid.two_le_length {u : FramedUnit} (h : u.Valid) : 2 ≤ u.bytes.length := by
  obtain ⟨_, _, _, he, _⟩ := Header.ofBytes_eq_ok h.header_eq
  rw [he]
  simp

/-- **A unit ends where it has been written to end.** -/
theorem extent_byteStream (tail : Nat) {u : FramedUnit} (h : u.Valid) (rest : List FramedUnit)
    (hrest : ∀ v ∈ rest, v.Valid) :
    extent u.header (u.bytes ++ byteStream tail rest) = u.bytes := by
  unfold extent
  split
  case isTrue hend => rw [Header.size, ← h.length_eq hend, List.take_left]
  case isFalse =>
    rw [findStartCode_append h.clean h.last_ne_zero]
    cases rest with
    | nil =>
      rw [byteStream, findStartCode_replicate_zero]
      exact dropTrailingZeros_append_zeros h.last_ne_zero tail
    | cons v rest =>
      have hv := (hrest v (by simp)).two_le_zeros
      rw [findStartCode_byteStream_cons tail hv rest, Option.map_some]
      simp only
      rw [List.take_length_add_append, byteStream, List.take_append_of_le_length (by simp),
        List.take_replicate]
      exact dropTrailingZeros_append_zeros h.last_ne_zero _

/-- **A call at the start of a stream takes its first unit off.** -/
theorem next_byteStream {data : List UInt8} {cursor tail : Nat} {u : FramedUnit}
    {rest : List FramedUnit} (h : u.Valid) (hrest : ∀ v ∈ rest, v.Valid)
    (hdata : data.drop cursor = byteStream tail (u :: rest)) :
    ∃ unit after, next data cursor = (.ok unit, after) ∧ unit.header = u.header ∧
      unit.bytes = u.bytes ∧ data.drop after = byteStream tail rest := by
  have hzeros := h.two_le_zeros
  have hbehind : data.drop (cursor + (u.zeros - 2) + 3) = u.bytes ++ byteStream tail rest := by
    rw [Nat.add_assoc, ← List.drop_drop, hdata, byteStream,
      show u.zeros - 2 + 3 = (List.replicate u.zeros (0 : UInt8)).length + 1 by simp; omega,
      List.drop_length_add_append, List.drop_one, List.tail_cons]
  have hextent := extent_byteStream tail h rest hrest
  rcases next_cases data cursor with ⟨hd, -⟩ | ⟨d, e, hd, hh, -⟩ | ⟨d, header, hd, hh, he⟩ <;>
    rw [hdata, findStartCode_byteStream_cons tail hzeros rest] at hd
  · cases hd
  · cases hd
    rw [hbehind, Header.ofBytes_append h.two_le_length, h.header_eq] at hh
    cases hh
  · cases hd
    rw [hbehind, Header.ofBytes_append h.two_le_length, h.header_eq] at hh
    cases hh
    rw [hbehind, hextent] at he
    refine ⟨_, _, he, rfl, rfl, ?_⟩
    rw [← List.drop_drop, hbehind, List.drop_left]

/-- What a caller is told: the header and the bytes of a unit, or what is wrong. -/
def told (result : Except FramingError Nal) : Except String (Header × List UInt8) :=
  (result.mapError FramingError.message).map fun unit => (unit.header, unit.bytes)

theorem told_noStartCode : told (.error .noStartCode) = .error "No NAL found" := rfl

theorem told_calls_byteStream {data : List UInt8} {tail : Nat} : ∀ {units : List FramedUnit}
    {cursor : Nat}, (∀ u ∈ units, u.Valid) → data.drop cursor = byteStream tail units →
    (calls data (units.length + 1) cursor).map (fun call => told call.2.1) =
      units.map (fun u => .ok (u.header, u.bytes)) ++ [.error "No NAL found"] := by
  intro units
  induction units with
  | nil =>
    intro cursor _ hdata
    have hnone : findStartCode (data.drop cursor) = none := by
      rw [hdata, byteStream, findStartCode_replicate_zero]
    have hnext : next data cursor = (.error .noStartCode, cursor) := by
      unfold next
      rw [hnone]
    rw [List.length_nil, calls, calls, hnext, List.map_singleton, told_noStartCode]
    rfl
  | cons u rest ih =>
    intro cursor h hdata
    have hrest : ∀ v ∈ rest, v.Valid := fun v hv => h v (List.mem_cons_of_mem _ hv)
    obtain ⟨unit, after, he, hheader, hbytes, hafter⟩ :=
      next_byteStream (h u List.mem_cons_self) hrest hdata
    have htold : told (.ok unit) = .ok (u.header, u.bytes) := by rw [← hheader, ← hbytes]; rfl
    rw [List.length_cons, calls, List.map_cons, List.map_cons, List.cons_append, he, htold,
      ih hrest hafter]

/-- **Framing loses nothing.**  Units that can be told from what surrounds them are taken
off their stream one by one, in order, and then the end is found. -/
theorem calls_byteStream (units : List FramedUnit) (tail : Nat) (h : ∀ u ∈ units, u.Valid) :
    (calls (byteStream tail units) (units.length + 1) 0).map (fun call => told call.2.1) =
      units.map (fun u => .ok (u.header, u.bytes)) ++ [.error "No NAL found"] :=
  told_calls_byteStream h rfl

/-- A delimiter whose bytes end in `00 00 02` and the end of a sequence right behind it. -/
theorem calls_byteStream_endOfSequence :
    (calls [0, 0, 0, 1, 0, 161, 0, 0, 2, 0, 0, 1, 0, 169, 0] 3 0).map
        (fun call => told call.2.1) =
      [.ok (⟨.accessUnitDelimiter, 0, 1⟩, [0, 161, 0, 0, 2]), .ok (⟨.endOfSequence, 0, 1⟩, [0, 169]),
        .error "No NAL found"] :=
  calls_byteStream
    [⟨3, ⟨.accessUnitDelimiter, 0, 1⟩, [0, 161, 0, 0, 2]⟩, ⟨2, ⟨.endOfSequence, 0, 1⟩, [0, 169]⟩] 1
    (by
      intro u hu
      simp only [List.mem_cons, List.not_mem_nil, or_false] at hu
      rcases hu with rfl | rfl
      · exact ⟨by decide, by rfl, by decide, by decide, by decide⟩
      · exact ⟨by decide, by rfl, by decide, by decide, by decide⟩)

end CodedVideo.Nal
