import CodedVideo.Proofs.BitString
import CodedVideo.Proofs.PictureLimits
import CodedVideo.Proofs.Reachable

/-!
# The precision of prediction weights

Weights are computed in words of 32 bits and kept in words of 16.  Nothing is lost on the way:
`WeightTable.factor` and `WeightTable.offset` say in integers of any size what the factors and
offsets are, and the words hold just these (`WeightTable.InRange.exact`).

The words are wide enough because what is coded is bounded.  The factor one is at most 128 and
differences to it fit in a byte, so that factors fit in nine bits.  Half the range of offsets is a
power of two that grows with the samples up to 16 bits (`Sps.Limited.weightHalfRange`), which is
the width of the words for offsets.
-/

namespace CodedVideo

open Parse

/-! ### Words that hold integers -/

namespace Words

variable {a b : Int32}

theorem toInt_add (hlow : -(2 ^ 31) ≤ a.toInt + b.toInt) (hhigh : a.toInt + b.toInt < 2 ^ 31) :
    (a + b).toInt = a.toInt + b.toInt := by
  rw [Int32.toInt_add]
  exact Int.bmod_eq_of_le (by omega) (by omega)

theorem toInt_sub (hlow : -(2 ^ 31) ≤ a.toInt - b.toInt) (hhigh : a.toInt - b.toInt < 2 ^ 31) :
    (a - b).toInt = a.toInt - b.toInt := by
  rw [Int32.toInt_sub]
  exact Int.bmod_eq_of_le (by omega) (by omega)

theorem toInt_mul (hlow : -(2 ^ 31) ≤ a.toInt * b.toInt) (hhigh : a.toInt * b.toInt < 2 ^ 31) :
    (a * b).toInt = a.toInt * b.toInt := by
  rw [Int32.toInt_mul]
  exact Int.bmod_eq_of_le (by omega) (by omega)

theorem toInt_neg (hhigh : -(2 ^ 31) < a.toInt) : (-a).toInt = -a.toInt := by
  have hle := a.toInt_lt
  rw [Int32.toInt_neg]
  exact Int.bmod_eq_of_le (by omega) (by omega)

theorem toInt_add16 {a b : Int16} (hlow : -(2 ^ 15) ≤ a.toInt + b.toInt)
    (hhigh : a.toInt + b.toInt < 2 ^ 15) : (a + b).toInt = a.toInt + b.toInt := by
  rw [Int16.toInt_add]
  exact Int.bmod_eq_of_le (by omega) (by omega)

theorem toInt_narrow (hlow : -(2 ^ 15) ≤ a.toInt) (hhigh : a.toInt < 2 ^ 15) :
    a.toInt16.toInt = a.toInt := by
  rw [Int32.toInt_toInt16]
  exact Int.bmod_eq_of_le (by omega) (by omega)

/-- Shifting a word to the right divides and rounds down. -/
theorem toInt_shiftRight (a : Int32) {d : Nat} (h : d ≤ 7) :
    (a >>> Int32.ofInt d).toInt = a.toInt / 2 ^ d := by
  have hbits : (a >>> Int32.ofInt d).toBitVec = a.toBitVec.sshiftRight d := by
    rw [Int32.toBitVec_shiftRight, BitVec.sshiftRight_eq']
    congr 1
    interval_cases d <;> rfl
  rw [Int32.toInt, hbits, BitVec.toInt_sshiftRight, Int.shiftRight_eq_div_pow]
  rfl

/-- One shifted by as many bits as a denominator tells. -/
theorem toInt_shiftOne {d : Nat} (h : d ≤ 7) :
    ((1 : Int32) <<< Int32.ofInt d).toInt = 2 ^ d ∧
      ((1 : Int16) <<< Int16.ofInt d).toInt = 2 ^ d := by
  interval_cases d <;> decide

end Words

/-! ### What weights are -/

/-- The difference to the factor one fits in a byte, and the offset has a limit. -/
structure CodedWeight.Within (limit : Int) (w : CodedWeight) : Prop where
  factorDelta : -128 ≤ w.factorDelta ∧ w.factorDelta ≤ 127
  offset : -limit ≤ w.offset ∧ w.offset ≤ limit - 1

/-- The weights of an entry are within the limits that half the range of offsets sets. -/
structure EntryWeights.Within (half : Int) (e : EntryWeights) : Prop where
  luma : ∀ weight ∈ e.luma, weight.Within half
  chroma : ∀ weights ∈ e.chroma, weights.1.Within (4 * half) ∧ weights.2.Within (4 * half)

namespace WeightTable

/-- The factor of a weight is a power of two, to which a difference may be coded. -/
def factor (denominator : Int) (weight : Option CodedWeight) : Int :=
  2 ^ denominator.toNat + (weight.map (·.factorDelta)).getD 0

/-- The offset of a chroma weight keeps the middle of the range where it is, but for the coded
difference, as far as there is room. -/
def offset (half denominator : Int) (weight : CodedWeight) : Int :=
  max (-half) (min (half - 1)
    (half + weight.offset -
      (half * factor denominator (some weight)).fdiv (2 ^ denominator.toNat)))

/-- What is known of a table that has been read. -/
structure InRange (half : Nat) (t : WeightTable) : Prop where
  halfRange : t.halfRange = half
  lumaDenominator : t.lumaDenominator ≤ 7
  chromaDenominator : 0 ≤ t.chromaDenominator ∧ t.chromaDenominator ≤ 7
  entries : ∀ list ∈ [t.list0, t.list1], ∀ e ∈ list, e.Within half

/-- A word of 16 bits holds a factor, which is none of the largest. -/
def HoldsFactor (word : Int16) (factor : Int) : Prop :=
  word.toInt = factor ∧ -127 ≤ factor ∧ factor ≤ 255

/-- Words hold the factors and offsets of all entries of both lists, where the weight of an entry
is missing unless it is flagged. -/
structure Exact (half : Int) (t : WeightTable) : Prop where
  chromaDenominator : 0 ≤ t.chromaDenominator ∧ t.chromaDenominator ≤ 7
  lumaFactor : ∀ list ∈ [t.list0, t.list1], ∀ i < maxWeights,
    let weight := list[i]?.bind (·.luma)
    HoldsFactor (t.lumaFactor weight) (factor t.lumaDenominator weight)
  chromaFactor : ∀ list ∈ [t.list0, t.list1], ∀ i < maxWeights, ∀ kind ∈ [Prod.fst, Prod.snd],
    let weight := (list[i]?.bind (·.chroma)).map kind
    HoldsFactor (t.chromaFactor weight) (factor t.chromaDenominator weight)
  chromaOffset : ∀ list ∈ [t.list0, t.list1], ∀ i < maxWeights, ∀ kind ∈ [Prod.fst, Prod.snd],
    ∀ weight ∈ (list[i]?.bind (·.chroma)).map kind,
      (t.chromaOffset weight).toInt = offset half t.chromaDenominator weight ∧
      -(2 ^ 15) ≤ offset half t.chromaDenominator weight ∧
      offset half t.chromaDenominator weight < 2 ^ 15

/-! ### What is read -/

theorem seBetween_ensures (lo hi : Int) :
    (seBetween lo hi).Ensures fun value => lo ≤ value ∧ value ≤ hi :=
  .seBetween fun _ hlow hhigh => ⟨hlow, hhigh⟩

theorem readLuma_within (half : Int) : (readLuma half).Ensures (·.Within half) := by
  refine (seBetween_ensures _ _).bind fun factorDelta hfactor => ?_
  refine (seBetween_ensures _ _).bind fun offset hoffset => ?_
  exact ensures_pure.mpr ⟨hfactor, hoffset⟩

theorem readChroma_within (half : Int) : (readChroma half).Ensures (·.Within (4 * half)) := by
  refine (seBetween_ensures _ _).bind fun factorDelta hfactor => ?_
  refine (seBetween_ensures _ _).bind fun offset hoffset => ?_
  rw [Int.neg_mul] at hoffset
  exact ensures_pure.mpr ⟨hfactor, hoffset⟩

theorem readEntry_within (half : Int) (luma chroma : Bool) :
    (readEntry half luma chroma).Ensures (·.Within half) := by
  unfold readEntry
  refine (readLuma_within half).optional fun lumaWeight hluma => ?_
  split
  · refine (readChroma_within half).bind fun cb hcb => (readChroma_within half).bind fun cr hcr => ?_
    refine ensures_pure.mpr ⟨hluma, ?_⟩
    rintro _ ⟨⟩
    exact ⟨hcb, hcr⟩
  · exact ensures_pure.mpr ⟨hluma, nofun⟩

theorem readEntries_within (half : Int) (lumas chromas : List Bool) :
    (readEntries half lumas chromas).Ensures fun entries => ∀ e ∈ entries, e.Within half := by
  induction lumas, chromas using readEntries.induct with
  | case1 luma lumas chroma chromas ih =>
    refine (readEntry_within half luma chroma).bind fun entry hentry => ?_
    refine ih.bind fun rest hrest => ensures_pure.mpr fun e he => ?_
    rcases List.mem_cons.mp he with rfl | he
    · exact hentry
    · exact hrest e he
  | case2 lumas chromas hnot =>
    rw [readEntries]
    · exact ensures_pure.mpr fun e he => absurd he List.not_mem_nil
    · exact hnot

theorem readList_within (rules : WeightRules) (list count : Nat) :
    (readList rules list count).Ensures fun entries => ∀ e ∈ entries, e.Within rules.halfRange :=
  .andThen fun _ => .andThen fun lumas => .andThen fun chromas => readEntries_within _ lumas chromas

/-- **Tables that are accepted are in range.** -/
theorem read_inRange (rules : WeightRules) : (read rules).Ensures (·.InRange rules.halfRange) := by
  refine .bind (.ueMax fun _ hmax => hmax) fun lumaDenominator hluma => ?_
  refine .bind (P := fun delta : Int => 0 ≤ lumaDenominator + delta ∧ lumaDenominator + delta ≤ 7)
    ?_ fun delta hdelta => ?_
  · rw [ensures_given]
    refine ⟨fun _ => .seBetween fun delta hlow hhigh => ?_, fun _ => ?_⟩
    · omega
    · show 0 ≤ (lumaDenominator : Int) + 0 ∧ (lumaDenominator : Int) + 0 ≤ 7
      omega
  refine .andThen fun _ => (readList_within _ _ _).bind fun list0 h0 => .andThen fun _ => ?_
  refine (readList_within _ _ _).bind fun list1 h1 => ensures_pure.mpr ⟨rfl, hluma, hdelta, ?_⟩
  rintro list hlist
  rcases List.mem_pair.mp hlist with rfl | rfl
  · exact h0
  · exact h1

/-! ### What words hold -/

theorem delta_bounds {weight : Option CodedWeight} {limit : Int}
    (hweight : ∀ w ∈ weight, w.Within limit) :
    -128 ≤ (weight.map (·.factorDelta)).getD 0 ∧ (weight.map (·.factorDelta)).getD 0 ≤ 127 := by
  cases weight with
  | none => decide
  | some w => exact (hweight w rfl).factorDelta

theorem factor_bounds {d : Nat} {weight : Option CodedWeight} (hd : d ≤ 7)
    (hdelta : -128 ≤ (weight.map (·.factorDelta)).getD 0 ∧
      (weight.map (·.factorDelta)).getD 0 ≤ 127) :
    -127 ≤ factor d weight ∧ factor d weight ≤ 255 := by
  have hpos : (0 : Int) < 2 ^ d := by positivity
  have hle : (2 : Int) ^ d ≤ 2 ^ 7 := pow_le_pow_right₀ (by decide) hd
  unfold factor
  rw [Int.toNat_natCast]
  omega

variable {half d : Nat} {limit : Int} {t : WeightTable}

theorem factor_bounds_of_within (hd : d ≤ 7) {weight : CodedWeight}
    (hweight : weight.Within limit) :
    -127 ≤ factor d (some weight) ∧ factor d (some weight) ≤ 255 :=
  factor_bounds hd hweight.factorDelta

theorem holds_lumaFactor (hd : t.lumaDenominator ≤ 7) {weight : Option CodedWeight}
    (hweight : ∀ w ∈ weight, w.Within limit) :
    HoldsFactor (t.lumaFactor weight) (factor t.lumaDenominator weight) := by
  have hdelta := delta_bounds hweight
  have hbounds := factor_bounds hd hdelta
  have hone := (Words.toInt_shiftOne hd).2
  have hsum : (t.lumaFactor weight).toInt =
      2 ^ t.lumaDenominator + (weight.map (·.factorDelta)).getD 0 := by
    have hword := Int16.toInt_ofInt_of_le (n := (weight.map (·.factorDelta)).getD 0)
      (by omega) (by omega)
    rw [factor, Int.toNat_natCast] at hbounds
    rw [Int16.ofInt_eq_ofNat] at hone
    rw [lumaFactor, Words.toInt_add16 (by omega) (by omega), hone, hword]
  exact ⟨by rw [hsum, factor, Int.toNat_natCast], hbounds⟩

theorem toInt_wideFactor (hdenominator : t.chromaDenominator = d) (hd : d ≤ 7)
    {weight : CodedWeight} (hweight : weight.Within limit) :
    (t.wideFactor weight).toInt = factor d (some weight) := by
  have hdelta := hweight.factorDelta
  have hbounds := factor_bounds_of_within hd hweight
  have hone := (Words.toInt_shiftOne hd).1
  have hword := Int32.toInt_ofInt_of_le (n := weight.factorDelta) (by omega) (by omega)
  rw [factor, Int.toNat_natCast, Option.map_some, Option.getD_some] at hbounds ⊢
  rw [wideFactor, hdenominator, Words.toInt_add (by omega) (by omega), hone, hword]

theorem holds_chromaFactor (hdenominator : t.chromaDenominator = d) (hd : d ≤ 7)
    {weight : Option CodedWeight} (hweight : ∀ w ∈ weight, w.Within limit) :
    HoldsFactor (t.chromaFactor weight) (factor d weight) := by
  have hbounds := factor_bounds hd (delta_bounds hweight)
  refine ⟨?_, hbounds⟩
  cases weight with
  | none =>
    rw [chromaFactor, hdenominator, (Words.toInt_shiftOne hd).2, factor, Int.toNat_natCast]
    exact (Int.add_zero _).symm
  | some w =>
    have hwide := toInt_wideFactor hdenominator hd (hweight w rfl)
    rw [chromaFactor, Words.toInt_narrow (by omega) (by omega), hwide]

theorem toInt_clip {lo hi : Int32} (hle : lo.toInt ≤ hi.toInt) (value : Int32) :
    (clip lo hi value).toInt = max lo.toInt (min hi.toInt value.toInt) := by
  unfold clip
  split_ifs with hlow hhigh
  · rw [Int32.lt_iff_toInt_lt] at hlow
    omega
  · rw [Int32.lt_iff_toInt_lt] at hlow hhigh
    omega
  · rw [Int32.lt_iff_toInt_lt] at hlow hhigh
    omega

/-- The middle of the range for a factor, before it is divided and after, fits in 25 bits. -/
theorem middle_bounds {half : Nat} {factor : Int} (hhalf : half ≤ 2 ^ 15)
    (hfactor : -127 ≤ factor ∧ factor ≤ 255) (d : Nat) :
    (-(2 ^ 23) ≤ half * factor ∧ half * factor ≤ 2 ^ 23) ∧
      -(2 ^ 23) ≤ half * factor / 2 ^ d ∧ half * factor / 2 ^ d ≤ 2 ^ 23 := by
  have hproduct : -(2 ^ 23) ≤ half * factor ∧ half * factor ≤ 2 ^ 23 := by
    have hhalf : (half : Int) ≤ 2 ^ 15 := by exact_mod_cast hhalf
    constructor <;> nlinarith
  have hone : (1 : Int) ≤ 2 ^ d := one_le_pow₀ (by decide)
  refine ⟨hproduct, ?_, ?_⟩
  · rw [Int.le_ediv_iff_mul_le (by omega)]
    nlinarith
  · refine Int.ediv_le_of_le_mul (by omega) ?_
    nlinarith

section Offsets

variable {weight : CodedWeight} (hdenominator : t.chromaDenominator = d) (hd : d ≤ 7)
  (hpos : 0 < t.halfRange) (hhalf : t.halfRange ≤ 2 ^ 15)
  (hweight : weight.Within (4 * t.halfRange))

include hhalf

theorem toInt_half : (Int32.ofNat t.halfRange).toInt = t.halfRange :=
  Int32.toInt_ofNat_of_lt (Nat.lt_of_le_of_lt hhalf (by decide))

include hpos in
theorem toInt_limits : (-Int32.ofNat t.halfRange).toInt = -t.halfRange ∧
    (Int32.ofNat t.halfRange - 1).toInt = t.halfRange - 1 := by
  have hword := toInt_half hhalf
  have hone : (1 : Int32).toInt = 1 := rfl
  constructor
  · rw [Words.toInt_neg, hword]
    omega
  · rw [Words.toInt_sub, hword, hone] <;> omega

include hdenominator hd hweight

/-- The product is as exact as its quotient. -/
theorem toInt_middle :
    ((Int32.ofNat t.halfRange * t.wideFactor weight) >>> Int32.ofInt t.chromaDenominator).toInt =
      t.halfRange * factor d (some weight) / 2 ^ d := by
  have hfactor := factor_bounds_of_within hd hweight
  have hwide := toInt_wideFactor hdenominator hd hweight
  have hword := toInt_half hhalf
  obtain ⟨hproduct, -⟩ := middle_bounds hhalf hfactor d
  rw [← hword, ← hwide] at hproduct ⊢
  rw [hdenominator, Words.toInt_shiftRight _ hd, Words.toInt_mul (by omega) (by omega)]

include hpos

theorem toInt_chromaOffset :
    (t.chromaOffset weight).toInt = offset t.halfRange d weight := by
  have hfactor := factor_bounds_of_within hd hweight
  obtain ⟨-, hbounds⟩ := middle_bounds hhalf hfactor d
  obtain ⟨hlow, hhigh⟩ := toInt_limits hpos hhalf
  have hmiddle := toInt_middle hdenominator hd hhalf hweight
  have hword := toInt_half hhalf
  have hcoded := hweight.offset
  have hdelta := Int32.toInt_ofInt_of_le (n := weight.offset) (by omega) (by omega)
  have hsum : (Int32.ofNat t.halfRange + Int32.ofInt weight.offset).toInt =
      t.halfRange + weight.offset := by
    rw [Words.toInt_add, hword, hdelta] <;> omega
  unfold chromaOffset offset
  extract_lets word middle
  have hrest : (word + Int32.ofInt weight.offset - middle).toInt =
      t.halfRange + weight.offset - t.halfRange * factor d (some weight) / 2 ^ d := by
    rw [Words.toInt_sub, hsum, hmiddle] <;> rw [hsum, hmiddle] <;> omega
  have hclip : (clip (-word) (word - 1) (word + Int32.ofInt weight.offset - middle)).toInt =
      max (-(t.halfRange : Int)) (min (t.halfRange - 1)
        (t.halfRange + weight.offset - t.halfRange * factor d (some weight) / 2 ^ d)) := by
    rw [toInt_clip, hlow, hhigh, hrest]
    rw [hlow, hhigh]
    omega
  rw [Words.toInt_narrow, hclip, Int.toNat_natCast, Int.fdiv_eq_ediv_of_nonneg _ (by positivity)]
    <;> rw [hclip] <;> omega

end Offsets

/-! ### Tables -/

theorem InRange.exact (h : t.InRange half) (hpos : 0 < half) (hhalf : half ≤ 2 ^ 15) :
    t.Exact half := by
  obtain ⟨hnonneg, hmax⟩ := h.chromaDenominator
  obtain ⟨d, hd⟩ := Int.eq_ofNat_of_zero_le hnonneg
  have hd7 : d ≤ 7 := by omega
  obtain rfl := h.halfRange
  have hentry : ∀ list ∈ [t.list0, t.list1], ∀ i : Nat, ∀ e ∈ list[i]?,
      EntryWeights.Within t.halfRange e :=
    fun list hlist i e he => h.entries list hlist e (List.mem_of_getElem? he)
  have hchroma : ∀ list ∈ [t.list0, t.list1], ∀ i : Nat, ∀ kind ∈ [Prod.fst, Prod.snd],
      ∀ weight ∈ (list[i]?.bind (·.chroma)).map kind,
        CodedWeight.Within (4 * t.halfRange) weight := by
    intro list hlist i kind hkind weight hweight
    obtain ⟨weights, hweights, rfl⟩ := Option.map_eq_some_iff.mp hweight
    obtain ⟨e, he, hweights⟩ := Option.bind_eq_some_iff.mp hweights
    have hboth := (hentry list hlist i e he).chroma weights hweights
    rcases List.mem_pair.mp hkind with rfl | rfl
    · exact hboth.1
    · exact hboth.2
  refine ⟨h.chromaDenominator, fun list hlist i _ => ?_, ?_, ?_⟩
  · have hluma : ∀ weight ∈ list[i]?.bind (·.luma), weight.Within t.halfRange := by
      intro weight hweight
      obtain ⟨e, he, hweight⟩ := Option.bind_eq_some_iff.mp hweight
      exact (hentry list hlist i e he).luma weight hweight
    exact holds_lumaFactor h.lumaDenominator hluma
  · intro list hlist i _ kind hkind
    rw [hd]
    exact holds_chromaFactor hd hd7 (hchroma list hlist i kind hkind)
  · intro list hlist i _ kind hkind weight hweight
    have hword := toInt_chromaOffset hd hd7 hpos hhalf (hchroma list hlist i kind hkind _ hweight)
    rw [hd, ← hword]
    exact ⟨rfl, (t.chromaOffset weight).le_toInt, (t.chromaOffset weight).toInt_lt⟩

end WeightTable

/-- Half the range of offsets fits in a word of 16 bits as it is. -/
theorem Sps.Limited.weightHalfRange {sps : Sps} (h : sps.Limited) :
    0 < sps.weightHalfRange ∧ sps.weightHalfRange ≤ 2 ^ 15 := by
  have hdepth := h.bitDepth
  unfold Sps.weightHalfRange Sps.bitDepth
  split
  · rw [pow2_eq]
    exact ⟨Nat.two_pow_pos _, Nat.pow_le_pow_right (by decide) (by omega)⟩
  · decide

namespace Session

variable {s : Session}

/-- **Weights never lose precision.**  Whatever parameter sets have been accepted, the words of
a weight table that is accepted with them hold the factors and offsets. -/
theorem Reachable.weights_exact (hs : s.Reachable) {id : Nat} {pps : Pps}
    (hpps : s.pictureSets.get? id = some pps) {lists : RefLists} {inPictureHeader : Bool}
    {active : Nat × Nat} {r : BitReader} {t : WeightTable}
    (hread : ((WeightTable.read (PictureHeader.weightRules pps lists inPictureHeader active)).run
      r).1 = .ok t) : t.Exact pps.sps.weightHalfRange := by
  obtain ⟨hpos, hhalf⟩ := (hs.limited id pps hpps).sps.weightHalfRange
  have hrange := (WeightTable.read_inRange _).of_run hread
  exact hrange.exact hpos hhalf

/-- A session with sets for samples of 16 bits with extended precision, whose pictures are
weighted. -/
def extendedPrecision : Session :=
  (start true).after (.sequenceSet {
      header := { kind := .sps, temporalIdPlus1 := 1 }
      bytes := [0x00, 0x79, 0x00, 0xd9, 0x49, 0x56, 0x40, 0x74, 0x60, 0x69, 0x43, 0x33, 0x02, 0xd6,
        0x56, 0x20, 0xd7, 0x70, 0x2a, 0x37, 0x11, 0x80, 0x40, 0x86, 0x75, 0x41, 0x3e, 0x55,
        0xfb, 0xde, 0xff, 0x52, 0x22, 0x91, 0x5e, 0x52, 0xb2, 0xb4, 0xc2, 0x12, 0x7d, 0x11,
        0xa2, 0x13, 0x93, 0xfe, 0x57, 0xff, 0x22, 0xd5, 0xeb, 0x42, 0x6b, 0x27, 0x7f, 0xeb,
        0x26, 0xe4, 0xee, 0xa4, 0xe0, 0x7f, 0x16, 0x05, 0x28, 0x7d, 0x8a, 0x14, 0x1c, 0xec,
        0xb0, 0x1e, 0x80] })
    |>.after (.pictureSet {
      header := { kind := .pps, temporalIdPlus1 := 1 }
      bytes := [0x00, 0x81, 0x00, 0x00, 0x20, 0x43, 0x22, 0x6d, 0x02] })

theorem extendedPrecision_reachable : extendedPrecision.Reachable :=
  .after _ (.after _ (.start true))

/-- A weight table with the largest differences that can be coded for 16 bits. -/
def extremeWeights : BitReader :=
  .ofBytes false [0x10, 0x3f, 0x01, 0xfc, 0x00, 0x01, 0x00, 0x01, 0x00, 0x80, 0x80, 0x00, 0x10,
    0x00, 0x05, 0x30]

/-- The largest factor and both of the largest offsets. -/
theorem weights_exact_extendedPrecision : ∃ pps t,
    extendedPrecision.pictureSets.get? 0 = some pps ∧ pps.sps.weightHalfRange = 2 ^ 15 ∧
    ((WeightTable.read (PictureHeader.weightRules pps {} false (1, 0))).run extremeWeights).1 =
      .ok t ∧
    (t.lumaFactor (some ⟨127, -0x8000⟩)).toInt = 255 ∧
    (t.chromaOffset ⟨-128, -0x20000⟩).toInt = 0x7fff ∧ (t.chromaOffset ⟨1, -1⟩).toInt = -0x8000 ∧
    t.list0 = [{ luma := some ⟨127, -0x8000⟩
                 chroma := some (⟨-128, -0x20000⟩, ⟨1, -1⟩) }] ∧
    t.Exact pps.sps.weightHalfRange := by
  have hcheck : (extendedPrecision.pictureSets.get? 0).any (fun pps =>
      pps.sps.weightHalfRange == 2 ^ 15 &&
      match ((WeightTable.read (PictureHeader.weightRules pps {} false (1, 0))).run
        extremeWeights).1 with
      | .ok t => (t.lumaFactor (some ⟨127, -0x8000⟩)).toInt == 255 &&
          (t.chromaOffset ⟨-128, -0x20000⟩).toInt == 0x7fff &&
          (t.chromaOffset ⟨1, -1⟩).toInt == -0x8000 &&
          t.list0 == [{ luma := some ⟨127, -0x8000⟩
                        chroma := some (⟨-128, -0x20000⟩, ⟨1, -1⟩) }]
      | .error _ => false) = true := by
    decide +kernel
  rw [Option.any_eq_true] at hcheck
  obtain ⟨pps, hpps, hcheck⟩ := hcheck
  rw [Bool.and_eq_true, beq_iff_eq] at hcheck
  obtain ⟨hhalf, hcheck⟩ := hcheck
  split at hcheck
  · rename_i t hread
    simp only [Bool.and_eq_true, beq_iff_eq] at hcheck
    obtain ⟨⟨⟨hfactor, hlargest⟩, hleast⟩, hlist⟩ := hcheck
    exact ⟨pps, t, hpps, hhalf, hread, hfactor, hlargest, hleast, hlist,
      extendedPrecision_reachable.weights_exact hpps hread⟩
  · cases hcheck

end Session

end CodedVideo
