import Soapy.Lime.RegisterBits
import Soapy.Lime.Synthesizers

/-! # What the synthesizers are programmed with

The divider is the largest or the middle of those whose VCO frequency is in the range. The VCO
frequency over the reference clock is written as an integer part, from which an offset is taken, and
a fraction of 20 bits; what is read back is less than one unit of the fraction below.
-/

namespace Soapy.Lime.Session

open Lib LMS7002M

variable {x : Rat}

theorem floor_of_nonneg (positive : 0 ≤ x) :
    ((truncate x).toNat : Rat) ≤ x ∧ x < (truncate x).toNat + 1 := by
  have nonneg : 0 ≤ truncate x := le_truncate positive (by simpa using positive)
  have same : ((truncate x).toNat : Rat) = (truncate x : ℤ) := by
    rw [← Int.cast_natCast, Int.toNat_of_nonneg nonneg]
  rw [same]
  exact ⟨truncate_le positive, lt_truncate_add_one positive⟩

theorem floor_lt (positive : 0 ≤ x) {bound : Nat} (below : x < bound) :
    (truncate x).toNat < bound := by
  have low := (floor_of_nonneg positive).1
  exact_mod_cast low.trans_lt below

theorem toUInt16_floor (positive : 0 ≤ x) (below : x < 65536) :
    (toUInt16 x).toNat ≤ x ∧ x < (toUInt16 x).toNat + 1 := by
  have small := floor_lt positive (show x < (65536 : Nat) by exact_mod_cast below)
  have value : (toUInt16 x).toNat = (truncate x).toNat := by
    have nonneg : 0 ≤ truncate x := le_truncate positive (by simpa using positive)
    rw [toUInt16, UInt16.ofInt, UInt16.toNat_ofNat']
    omega
  rw [value]
  exact floor_of_nonneg positive

theorem toUInt32_floor (positive : 0 ≤ x) (below : x < 4294967296) :
    (toUInt32 x).toNat ≤ x ∧ x < (toUInt32 x).toNat + 1 := by
  have small := floor_lt positive (show x < (4294967296 : Nat) by exact_mod_cast below)
  have value : (toUInt32 x).toNat = (truncate x).toNat := by
    have nonneg : 0 ≤ truncate x := le_truncate positive (by simpa using positive)
    rw [toUInt32, UInt32.ofInt, UInt32.toNat_ofNat']
    omega
  rw [value]
  exact floor_of_nonneg positive

theorem high_bit {v : UInt16} {n i : Nat} (fits : v.toNat < 2 ^ n) (high : n ≤ i) :
    v.toBitVec.getLsbD i = false := by
  rw [← BitVec.testBit_toNat]
  exact Nat.testBit_lt_two_pow (lt_of_lt_of_le fits (Nat.pow_le_pow_right (by decide) high))

theorem integer_read {g : UInt16} (fits : g.toNat < 1024) (register h : UInt16) :
    bitsOf (replaceBits (replaceBits register 13 4 g) 3 0 h) 13 0 >>> 4 = g := by
  apply same_bits
  intro i inside
  have shifted (x : UInt16) : (x >>> 4).toBitVec.getLsbD i = x.toBitVec.getLsbD (4 + i) := by
    simp
  rw [shifted, bitsOf_bit (by decide) (by decide), replaceBits_bit (by decide) (by decide),
    replaceBits_bit (by decide) (by decide)]
  have bits : (13 : UInt8).toNat = 13 ∧ (4 : UInt8).toNat = 4 ∧ (3 : UInt8).toNat = 3 ∧
    (0 : UInt8).toNat = 0 := ⟨rfl, rfl, rfl, rfl⟩
  simp only [bits]
  by_cases low : i < 10
  · rw [decide_eq_true (by omega), if_neg (by omega), if_pos (by omega), Bool.true_and]
    congr 1
    omega
  · rw [decide_eq_false (by omega), Bool.false_and, high_bit (n := 10) fits (by omega)]

theorem fraction_read {h : UInt16} (fits : h.toNat < 16) (register g : UInt16) :
    bitsOf (replaceBits (replaceBits register 13 4 g) 3 0 h) 13 0 &&& 0x000F = h := by
  apply same_bits
  intro i inside
  have masked (x : UInt16) :
      (x &&& 0x000F).toBitVec.getLsbD i = (decide (i < 4) && x.toBitVec.getLsbD i) := by
    interval_cases i <;> simp
  rw [masked, bitsOf_bit (by decide) (by decide), replaceBits_bit (by decide) (by decide)]
  have bits : (13 : UInt8).toNat = 13 ∧ (3 : UInt8).toNat = 3 ∧ (0 : UInt8).toNat = 0 :=
    ⟨rfl, rfl, rfl⟩
  simp only [bits]
  by_cases low : i < 4
  · rw [decide_eq_true low, decide_eq_true (by omega), if_pos (by omega), Bool.true_and,
      Bool.true_and]
    congr 1
    omega
  · rw [decide_eq_false low, Bool.false_and, high_bit (n := 4) fits (by omega)]

/-- The register with the prescaler, as `SetFrequencySX` leaves it. -/
def prescaled (register e : UInt16) : UInt16 :=
  replaceBits (replaceBits (replaceBits (replaceBits register 9 9 0) 10 10 e) 1 1 0) 2 2 0

theorem prescaler_read {e : UInt16} (fits : e.toNat < 2) (register : UInt16) :
    bitsOf (prescaled register e) 10 10 = e := by
  rw [prescaled, bitsOf_replaceBits_apart (by decide) (by decide) (by decide) (by decide)
      (.inr (by decide)), bitsOf_replaceBits_apart (by decide) (by decide) (by decide) (by decide)
      (.inr (by decide))]
  exact bitsOf_replaceBits (by decide) (by decide) fits _

theorem prescaled_powered (register e : UInt16) :
    replaceBits (prescaled register e) 2 1 0 = prescaled register e := by
  apply same_bits
  intro i inside
  rw [prescaled, replaceBits_bit (by decide) (by decide)]
  split
  · rename_i within
    have bits : (2 : UInt8).toNat = 2 ∧ (1 : UInt8).toNat = 1 := ⟨rfl, rfl⟩
    rw [replaceBits_bit (by decide) (by decide), replaceBits_bit (by decide) (by decide)]
    simp only [bits] at within ⊢
    have zero (j : Nat) : (0 : UInt16).toBitVec.getLsbD j = false := by simp
    by_cases here : i = 2
    · rw [if_pos (by omega), zero, zero]
    · rw [if_neg (by omega), if_pos (by omega), zero]
  · rfl

variable (q : UInt32)

theorem high_half : (q >>> 16).toUInt16.toNat = q.toNat / 65536 := by
  have bound := q.toNat_lt
  rw [UInt32.toNat_toUInt16, UInt32.toNat_shiftRight, Nat.shiftRight_eq_div_pow]
  have shift : (16 : UInt32).toNat % 32 = 16 := rfl
  rw [shift]
  omega

theorem low_half : (q &&& 0xFFFF).toUInt16.toNat = q.toNat % 65536 := by
  have mask : (0xFFFF : UInt32).toNat = 2 ^ 16 - 1 := rfl
  rw [UInt32.toNat_toUInt16, UInt32.toNat_and, mask, Nat.and_two_pow_sub_one_eq_mod]
  omega

theorem halves_joined :
    ((q >>> 16).toUInt16.toUInt32 * 65536) ||| (q &&& 0xFFFF).toUInt16.toUInt32 = q := by
  have bound := q.toNat_lt
  have factor : (65536 : UInt32).toNat = 65536 := rfl
  apply UInt32.toNat_inj.mp
  rw [UInt32.toNat_or, UInt32.toNat_mul, UInt16.toNat_toUInt32, UInt16.toNat_toUInt32, high_half,
    low_half, factor, Nat.mod_eq_of_lt (by omega)]
  have apart := Nat.shiftLeft_add_eq_or_of_lt (show q.toNat % 65536 < 2 ^ 16 by omega)
    (q.toNat / 65536)
  rw [Nat.shiftLeft_eq] at apart
  rw [← apart]
  omega

/-- The number that the integer part `n` and the fraction `q` stand for, with an offset. -/
def multiplier (offset : Nat) (n : UInt16) (q : UInt32) : Rat :=
  n.toNat + offset + q.toNat / 1048576

theorem multiplier_floor (offset : Nat) (small : offset ≤ 1024) (low : offset ≤ x)
    (high : x < offset + 1024) (n : UInt16) (q : UInt32) (integer : n = toUInt16 (x - offset))
    (fraction : q = toUInt32 ((x - (toUInt32 x).toNat) * 1048576)) :
    n.toNat < 1024 ∧ q.toNat < 1048576 ∧ multiplier offset n q ≤ x ∧
      x < multiplier offset n q + 1 / 1048576 := by
  have positive : (0 : Rat) ≤ offset := Nat.cast_nonneg offset
  have bound : (offset : Rat) ≤ 1024 := by exact_mod_cast small
  obtain ⟨nLow, nHigh⟩ := toUInt16_floor (x := x - offset) (by linarith) (by linarith)
  obtain ⟨mLow, mHigh⟩ := toUInt32_floor (x := x) (by linarith) (by linarith)
  rw [← integer] at nLow nHigh
  obtain ⟨qLow, qHigh⟩ := toUInt32_floor (x := (x - (toUInt32 x).toNat) * 1048576)
    (by nlinarith) (by nlinarith)
  rw [← fraction] at qLow qHigh
  have same : (toUInt32 x).toNat = n.toNat + offset := by
    have above : ((toUInt32 x).toNat : Rat) < (n.toNat + offset : Nat) + 1 := by
      push_cast
      linarith
    have below : ((n.toNat + offset : Nat) : Rat) < (toUInt32 x).toNat + 1 := by
      push_cast
      linarith
    have above' : (toUInt32 x).toNat < n.toNat + offset + 1 := by exact_mod_cast above
    have below' : n.toNat + offset < (toUInt32 x).toNat + 1 := by exact_mod_cast below
    omega
  rw [same] at qLow qHigh mLow mHigh
  push_cast at qLow qHigh mLow mHigh
  refine ⟨?_, ?_, ?_, ?_⟩
  · have small : (n.toNat : Rat) < 1024 := by linarith
    exact_mod_cast small
  · have small : (q.toNat : Rat) < 1048576 := by linarith
    exact_mod_cast small
  · unfold multiplier
    linarith
  · unfold multiplier
    linarith

def DividesCGEN (freq : Rat) (d : Nat) : Prop :=
  1930000000 < 2 * (d + 1) * freq ∧ 2 * (d + 1) * freq < 2940000000

theorem iHdiv_le (freq : Rat) : iHdiv freq ≤ 255 := by
  simp only [iHdiv]
  split
  · exact le_refl 255
  · omega

variable {freq : Rat}

theorem iHdiv_divides (positive : 0 < freq) {d : Nat} (small : d ≤ 255)
    (divides : DividesCGEN freq d) : DividesCGEN freq (iHdiv freq) := by
  obtain ⟨above, below⟩ := divides
  let low : Rat := 965000000 / freq
  let high : Rat := 1470000000 / freq
  have low_mul : low * freq = 965000000 := div_mul_cancel₀ _ positive.ne'
  have high_mul : high * freq = 1470000000 := div_mul_cancel₀ _ positive.ne'
  have iff (n : Nat) : DividesCGEN freq n ↔ low < n + 1 ∧ (n : Rat) + 1 < high := by
    constructor
    · intro ⟨above, below⟩
      exact ⟨lt_of_mul_lt_mul_right (by linarith) positive.le,
        lt_of_mul_lt_mul_right (by linarith) positive.le⟩
    · intro ⟨above, below⟩
      have left := mul_lt_mul_of_pos_right above positive
      have right := mul_lt_mul_of_pos_right below positive
      exact ⟨by linarith, by linarith⟩
  obtain ⟨dLow, dHigh⟩ := (iff d).mp ⟨above, below⟩
  have small' : (d : Rat) ≤ 255 := by exact_mod_cast small
  have low_pos : 0 < low := div_pos (by norm_num) positive
  have ratio : high * 193 = low * 294 := by
    have same : (high * 193) * freq = (low * 294) * freq := by linarith
    exact mul_right_cancel₀ positive.ne' same
  obtain ⟨aLow, aHigh⟩ := toUInt16_floor (x := low) low_pos.le (by linarith)
  obtain ⟨bLow, bHigh⟩ := toUInt16_floor (x := high - 1) (by linarith) (by linarith)
  have run : iHdiv freq = if 255 < ((toUInt16 low).toNat + (toUInt16 (high - 1)).toNat) / 2 then 255
      else ((toUInt16 low).toNat + (toUInt16 (high - 1)).toNat) / 2 := by
    have firstHalf : gCGEN_VCO_frequencies.1 / 2 / freq = low := by
      norm_num [gCGEN_VCO_frequencies, low]
    have secondHalf : gCGEN_VCO_frequencies.2 / 2 / freq = high := by
      norm_num [gCGEN_VCO_frequencies, high]
    rw [iHdiv, firstHalf, secondHalf]
  generalize (toUInt16 low).toNat = a at *
  generalize (toUInt16 (high - 1)).toNat = z at *
  have ad : a ≤ d := by
    have less : (a : Rat) < d + 1 := by linarith
    have less' : a < d + 1 := by exact_mod_cast less
    omega
  have dz : d ≤ z := by
    have less : (d : Rat) < z + 1 := by linarith
    have less' : d < z + 1 := by exact_mod_cast less
    omega
  rw [run, iff]
  split
  · rename_i large
    have top : (256 : Rat) ≤ z := by exact_mod_cast (show 256 ≤ z by omega)
    norm_num
    exact ⟨by linarith, by linarith⟩
  · -- the middle is below the highest divider, or the only one
    have atLeast : (a : Rat) ≤ ((a + z) / 2 : Nat) := by
      exact_mod_cast (show a ≤ (a + z) / 2 by omega)
    have atMost : (((a + z) / 2 : Nat) : Rat) ≤ d ∨ (((a + z) / 2 : Nat) : Rat) + 1 ≤ z := by
      by_cases same : a = z
      · exact .inl (by exact_mod_cast (show (a + z) / 2 ≤ d by omega))
      · exact .inr (by exact_mod_cast (show (a + z) / 2 + 1 ≤ z by omega))
    refine ⟨by linarith, ?_⟩
    cases atMost with
    | inl only => linarith
    | inr inner => linarith

theorem outOfRangeCGEN_iff (positive : 0 < freq) :
    OutOfRangeCGEN freq ↔ ¬ ∃ d ≤ 255, DividesCGEN freq d := by
  have inRange : ¬ OutOfRangeCGEN freq ↔ DividesCGEN freq (iHdiv freq) := by
    rw [OutOfRangeCGEN, not_or, not_le, not_le]
    exact Iff.rfl
  constructor
  · intro refused ⟨d, small, divides⟩
    exact inRange.mpr (iHdiv_divides positive small divides) refused
  · intro none
    by_contra accepted
    exact none ⟨iHdiv freq, iHdiv_le freq, inRange.mp accepted⟩

theorem cgenFrequency_written {refClk : Rat} (clock : 0 < refClk)
    (low : 1 ≤ dFvcoCGEN freq / refClk) (high : dFvcoCGEN freq / refClk < 1025) (x y z : UInt16) :
    let div := bitsOf (replaceBits z 10 3 (UInt16.ofNat (iHdiv freq))) 10 3
    let g := cgenFrequency refClk div
      (bitsOf (replaceBits (replaceBits x 13 4 (gINTCGEN refClk freq)) 3 0
        (gFRACCGEN refClk freq >>> 16).toUInt16) 13 0)
      (bitsOf (replaceBits y 15 0 (gFRACCGEN refClk freq &&& 0xFFFF).toUInt16) 15 0)
    div.toNat = iHdiv freq ∧ 0 ≤ freq - g ∧
      freq - g < refClk / (2 ^ 21 * (iHdiv freq + 1)) := by
  have small := iHdiv_le freq
  have divider : (UInt16.ofNat (iHdiv freq)).toNat = iHdiv freq :=
    UInt16.toNat_ofNat_of_lt (lt_of_le_of_lt small (by decide))
  obtain ⟨nSmall, qSmall, atMost, atLeast⟩ := multiplier_floor 1 (by decide)
    (by exact_mod_cast low) (by push_cast; linarith) (gINTCGEN refClk freq)
    (gFRACCGEN refClk freq) (by rw [gINTCGEN]; norm_num) rfl
  have fraction : (gFRACCGEN refClk freq >>> 16).toUInt16.toNat < 16 := by
    rw [high_half]
    omega
  simp only
  rw [bitsOf_replaceBits (by decide) (by decide)
    (show (UInt16.ofNat (iHdiv freq)).toNat < 2 ^ 8 by rw [divider]; omega),
    bitsOf_replaceBits (by decide) (by decide) (UInt16.toNat_lt _), cgenFrequency,
    integer_read nSmall, fraction_read fraction, halves_joined, divider]
  refine ⟨rfl, ?_⟩
  have whole : freq = refClk / 2 / (iHdiv freq + 1) * (dFvcoCGEN freq / refClk) := by
    rw [dFvcoCGEN]
    field_simp
  have unit : refClk / (2 ^ 21 * (iHdiv freq + 1)) =
      refClk / 2 / (iHdiv freq + 1) * (1 / 1048576) := by
    field_simp
    norm_num
  have scale : 0 < refClk / 2 / ((iHdiv freq : Rat) + 1) := by positivity
  have split (m : Rat) : freq - refClk / 2 / (iHdiv freq + 1) * m =
      refClk / 2 / (iHdiv freq + 1) * (dFvcoCGEN freq / refClk - m) := by
    rw [mul_sub, ← whole]
  unfold multiplier at atMost atLeast
  rw [unit, split]
  push_cast at atMost atLeast
  exact ⟨mul_nonneg scale.le (by linarith), mul_lt_mul_of_pos_left (by linarith) scale⟩

def DividesSX (freq : Rat) (k : Nat) : Prop :=
  3800000000 ≤ 2 ^ (k + 1) * freq ∧ 2 ^ (k + 1) * freq ≤ 7714000000

theorem div_loch_some {k : Nat} (found : div_loch freq = some k) :
    k ≤ 6 ∧ DividesSX freq k := by
  have member := List.mem_of_find?_eq_some found
  have divides := List.find?_some found
  rw [decide_eq_true_eq] at divides
  refine ⟨?_, divides⟩
  simp only [List.mem_cons, List.not_mem_nil, or_false] at member
  omega

theorem div_loch_none : div_loch freq = none ↔ ¬ ∃ k ≤ 6, DividesSX freq k := by
  constructor
  · intro refused ⟨k, small, divides⟩
    have fails := List.find?_eq_none.mp refused k
      (by simp only [List.mem_cons, List.not_mem_nil, or_false]; omega)
    exact fails (decide_eq_true divides)
  · intro none
    cases found : div_loch freq with
    | none => rfl
    | some k => exact absurd ⟨k, div_loch_some found⟩ none

theorem sxFrequency_written {refClk : Rat} {k : Nat} (clock : 0 < refClk) (small : k ≤ 6)
    (low : 4 ≤ dividerSX refClk (2 ^ (k + 1) * freq))
    (high : dividerSX refClk (2 ^ (k + 1) * freq) < 1028) (x y z w : UInt16) :
    let div := bitsOf (replaceBits z 8 6 (UInt16.ofNat k)) 8 6
    let div2 := bitsOf (prescaled w (if m_dThrF < 2 ^ (k + 1) * freq then 1 else 0)) 10 10
    let g := sxFrequency refClk
      (bitsOf (replaceBits (replaceBits x 13 4 (integerPart refClk (2 ^ (k + 1) * freq))) 3 0
        (fractionalPart refClk (2 ^ (k + 1) * freq) >>> 16).toUInt16) 13 0)
      (bitsOf (replaceBits y 15 0
        (fractionalPart refClk (2 ^ (k + 1) * freq) &&& 0xFFFF).toUInt16) 15 0) div div2
    div.toNat = k ∧ (div2 = if m_dThrF < 2 ^ (k + 1) * freq then 1 else 0) ∧ 0 ≤ freq - g ∧
      freq - g < (1 + div2.toNat) * refClk / 2 ^ (k + 21) := by
  have divider : (UInt16.ofNat k).toNat = k :=
    UInt16.toNat_ofNat_of_lt (lt_of_le_of_lt small (by decide))
  obtain ⟨nSmall, qSmall, atMost, atLeast⟩ := multiplier_floor 4 (by decide)
    (by exact_mod_cast low) (by push_cast; linarith) (integerPart refClk (2 ^ (k + 1) * freq))
    (fractionalPart refClk (2 ^ (k + 1) * freq)) (by rw [integerPart]; norm_num) rfl
  have fraction : (fractionalPart refClk (2 ^ (k + 1) * freq) >>> 16).toUInt16.toNat < 16 := by
    rw [high_half]
    omega
  obtain ⟨e, prescaler, two, value⟩ : ∃ e : UInt16,
      e = (if m_dThrF < 2 ^ (k + 1) * freq then 1 else 0) ∧ e.toNat < 2 ∧
        ((e.toNat : Nat) : Rat) = if m_dThrF < 2 ^ (k + 1) * freq then 1 else 0 := by
    split
    · exact ⟨1, rfl, by decide, rfl⟩
    · exact ⟨0, rfl, by decide, rfl⟩
  simp only [← prescaler]
  rw [bitsOf_replaceBits (by decide) (by decide)
    (show (UInt16.ofNat k).toNat < 2 ^ 3 by rw [divider]; omega),
    bitsOf_replaceBits (by decide) (by decide) (UInt16.toNat_lt _), prescaler_read two, sxFrequency,
    integer_read nSmall, fraction_read fraction, halves_joined, divider]
  refine ⟨rfl, rfl, ?_⟩
  have quotient : dividerSX refClk (2 ^ (k + 1) * freq) =
      2 ^ (k + 1) * freq / (refClk * (1 + e.toNat)) := by
    rw [dividerSX, value]
  have twice : (0 : Rat) < 1 + e.toNat := by positivity
  have whole : freq = refClk / 2 ^ (k + 1) * (e.toNat + 1) *
      dividerSX refClk (2 ^ (k + 1) * freq) := by
    rw [quotient]
    field_simp
    ring
  have unit : (1 + e.toNat) * refClk / 2 ^ (k + 21) =
      refClk / 2 ^ (k + 1) * (e.toNat + 1) * (1 / 1048576) := by
    rw [pow_add, pow_add]
    field_simp
    ring
  have scale : 0 < refClk / 2 ^ (k + 1) * ((e.toNat : Rat) + 1) := by positivity
  have split (m : Rat) : freq - refClk / 2 ^ (k + 1) * m * (e.toNat + 1) =
      refClk / 2 ^ (k + 1) * (e.toNat + 1) * (dividerSX refClk (2 ^ (k + 1) * freq) - m) := by
    rw [mul_sub, ← whole]
    ring
  unfold multiplier at atMost atLeast
  push_cast at atMost atLeast ⊢
  rw [unit, split]
  exact ⟨mul_nonneg scale.le (by linarith), mul_lt_mul_of_pos_left (by linarith) scale⟩

end Soapy.Lime.Session
