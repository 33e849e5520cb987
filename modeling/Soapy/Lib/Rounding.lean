import Mathlib

/-! # Rounding to integers

Dropping the fraction, and rounding to the nearest integer with halves away from zero, as C has
them, in any ordered field with a floor. Integer division that drops the fraction.
-/

namespace Soapy.Lib

section Field

variable {K : Type*} [Field K] [LinearOrder K] [FloorRing K]

/-- A conversion to an integer type. -/
def truncate (q : K) : ℤ := if 0 ≤ q then ⌊q⌋ else ⌈q⌉

def llround (q : K) : ℤ := if 0 ≤ q then ⌊q + 1 / 2⌋ else ⌈q - 1 / 2⌉

variable {q : K}

theorem truncate_le (positive : 0 ≤ q) : (truncate q : K) ≤ q := by
  rw [truncate, if_pos positive]
  exact Int.floor_le q

theorem lt_truncate_add_one (positive : 0 ≤ q) : q < truncate q + 1 := by
  rw [truncate, if_pos positive]
  exact Int.lt_floor_add_one q

theorem le_truncate {m : ℤ} (positive : 0 ≤ q) (bound : (m : K) ≤ q) : m ≤ truncate q := by
  rw [truncate, if_pos positive]
  exact Int.le_floor.mpr bound

variable [IsStrictOrderedRing K]

theorem abs_llround_sub_le (q : K) : |(llround q : K) - q| ≤ 1 / 2 := by
  rw [llround]
  split
  · have low := Int.floor_le (q + 1 / 2)
    have high := Int.lt_floor_add_one (q + 1 / 2)
    rw [abs_le]
    constructor <;> linarith
  · have low := Int.le_ceil (q - 1 / 2)
    have high := Int.ceil_lt_add_one (q - 1 / 2)
    rw [abs_le]
    constructor <;> linarith

theorem llround_eq {m : ℤ} (near : |q - m| < 1 / 2) : llround q = m := by
  have error := abs_llround_sub_le q
  have apart : |((llround q - m : ℤ) : K)| < 1 := by
    have split : ((llround q - m : ℤ) : K) = (llround q - q) + (q - m) := by
      push_cast
      ring
    rw [split]
    calc |(llround q - q : K) + (q - m)| ≤ |(llround q - q : K)| + |q - m| := abs_add_le _ _
      _ < 1 := by linarith
  have none : |llround q - m| < 1 := by exact_mod_cast apart
  have same := Int.abs_lt_one_iff.mp none
  omega

theorem llround_le {m : ℤ} (bound : q ≤ m) : llround q ≤ m := by
  rw [llround]
  split
  · have below : q + 1 / 2 < m + 1 := by linarith
    have floor : ⌊q + 1 / 2⌋ < m + 1 := by
      rw [Int.floor_lt]
      push_cast
      exact below
    omega
  · rw [Int.ceil_le]
    linarith

theorem le_llround {m : ℤ} (bound : (m : K) ≤ q) : m ≤ llround q := by
  rw [llround]
  split
  · rw [Int.le_floor]
    linarith
  · have above : (m : K) - 1 < q - 1 / 2 := by linarith
    have ceil : m - 1 < ⌈q - 1 / 2⌉ := by
      rw [Int.lt_ceil]
      push_cast
      exact above
    omega

end Field

/-- Between zero and a number. -/
def Toward (a x : ℤ) : Prop := 0 ≤ x ∧ x ≤ a ∨ a ≤ x ∧ x ≤ 0

theorem Toward.trans {a x y : ℤ} (first : Toward a x) (second : Toward x y) : Toward a y := by
  unfold Toward at *
  omega

theorem toward_mul {q b c : ℤ} (nonneg : 0 ≤ b) (le : b ≤ c) : Toward (q * c) (q * b) := by
  rcases le_total 0 q with front | back
  · exact .inl ⟨mul_nonneg front nonneg, mul_le_mul_of_nonneg_left le front⟩
  · exact .inr ⟨mul_le_mul_of_nonpos_left le back, mul_nonpos_of_nonpos_of_nonneg back nonneg⟩

/-- A quotient and its remainder, which have the sign of the dividend. -/
structure Quotient (a b q m : ℤ) : Prop where
  whole : a = q * b + m
  nonneg : 0 ≤ a → 0 ≤ q ∧ 0 ≤ m ∧ m < b
  nonpos : a ≤ 0 → q ≤ 0 ∧ -b < m ∧ m ≤ 0

theorem tdiv_quotient (a : ℤ) {b : ℤ} (positive : 0 < b) :
    Quotient a b (a.tdiv b) (a - a.tdiv b * b) := by
  have front : ∀ n : ℤ, 0 ≤ n → 0 ≤ n.tdiv b ∧ 0 ≤ n - n.tdiv b * b ∧ n - n.tdiv b * b < b := by
    intro n nonneg
    rw [Int.tdiv_eq_ediv_of_nonneg nonneg]
    have low := Int.ediv_mul_le n positive.ne'
    have high := Int.lt_ediv_add_one_mul_self n positive
    rw [add_mul, one_mul] at high
    exact ⟨Int.ediv_nonneg nonneg positive.le, by omega, by omega⟩
  constructor
  · omega
  · exact front a
  · intro nonpos
    have back := front (-a) (by omega)
    rw [Int.neg_tdiv, neg_mul] at back
    omega

namespace Quotient

variable {a b q m : ℤ}

theorem abs_remainder (quotient : Quotient a b q m) : |m| < b := by
  rw [abs_lt]
  rcases le_total 0 a with nonneg | nonpos
  · have bounds := quotient.nonneg nonneg
    omega
  · have bounds := quotient.nonpos nonpos
    omega

theorem product (quotient : Quotient a b q m) (positive : 0 < b) : Toward a (q * b) := by
  have whole := quotient.whole
  rcases le_total 0 a with nonneg | nonpos
  · obtain ⟨front, low, high⟩ := quotient.nonneg nonneg
    exact .inl ⟨mul_nonneg front positive.le, by omega⟩
  · obtain ⟨front, low, high⟩ := quotient.nonpos nonpos
    exact .inr ⟨by omega, mul_nonpos_of_nonpos_of_nonneg front positive.le⟩

theorem remainder (quotient : Quotient a b q m) (positive : 0 < b) : Toward a m := by
  have whole := quotient.whole
  rcases le_total 0 a with nonneg | nonpos
  · obtain ⟨front, low, high⟩ := quotient.nonneg nonneg
    have product := mul_nonneg front positive.le
    exact .inl ⟨low, by omega⟩
  · obtain ⟨front, low, high⟩ := quotient.nonpos nonpos
    have product := mul_nonpos_of_nonpos_of_nonneg front positive.le
    exact .inr ⟨by omega, high⟩

end Quotient

end Soapy.Lib
