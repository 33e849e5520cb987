import Soapy.Lime.Session

/-! # The bits of a register

A parameter is some bits of a register that stand together. Writing them changes no other bit, and
reading them gives what was written.
-/

namespace Soapy.Lime

open LMS7002M Session

variable {msb lsb : UInt8} {register value : UInt16}

theorem ones_bit (j : Nat) : (65535#16).getLsbD j = decide (j < 16) := by
  by_cases inside : j < 16
  · interval_cases j <;> rfl
  · rw [BitVec.getLsbD_of_ge _ _ (by omega), decide_eq_false inside]

theorem same_bits {v w : UInt16} (same : ∀ i < 16, v.toBitVec.getLsbD i = w.toBitVec.getLsbD i) :
    v = w := by
  apply UInt16.toBitVec_inj.mp
  ext i inside
  exact same i inside

theorem replaceBits_bit (order : lsb ≤ msb) (small : msb < 16) (register value : UInt16) (i : Nat) :
    (replaceBits register msb lsb value).toBitVec.getLsbD i =
      if lsb.toNat ≤ i ∧ i ≤ msb.toNat then value.toBitVec.getLsbD (i - lsb.toNat)
      else register.toBitVec.getLsbD i := by
  have order' : lsb.toNat ≤ msb.toNat := order
  have small' : msb.toNat < 16 := small
  have low : lsb.toNat % 32 = lsb.toNat := by omega
  obtain ⟨w, width, bits⟩ :
      ∃ w, (4294967296 - lsb.toNat + msb.toNat + 1) % 32 = w ∧ lsb.toNat + w = msb.toNat + 1 :=
    ⟨_, rfl, by omega⟩
  unfold replaceBits
  simp only [UInt16.toBitVec_or, UInt16.toBitVec_and, UInt16.toBitVec_not]
  simp [UInt32.toBitVec_shiftLeft, BitVec.getLsbD_shiftLeft, low, width, ones_bit]
  by_cases inside : i < 16
  · by_cases above : lsb.toNat ≤ i
    · have start : i - lsb.toNat < 16 ∧ ¬ i < lsb.toNat := by omega
      simp only [decide_eq_true inside, decide_eq_true start.1, decide_eq_false start.2]
      by_cases below : i ≤ msb.toNat
      · have fits : i - lsb.toNat < w := by omega
        rw [decide_eq_true fits, if_pos ⟨above, below⟩]
        simp
      · have past : ¬ i - lsb.toNat < w ∧ i - lsb.toNat - w < 16 := by omega
        rw [decide_eq_false past.1, decide_eq_true past.2, if_neg fun both => below both.2]
        simp
    · have before : i < lsb.toNat := by omega
      rw [decide_eq_true inside, decide_eq_true before, if_neg fun both => above both.1]
      simp
  · have none : register.toBitVec.getLsbD i = false := BitVec.getLsbD_of_ge _ _ (by omega)
    rw [decide_eq_false inside, none, if_neg fun both => inside (by omega)]
    simp

theorem bitsOf_bit (order : lsb ≤ msb) (small : msb < 16) (register : UInt16) (i : Nat) :
    (bitsOf register msb lsb).toBitVec.getLsbD i =
      (decide (lsb.toNat + i ≤ msb.toNat) && register.toBitVec.getLsbD (lsb.toNat + i)) := by
  have order' : lsb.toNat ≤ msb.toNat := order
  have small' : msb.toNat < 16 := small
  have low : lsb.toNat % 32 = lsb.toNat := by omega
  obtain ⟨w, width, bits⟩ : ∃ w, (msb.toNat + 1) % 32 = w ∧ w = msb.toNat + 1 :=
    ⟨_, rfl, by omega⟩
  unfold bitsOf
  simp [UInt32.toBitVec_shiftLeft, BitVec.getLsbD_shiftLeft, low, width]
  by_cases inside : lsb.toNat + i ≤ msb.toNat
  · have fits : i < 16 ∧ lsb.toNat + i < 32 ∧ lsb.toNat + i < w := by omega
    rw [decide_eq_true fits.1, decide_eq_true fits.2.1, decide_eq_true fits.2.2,
      decide_eq_true inside]
    simp
  · by_cases far : 16 ≤ lsb.toNat + i
    · have none : register.toBitVec.getLsbD (lsb.toNat + i) = false := BitVec.getLsbD_of_ge _ _ far
      simp [none]
    · have past : ¬ lsb.toNat + i < w := by omega
      have ones : (4294967295#32).getLsbD (lsb.toNat + i - w) = true := by
        have bound : lsb.toNat + i - w < 16 := by omega
        generalize lsb.toNat + i - w = j at bound
        interval_cases j <;> rfl
      have inside' : lsb.toNat + i < 32 := by omega
      rw [decide_eq_true inside', decide_eq_false past, ones, decide_eq_false inside]
      simp

theorem bitsOf_replaceBits (order : lsb ≤ msb) (small : msb < 16)
    (fits : value.toNat < 2 ^ (msb.toNat - lsb.toNat + 1)) (register : UInt16) :
    bitsOf (replaceBits register msb lsb value) msb lsb = value := by
  have order' : lsb.toNat ≤ msb.toNat := order
  apply same_bits
  intro i _
  rw [bitsOf_bit order small, replaceBits_bit order small]
  by_cases inside : lsb.toNat + i ≤ msb.toNat
  · simp [inside]
  · have none : value.toBitVec.getLsbD i = false := by
      rw [← BitVec.testBit_toNat]
      exact Nat.testBit_lt_two_pow
        (lt_of_lt_of_le fits (Nat.pow_le_pow_right (by decide) (by omega)))
    simp [inside, none]

theorem bitsOf_replaceBits_apart {msb' lsb' : UInt8} (order : lsb ≤ msb) (small : msb < 16)
    (order' : lsb' ≤ msb') (small' : msb' < 16) (apart : msb < lsb' ∨ msb' < lsb)
    (register value : UInt16) :
    bitsOf (replaceBits register msb' lsb' value) msb lsb = bitsOf register msb lsb := by
  have apart' : msb.toNat < lsb'.toNat ∨ msb'.toNat < lsb.toNat := apart
  apply same_bits
  intro i _
  rw [bitsOf_bit order small, bitsOf_bit order small, replaceBits_bit order' small']
  by_cases inside : lsb.toNat + i ≤ msb.toNat
  · have other : ¬ (lsb'.toNat ≤ lsb.toNat + i ∧ lsb.toNat + i ≤ msb'.toNat) := by omega
    rw [if_neg other]
  · simp [inside]

end Soapy.Lime
