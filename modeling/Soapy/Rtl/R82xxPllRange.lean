import Soapy.Lib.Greedy
import Soapy.Rtl.R82xxPll

/-! # Which frequencies the PLL makes

The VCO moves in steps of the crystal / 32768. One algorithm rounds to the nearest step; the other
adds up the halved crystal bit by bit, each half cut off. Nothing checks that the divider fits its
registers.
-/

namespace Soapy.Rtl.R82xx

open Lib

/-- Twice the crystal, times the divider of the PLL. -/
def Priv.vco (p : Priv) (xtal : UInt32) : ℚ := 2 * xtal.toNat * (p.integer + p.fraction / 65536)

def vco_min : Nat := 1770000000

def Pll.vco_max (t : Pll) : Nat := if t.vco_algo = 0 then 2 * vco_min else 3900000000

/-- The registers make the VCO that `freq` needs. -/
structure Programs (p : Priv) (t : Pll) (freq : UInt32) : Prop where
  above : vco_min ≤ p.vco t.xtal
  below : p.vco t.xtal ≤ t.vco_max
  close : |p.vco t.xtal - freq.toNat * 2 ^ (p.sel_div + 1)| ≤ t.xtal.toNat / 65536 + 64

/-- The VCO that is wanted, by either algorithm. -/
def vco_yc (freq : UInt32) : Nat := freq.toNat * 2 ^ (div_num_yc freq + 1)

def Pll.vco_mix (t : Pll) (freq : UInt32) : Nat := freq.toNat * (t.dividers freq).1.toNat

/-- No value is too large for its type, and the integer part is in the registers' range. -/
structure Pll.LosslessYc (t : Pll) (freq : UInt32) : Prop where
  sum : vco_yc freq + t.xtal.toNat / 65536 < 2 ^ 32
  doubled : 2 * t.xtal.toNat < 2 ^ 32
  few : (vco_yc freq + t.xtal.toNat / 65536) / (2 * t.xtal.toNat) < 256
  enough : 13 ≤ (vco_yc freq + t.xtal.toNat / 65536) / (2 * t.xtal.toNat)

structure Pll.LosslessMix (t : Pll) (freq : UInt32) : Prop where
  sum : freq.toNat + 500 < 2 ^ 32
  doubled : 2 * t.xtal.toNat < 2 ^ 32
  few : (t.xtal.toNat + 65536 * t.vco_mix freq) / (2 * t.xtal.toNat) / 65536 < 256
  enough : 13 ≤ (t.xtal.toNat + 65536 * t.vco_mix freq) / (2 * t.xtal.toNat) / 65536

def Pll.Lossless (t : Pll) (freq : UInt32) : Prop :=
  if t.vco_algo = 2 then t.LosslessYc freq else t.LosslessMix freq

def lowest (xtal : Nat) : Nat := (32768 * vco_min + xtal - 1) / xtal

/-- The last step that is not above it. -/
def highest (xtal vco_max : Nat) : Nat := 32768 * vco_max / xtal

/-- What the loop over the bits takes for them, of which the last `rounds` are left. -/
def weights (xtal : Nat) : Nat → List Nat
  | 0 => []
  | rounds + 1 => xtal / 2 ^ (15 - rounds) :: weights xtal rounds

def taken (xtal steps : Nat) : Nat :=
  2 * xtal * (steps / 65536) + Greedy.weigh (weights xtal 16) (steps % 65536)

/-- The wanted VCO is in the range, up to the rounding, and the divider in its registers'. -/
structure Pll.ProgrammableYc (t : Pll) (freq : UInt32) : Prop where
  lossless : t.LosslessYc freq
  above : taken t.xtal.toNat (lowest t.xtal.toNat) ≤ vco_yc freq + t.xtal.toNat / 65536
  below : vco_yc freq + t.xtal.toNat / 65536 <
    taken t.xtal.toNat (highest t.xtal.toNat t.vco_max + 1)

structure Pll.ProgrammableMix (t : Pll) (freq : UInt32) : Prop where
  lossless : t.LosslessMix freq
  divided : (t.dividers freq).1 ≠ 128
  above : 2 * t.xtal.toNat * lowest t.xtal.toNat ≤ t.xtal.toNat + 65536 * t.vco_mix freq
  below : t.xtal.toNat + 65536 * t.vco_mix freq <
    2 * t.xtal.toNat * (highest t.xtal.toNat t.vco_max + 1)

/-- The integer part, as far as it is kept, is above what the chip takes. -/
def Pll.TooHigh (t : Pll) (freq : UInt32) : Prop :=
  (128 / t.vco_power_ref - 1).toNat <
    (t.xtal.toNat + 65536 * t.vco_mix freq) / (2 * t.xtal.toNat % 2 ^ 32) / 65536 % 256

def Pll.Programmable (t : Pll) (freq : UInt32) : Prop :=
  if t.vco_algo = 2 then t.ProgrammableYc freq else t.TooHigh freq ∨ t.ProgrammableMix freq

def Priv.steps (p : Priv) : Nat := 65536 * p.integer + p.fraction

theorem lowest_le {xtal : Nat} (crystal : 0 < xtal) (steps : Nat) :
    lowest xtal ≤ steps ↔ 32768 * vco_min ≤ xtal * steps := by
  rw [lowest, Nat.div_le_iff_le_mul_add_pred crystal]
  omega

theorem le_highest {xtal : Nat} (crystal : 0 < xtal) (steps vco_max : Nat) :
    steps ≤ highest xtal vco_max ↔ xtal * steps ≤ 32768 * vco_max := by
  rw [highest, Nat.le_div_iff_mul_le crystal, Nat.mul_comm]

theorem Priv.vco_eq (p : Priv) (xtal : UInt32) :
    p.vco xtal = (xtal.toNat * p.steps : Nat) / 32768 := by
  rw [Priv.vco, Priv.steps]
  push_cast
  field_simp
  ring

theorem programs_iff (p : Priv) {t : Pll} (crystal : 0 < t.xtal.toNat) (freq : UInt32) :
    Programs p t freq ↔ lowest t.xtal.toNat ≤ p.steps ∧
      p.steps ≤ highest t.xtal.toNat t.vco_max ∧
      2 * (t.xtal.toNat * p.steps) ≤
        65536 * (freq.toNat * 2 ^ (p.sel_div + 1)) + t.xtal.toNat + 64 * 65536 ∧
      65536 * (freq.toNat * 2 ^ (p.sel_div + 1)) ≤
        2 * (t.xtal.toNat * p.steps) + t.xtal.toNat + 64 * 65536 := by
  have wanted : (freq.toNat : ℚ) * 2 ^ (p.sel_div + 1) =
      ((freq.toNat * 2 ^ (p.sel_div + 1) : Nat) : ℚ) := by push_cast; rfl
  rw [lowest_le crystal, le_highest crystal]
  generalize freq.toNat * 2 ^ (p.sel_div + 1) = v at wanted ⊢
  have made := p.vco_eq t.xtal
  generalize t.xtal.toNat * p.steps = n at made ⊢
  constructor
  · intro programs
    have above := programs.above
    have below := programs.below
    have close := abs_le.mp programs.close
    rw [made] at above below close
    rw [wanted] at close
    have above' : (32768 * vco_min : ℚ) ≤ n := by linarith
    have below' : (n : ℚ) ≤ 32768 * t.vco_max := by linarith
    have upper : (2 * n : ℚ) ≤ 65536 * v + t.xtal.toNat + 64 * 65536 := by linarith [close.2]
    have lower : (65536 * v : ℚ) ≤ 2 * n + t.xtal.toNat + 64 * 65536 := by linarith [close.1]
    exact ⟨by exact_mod_cast above', by exact_mod_cast below', by exact_mod_cast upper,
      by exact_mod_cast lower⟩
  · intro ⟨above, below, upper, lower⟩
    have above' : (32768 * vco_min : ℚ) ≤ n := by exact_mod_cast above
    have below' : (n : ℚ) ≤ 32768 * t.vco_max := by exact_mod_cast below
    have upper' : (2 * n : ℚ) ≤ 65536 * v + t.xtal.toNat + 64 * 65536 := by exact_mod_cast upper
    have lower' : (65536 * v : ℚ) ≤ 2 * n + t.xtal.toNat + 64 * 65536 := by exact_mod_cast lower
    refine ⟨?_, ?_, ?_⟩
    · rw [made]
      linarith
    · rw [made]
      linarith
    · rw [made, wanted, abs_le]
      constructor <;> linarith

theorem lowest_crystal {xtal steps : Nat} (crystal : 0 < xtal) (register : steps < 2 ^ 25)
    (above : lowest xtal ≤ steps) : 32768 ≤ xtal := by
  have reached := (lowest_le crystal steps).mp above
  by_contra small
  have below : xtal * steps ≤ 32767 * 2 ^ 25 := Nat.mul_le_mul (by omega) register.le
  rw [vco_min] at reached
  omega

section Mix

variable {xtal v : Nat}

theorem mix_close (crystal : 0 < xtal) :
    let steps := (xtal + 65536 * v) / (2 * xtal)
    2 * (xtal * steps) ≤ 65536 * v + xtal ∧ 65536 * v ≤ 2 * (xtal * steps) + xtal := by
  have whole := Nat.div_add_mod (xtal + 65536 * v) (2 * xtal)
  have rest := Nat.mod_lt (xtal + 65536 * v) (show 0 < 2 * xtal by omega)
  rw [Nat.mul_assoc] at whole
  omega

theorem le_mix (crystal : 0 < xtal) (steps : Nat) :
    steps ≤ (xtal + 65536 * v) / (2 * xtal) ↔ 2 * xtal * steps ≤ xtal + 65536 * v := by
  rw [Nat.le_div_iff_mul_le (by omega), Nat.mul_comm]

end Mix

section Yc

variable {xtal : Nat}

theorem weights_length (xtal rounds : Nat) : (weights xtal rounds).length = rounds := by
  induction rounds with
  | zero => rfl
  | succ rounds ih => rw [weights, List.length_cons, ih]

variable {rounds : Nat}

theorem halved (xtal : Nat) (few : rounds < 15) :
    2 * (xtal / 2 ^ (15 - rounds)) ≤ xtal / 2 ^ (15 - (rounds + 1)) := by
  have power : 2 ^ (15 - rounds) = 2 ^ (15 - (rounds + 1)) * 2 := by
    rw [← Nat.pow_succ]
    congr 1
    omega
  rw [power, ← Nat.div_div_eq_div_mul]
  omega

theorem weights_sum (xtal : Nat) (few : rounds ≤ 15) :
    (weights xtal rounds).sum ≤ xtal / 2 ^ (15 - rounds) := by
  induction rounds with
  | zero => exact Nat.zero_le _
  | succ rounds ih =>
    have half := halved xtal (show rounds < 15 by omega)
    have rest := ih (by omega)
    rw [weights, List.sum_cons]
    omega

theorem weights_dominant (xtal : Nat) (few : rounds ≤ 16) :
    Greedy.Dominant (weights xtal rounds) := by
  induction rounds with
  | zero => exact trivial
  | succ rounds ih => exact ⟨weights_sum xtal (by omega), ih (by omega)⟩

theorem weights_all (xtal : Nat) : (weights xtal 16).sum ≤ 2 * xtal := by
  have rest := weights_sum xtal (show 15 ≤ 15 from le_rfl)
  rw [weights, List.sum_cons]
  simp only [Nat.sub_self, Nat.pow_zero, Nat.div_one] at rest ⊢
  omega

theorem weights_above (large : 32768 ≤ xtal) :
    ∀ w ∈ weights xtal rounds, xtal / 65536 < w := by
  induction rounds with
  | zero => exact fun w member => absurd member List.not_mem_nil
  | succ rounds ih =>
    intro w member
    cases List.mem_cons.mp member with
    | inl first =>
      have power : 2 ^ (15 - rounds) ≤ 32768 :=
        Nat.pow_le_pow_right (show 0 < 2 by decide) (show 15 - rounds ≤ 15 by omega)
      have last : xtal / 32768 ≤ xtal / 2 ^ (15 - rounds) :=
        Nat.div_le_div_left power (Nat.two_pow_pos _)
      rw [first]
      omega
    | inr later => exact ih w later

theorem weigh_bounds (xtal : Nat) {s : Nat} (few : rounds ≤ 16) (small : s < 2 ^ rounds) :
    32768 * Greedy.weigh (weights xtal rounds) s ≤ xtal * s ∧
      xtal * s ≤ 32768 * (Greedy.weigh (weights xtal rounds) s + rounds) := by
  induction rounds generalizing s with
  | zero =>
    obtain rfl : s = 0 := Nat.lt_one_iff.mp small
    simp [weights, Greedy.weigh]
  | succ rounds ih =>
    rw [weights, Greedy.weigh, weights_length]
    by_cases digit : 2 ^ rounds ≤ s
    · rw [if_pos digit]
      rw [Nat.pow_succ] at small
      have rest := @ih (s - 2 ^ rounds) (by omega) (by omega)
      have whole := Nat.div_add_mod xtal (2 ^ (15 - rounds))
      have cut := Nat.mod_lt xtal (Nat.two_pow_pos (15 - rounds))
      have power : 2 ^ rounds * 2 ^ (15 - rounds) = 32768 := by
        rw [← Nat.pow_add, Nat.add_sub_cancel' (by omega)]
      have split : xtal * s = xtal * (s - 2 ^ rounds) + 2 ^ rounds * xtal := by
        rw [Nat.mul_comm (2 ^ rounds), ← Nat.mul_add, Nat.sub_add_cancel digit]
      have bit : 2 ^ rounds * xtal = 32768 * (xtal / 2 ^ (15 - rounds)) +
          2 ^ rounds * (xtal % 2 ^ (15 - rounds)) := by
        calc 2 ^ rounds * xtal
            = 2 ^ rounds * (2 ^ (15 - rounds) * (xtal / 2 ^ (15 - rounds)) +
                xtal % 2 ^ (15 - rounds)) := by rw [whole]
          _ = _ := by rw [Nat.mul_add, ← Nat.mul_assoc, power]
      have lost : 2 ^ rounds * (xtal % 2 ^ (15 - rounds)) ≤ 32768 := by
        rw [← power]
        exact Nat.mul_le_mul_left _ cut.le
      omega
    · rw [if_neg digit]
      have rest := @ih s (by omega) (by omega)
      omega

theorem sdm_bits_expand {pll_ref : UInt32} (large : 32768 ≤ pll_ref.toNat)
    (few : rounds ≤ 16) (vco_frac : UInt32) {sdm : UInt16} {a : Nat}
    (higher : sdm.toNat = 2 ^ rounds * a) :
    (sdm_bits pll_ref rounds vco_frac sdm).toNat =
      sdm.toNat + Greedy.expand (weights pll_ref.toNat rounds) vco_frac.toNat := by
  induction rounds generalizing vco_frac sdm a with
  | zero => rfl
  | succ rounds ih =>
    have bits : ∀ r < 16, (0x8000 >>> UInt16.ofNat (15 - r) : UInt16).toNat = 2 ^ r := by decide
    have con_frac : (pll_ref >>> UInt32.ofNat (15 - rounds)).toNat =
        pll_ref.toNat / 2 ^ (15 - rounds) := by
      have shift : (UInt32.ofNat (15 - rounds)).toNat = 15 - rounds :=
        Nat.mod_eq_of_lt (by omega)
      rw [UInt32.toNat_shiftRight, shift, Nat.mod_eq_of_lt (show 15 - rounds < 32 by omega),
        Nat.shiftRight_eq_div_pow]
    have set : (sdm ||| (0x8000 >>> UInt16.ofNat (15 - rounds))).toNat = 2 ^ rounds * (2 * a + 1) := by
      have apart := Nat.two_pow_add_eq_or_of_lt
        (show 2 ^ rounds < 2 ^ (rounds + 1) from Nat.pow_lt_pow_right (by decide) (by omega)) a
      rw [UInt16.toNat_or, bits rounds (by omega), higher, ← apart, Nat.pow_succ]
      ring
    have skip : sdm.toNat = 2 ^ rounds * (2 * a) := by
      rw [higher, Nat.pow_succ]
      ring
    have same : pll_ref >>> UInt32.ofNat (15 - rounds) ≤ vco_frac ↔
        pll_ref.toNat / 2 ^ (15 - rounds) ≤ vco_frac.toNat := by
      rw [UInt32.le_iff_toNat_le, con_frac]
    rw [sdm_bits, weights, Greedy.expand, weights_length]
    by_cases fits : pll_ref.toNat / 2 ^ (15 - rounds) ≤ vco_frac.toNat
    · have rest : (vco_frac - (pll_ref >>> UInt32.ofNat (15 - rounds))).toNat =
          vco_frac.toNat - pll_ref.toNat / 2 ^ (15 - rounds) := by
        rw [UInt32.toNat_sub_of_le _ _ (same.mpr fits), con_frac]
      have sum : (sdm ||| (0x8000 >>> UInt16.ofNat (15 - rounds))).toNat =
          sdm.toNat + 2 ^ rounds := by
        rw [set, skip]
        ring
      rw [if_pos (same.mpr fits), if_pos fits]
      by_cases nothing : vco_frac - (pll_ref >>> UInt32.ofNat (15 - rounds)) = 0
      · rw [if_pos nothing, ← rest, nothing, sum]
        rw [UInt32.toNat_zero,
          Greedy.expand_below fun w member => Nat.zero_lt_of_lt (weights_above large w member)]
        rfl
      · rw [if_neg nothing, ih (by omega) _ set, rest, sum]
        omega
    · rw [if_neg (mt same.mp fits), if_neg fits]
      exact ih (by omega) _ skip

theorem le_taken (crystal : 0 < xtal) (v steps : Nat) :
    steps ≤ 65536 * (v / (2 * xtal)) + Greedy.expand (weights xtal 16) (v % (2 * xtal)) ↔
      taken xtal steps ≤ v := by
  have fraction := Greedy.expand_lt (weights xtal 16) (v % (2 * xtal))
  have sum := (Greedy.weigh_le_sum (weights xtal 16) (steps % 65536)).trans (weights_all xtal)
  have bits := @Greedy.le_expand_iff _ (weights_dominant xtal le_rfl) (v % (2 * xtal))
    (steps % 65536) (by rw [weights_length]; exact Nat.mod_lt _ (by decide))
  have whole := Nat.div_add_mod v (2 * xtal)
  have rest := Nat.mod_lt v (show 0 < 2 * xtal by omega)
  have parts := Nat.div_add_mod steps 65536
  rw [weights_length] at fraction
  rw [taken]
  cases lt_trichotomy (steps / 65536) (v / (2 * xtal)) with
  | inl less =>
    have room : 2 * xtal * (steps / 65536 + 1) ≤ 2 * xtal * (v / (2 * xtal)) :=
      Nat.mul_le_mul_left _ less
    rw [Nat.mul_succ] at room
    omega
  | inr other =>
    cases other with
    | inl same =>
      rw [same] at parts ⊢
      omega
    | inr more =>
      have room : 2 * xtal * (v / (2 * xtal) + 1) ≤ 2 * xtal * (steps / 65536) :=
        Nat.mul_le_mul_left _ more
      rw [Nat.mul_succ] at room
      omega

theorem yc_close (crystal : 0 < xtal) (v : Nat) :
    let sum := v + xtal / 65536
    let steps := 65536 * (sum / (2 * xtal)) + Greedy.expand (weights xtal 16) (sum % (2 * xtal))
    2 * (xtal * steps) ≤ 65536 * v + xtal + 64 * 65536 ∧
      65536 * v ≤ 2 * (xtal * steps) + xtal + 64 * 65536 := by
  intro sum steps
  have fraction := Greedy.expand_lt (weights xtal 16) (sum % (2 * xtal))
  rw [weights_length] at fraction
  have dominant := weights_dominant xtal (le_refl 16)
  have whole := Nat.div_add_mod sum (2 * xtal)
  have rest := Nat.mod_lt sum (show 0 < 2 * xtal by omega)
  have split : xtal * steps = 65536 * (xtal * (sum / (2 * xtal))) +
      xtal * Greedy.expand (weights xtal 16) (sum % (2 * xtal)) := by
    rw [Nat.mul_add, Nat.mul_left_comm]
  rw [Nat.mul_assoc] at whole
  have upper : xtal * Greedy.expand (weights xtal 16) (sum % (2 * xtal)) ≤
      32768 * (sum % (2 * xtal) + 16) := by
    have fits := (Greedy.le_expand_iff dominant (weights_length xtal 16 ▸ fraction)).mp le_rfl
    have bound := (weigh_bounds xtal (le_refl 16) fraction).2
    omega
  have lower : 32768 * (sum % (2 * xtal)) <
      xtal * (Greedy.expand (weights xtal 16) (sum % (2 * xtal)) + 1) := by
    by_cases last : Greedy.expand (weights xtal 16) (sum % (2 * xtal)) + 1 < 2 ^ 16
    · have beyond : ¬ Greedy.weigh (weights xtal 16)
          (Greedy.expand (weights xtal 16) (sum % (2 * xtal)) + 1) ≤ sum % (2 * xtal) :=
        mt (Greedy.le_expand_iff dominant (weights_length xtal 16 ▸ last)).mpr
          (Nat.not_succ_le_self _)
      have bound := (weigh_bounds xtal (le_refl 16) last).1
      omega
    · have full : Greedy.expand (weights xtal 16) (sum % (2 * xtal)) + 1 = 65536 := by omega
      rw [full]
      omega
  rw [Nat.mul_succ] at lower
  rw [split]
  omega

end Yc

section Values

variable {t : Pll} {freq : UInt32}

section

variable (lossless : t.LosslessYc freq)
include lossless

theorem vco_exact_yc_toNat :
    (vco_exact_yc freq).toNat = vco_yc freq := by
  have few := div_num_yc_le freq
  have word := lossless.sum
  have shift : (UInt32.ofNat (div_num_yc freq + 1)).toNat = div_num_yc freq + 1 :=
    Nat.mod_eq_of_lt (by omega)
  rw [vco_exact_yc, UInt32.toNat_shiftLeft, shift, Nat.mod_eq_of_lt (show div_num_yc freq + 1 < 32 by omega),
    Nat.shiftLeft_eq]
  exact Nat.mod_eq_of_lt (by rw [← vco_yc]; omega)

omit lossless in
theorem rounding_toNat (pll_ref : UInt32) : (pll_ref >>> 16).toNat = pll_ref.toNat / 65536 := by
  rw [UInt32.toNat_shiftRight]
  exact Nat.shiftRight_eq_div_pow _ 16

omit lossless in
theorem doubled_toNat (lossless : 2 * t.xtal.toNat < 2 ^ 32) :
    (t.xtal * 2).toNat = 2 * t.xtal.toNat := by
  rw [UInt32.toNat_mul, Nat.mul_comm]
  exact Nat.mod_eq_of_lt lossless

theorem sum_yc_toNat :
    (vco_exact_yc freq + (t.xtal >>> 16)).toNat = vco_yc freq + t.xtal.toNat / 65536 := by
  rw [UInt32.toNat_add, vco_exact_yc_toNat lossless, rounding_toNat]
  exact Nat.mod_eq_of_lt lossless.sum

theorem nint_yc_toNat :
    (nint_yc t.xtal freq).toNat =
      (vco_yc freq + t.xtal.toNat / 65536) / (2 * t.xtal.toNat) := by
  rw [nint_yc, UInt32.toNat_toUInt8, UInt32.toNat_div, sum_yc_toNat lossless,
    doubled_toNat lossless.doubled]
  exact Nat.mod_eq_of_lt lossless.few

theorem integer_yc :
    (nint_yc t.xtal freq - 13).toNat + 13 =
      (vco_yc freq + t.xtal.toNat / 65536) / (2 * t.xtal.toNat) := by
  have nint := nint_yc_toNat lossless
  have enough := lossless.enough
  have thirteen : (13 : UInt8).toNat = 13 := rfl
  rw [UInt8.toNat_sub_of_le _ _ (UInt8.le_iff_toNat_le.mpr (by omega))]
  omega

theorem vco_frac_yc_toNat :
    (vco_frac_yc t.xtal freq + (t.xtal >>> 16)).toNat =
      (vco_yc freq + t.xtal.toNat / 65536) % (2 * t.xtal.toNat) := by
  have whole := Nat.div_add_mod (vco_yc freq + t.xtal.toNat / 65536) (2 * t.xtal.toNat)
  have word := lossless.sum
  have product : (t.xtal * 2 * (nint_yc t.xtal freq).toUInt32).toNat = 2 * t.xtal.toNat *
      ((vco_yc freq + t.xtal.toNat / 65536) / (2 * t.xtal.toNat)) := by
    rw [UInt32.toNat_mul, doubled_toNat lossless.doubled, UInt8.toNat_toUInt32,
      nint_yc_toNat lossless]
    exact Nat.mod_eq_of_lt (by omega)
  have order : vco_frac_yc t.xtal freq + (t.xtal >>> 16) =
      vco_exact_yc freq + (t.xtal >>> 16) - t.xtal * 2 * (nint_yc t.xtal freq).toUInt32 := by
    rw [vco_frac_yc]
    grind
  have sum := sum_yc_toNat lossless
  rw [order, UInt32.toNat_sub_of_le _ _ (UInt32.le_iff_toNat_le.mpr (by omega))]
  omega

theorem sdm_yc_expand (large : 32768 ≤ t.xtal.toNat) :
    sdm_yc t.xtal freq = Greedy.expand (weights t.xtal.toNat 16)
      ((vco_yc freq + t.xtal.toNat / 65536) % (2 * t.xtal.toNat)) := by
  have rest := vco_frac_yc_toNat lossless
  rw [sdm_yc, ← rest]
  by_cases whole : vco_frac_yc t.xtal freq = 0
  · rw [if_pos whole, whole, UInt32.zero_add, rounding_toNat,
      Greedy.expand_below (weights_above large)]
  · rw [if_neg whole, sdm_bits_expand large le_rfl _ (show (0 : UInt16).toNat = 2 ^ 16 * 0 from rfl)]
    exact Nat.zero_add _

end

theorem sdm_yc_lt (pll_ref freq : UInt32) : sdm_yc pll_ref freq < 65536 := by
  rw [sdm_yc]
  split
  · decide
  · exact UInt16.toNat_lt _

variable {p : Priv}

theorem programs_yc (crystal : 0 < t.xtal.toNat) (shows : Shows p (div_num_yc freq)
    ((nint_yc t.xtal freq - 13).toNat + 13) (sdm_yc t.xtal freq)) :
    t.LosslessYc freq ∧ Programs p t freq ↔ t.ProgrammableYc freq := by
  have made : t.LosslessYc freq → 32768 ≤ t.xtal.toNat → p.steps =
      65536 * ((vco_yc freq + t.xtal.toNat / 65536) / (2 * t.xtal.toNat)) +
        Greedy.expand (weights t.xtal.toNat 16)
          ((vco_yc freq + t.xtal.toNat / 65536) % (2 * t.xtal.toNat)) := by
    intro lossless large
    rw [Priv.steps, shows.integer, shows.fraction, integer_yc lossless, sdm_yc_expand lossless large]
  have wanted : freq.toNat * 2 ^ (p.sel_div + 1) = vco_yc freq := by rw [shows.sel_div, vco_yc]
  have reach := le_taken crystal (vco_yc freq + t.xtal.toNat / 65536)
  rw [programs_iff p crystal, wanted]
  constructor
  · intro ⟨lossless, above, below, _⟩
    have fraction := sdm_yc_lt t.xtal freq
    have integer := (nint_yc t.xtal freq - 13).toNat_lt
    have register : p.steps < 2 ^ 25 := by
      rw [Priv.steps, shows.integer, shows.fraction]
      omega
    have large := lowest_crystal crystal register above
    rw [made lossless large] at above below
    refine ⟨lossless, (reach _).mp above, ?_⟩
    exact Nat.lt_of_not_le fun more => Nat.not_succ_le_self _ (((reach _).mpr more).trans below)
  · intro ⟨lossless, above, below⟩
    have above' := (reach _).mpr above
    have below' := mt (reach _).mp (Nat.not_le_of_lt below)
    have large : 32768 ≤ t.xtal.toNat := by
      refine lowest_crystal crystal ?_ above'
      have bits := Greedy.expand_lt (weights t.xtal.toNat 16)
        ((vco_yc freq + t.xtal.toNat / 65536) % (2 * t.xtal.toNat))
      have few := lossless.few
      rw [weights_length] at bits
      omega
    rw [made lossless large]
    exact ⟨lossless, above', Nat.le_of_not_lt below', yc_close crystal (vco_yc freq)⟩

theorem vco_div_toNat (t : Pll) (freq : UInt32) : (t.vco_div freq).toNat =
    (t.xtal.toNat + 65536 * t.vco_mix freq) / (2 * t.xtal.toNat % 2 ^ 32) := by
  have crystal := t.xtal.toNat_lt
  have divider := (t.dividers freq).1.toNat_lt
  have wanted : freq.toNat * (t.dividers freq).1.toNat ≤ 2 ^ 32 * 2 ^ 8 :=
    Nat.mul_le_mul freq.toNat_lt.le divider.le
  have vco_freq : (freq.toUInt64 * (t.dividers freq).1.toUInt64).toNat = t.vco_mix freq := by
    rw [UInt64.toNat_mul, UInt32.toNat_toUInt64, UInt8.toNat_toUInt64]
    exact Nat.mod_eq_of_lt (by omega)
  have scaled : (65536 * (freq.toUInt64 * (t.dividers freq).1.toUInt64)).toNat =
      65536 * t.vco_mix freq := by
    rw [UInt64.toNat_mul, vco_freq]
    exact Nat.mod_eq_of_lt (by rw [Pll.vco_mix]; change 65536 * _ < _; omega)
  rw [Pll.vco_div, UInt64.toNat_div, UInt64.toNat_add, scaled, UInt32.toNat_toUInt64,
    UInt32.toNat_toUInt64, UInt32.toNat_mul]
  congr 1
  exact Nat.mod_eq_of_lt (by rw [Pll.vco_mix]; omega)

theorem nint_toNat (t : Pll) (freq : UInt32) : (t.nint freq).toNat =
    (t.xtal.toNat + 65536 * t.vco_mix freq) / (2 * t.xtal.toNat % 2 ^ 32) / 65536 % 256 := by
  rw [← vco_div_toNat, Pll.nint, UInt32.toNat_toUInt8, UInt64.toNat_toUInt32, UInt64.toNat_div]
  change (t.vco_div freq).toNat / 65536 % 2 ^ 32 % 256 = _
  omega

theorem refused_iff (t : Pll) (freq : UInt32) : t.Refused freq ↔ t.TooHigh freq := by
  rw [Pll.TooHigh, ← nint_toNat]
  exact UInt8.lt_iff_toNat_lt

theorem not_divided {steps : Nat} (doubled : 2 * t.xtal.toNat < 2 ^ 32)
    (close : 65536 * t.vco_mix freq ≤ 2 * (t.xtal.toNat * steps) + t.xtal.toNat)
    (none : t.dividers freq = (128, 0)) (sel_div : p.sel_div = 0)
    (above : 32768 * vco_min ≤ t.xtal.toNat * steps) :
    ¬ 2 * (t.xtal.toNat * steps) ≤
      65536 * (freq.toNat * 2 ^ (p.sel_div + 1)) + t.xtal.toNat + 64 * 65536 := by
  have wanted : t.vco_mix freq = freq.toNat * 128 := by
    rw [Pll.vco_mix, none]
    rfl
  rw [sel_div, vco_min] at *
  omega

theorem programs_mix (crystal : 0 < t.xtal.toNat) (shows : 13 ≤ (t.nint freq).toNat →
      Shows p (t.dividers freq).2.toNat (t.nint freq).toNat (t.sdm freq).toNat) :
    t.LosslessMix freq ∧ Programs p t freq ↔ t.ProgrammableMix freq := by
  have made (lossless : t.LosslessMix freq) : p.sel_div = (t.dividers freq).2.toNat ∧
      p.steps = (t.xtal.toNat + 65536 * t.vco_mix freq) / (2 * t.xtal.toNat) := by
    have few := lossless.few
    have enough := lossless.enough
    have nint := nint_toNat t freq
    have sdm := t.sdm_toNat freq
    have divider := vco_div_toNat t freq
    rw [Nat.mod_eq_of_lt lossless.doubled] at nint divider
    have kept := shows (by omega)
    refine ⟨kept.sel_div, ?_⟩
    rw [Priv.steps, kept.integer, kept.fraction, sdm, divider, nint]
    omega
  have close := @mix_close t.xtal.toNat (t.vco_mix freq) crystal
  have reach := @le_mix t.xtal.toNat (t.vco_mix freq) crystal
  rw [programs_iff p crystal]
  constructor
  · intro ⟨lossless, above, below, upper, _⟩
    obtain ⟨sel_div, steps⟩ := made lossless
    rw [steps] at above below upper
    refine ⟨lossless, ?_, (reach _).mp above, ?_⟩
    · intro wide
      have none : t.dividers freq = (128, 0) := by
        cases mix_search_spec ((freq + 500) / 1000) vco_min_khz (vco_max_khz t.vco_algo)
            (show 0 + 6 = 6 from rfl) with
        | inl none => exact none
        | inr found =>
          obtain ⟨i, inside, found, -⟩ := found
          have other : ∀ i < 6, UInt8.ofNat (2 ^ (i + 1)) ≠ 128 := by decide
          exact absurd ((congrArg Prod.fst found).symm.trans wide) (other i inside)
      rw [none] at sel_div
      exact not_divided lossless.doubled close.2 none sel_div ((lowest_le crystal _).mp above) upper
    · exact Nat.lt_of_not_le fun more => Nat.not_succ_le_self _ (((reach _).mpr more).trans below)
  · intro ⟨lossless, divided, above, below⟩
    obtain ⟨sel_div, steps⟩ := made lossless
    have wanted : freq.toNat * 2 ^ (p.sel_div + 1) = t.vco_mix freq := by
      cases mix_search_spec ((freq + 500) / 1000) vco_min_khz (vco_max_khz t.vco_algo)
          (show 0 + 6 = 6 from rfl) with
      | inl none => exact absurd (congrArg Prod.fst none) divided
      | inr found =>
        obtain ⟨i, inside, found, -⟩ := found
        have both : ∀ i < 6, (UInt8.ofNat (2 ^ (i + 1))).toNat = 2 ^ ((UInt8.ofNat i).toNat + 1) := by
          decide
        have first : (t.dividers freq).1 = UInt8.ofNat (2 ^ (i + 1)) := congrArg Prod.fst found
        have second : (t.dividers freq).2 = UInt8.ofNat i := congrArg Prod.snd found
        rw [sel_div, Pll.vco_mix, first, second, both i inside]
    rw [steps, wanted]
    exact ⟨lossless, (reach _).mpr above,
      Nat.le_of_not_lt (mt (reach _).mp (Nat.not_le_of_lt below)), by omega, by omega⟩

end Values

/-- Every transfer succeeds, the PLL locks and its fine tuning is at the reference. -/
theorem set_pll_programs {t : Pll} {data : Nat → Nat → UInt8} (limit : 2 ≤ t.priv.max_i2c_msg_len)
    (crystal : t.xtal ≠ 0) (locks : Locks data)
    (tuned : ∀ n, (data n 4 &&& 0x30) >>> 4 = t.vco_power_ref) (freq : UInt32) :
    ∃ rc t', set_pll succeeding (fun n => .ok (data n)) freq t = some (.ok rc, t') ∧
      ((0 ≤ rc → t.Lossless freq ∧ Programs t'.priv t freq) ↔ t.Programmable freq) := by
  have positive : 0 < t.xtal.toNat := Nat.pos_of_ne_zero fun zero => crystal (UInt32.toNat_inj.mp zero)
  rw [Pll.Lossless, Pll.Programmable]
  by_cases algo : t.vco_algo = 2
  · obtain ⟨t', does, shows⟩ := set_pll_does_yc limit locks algo freq
    rw [if_pos algo, if_pos algo]
    exact ⟨0, t', does, (forall_prop_of_true le_rfl).trans (programs_yc positive shows)⟩
  · obtain ⟨rc, t', does, result⟩ := set_pll_does_mix limit locks tuned algo freq
    rw [if_neg algo, if_neg algo]
    refine ⟨rc, t', does, ?_⟩
    rw [← refused_iff]
    by_cases refused : t.Refused freq
    · rw [if_pos refused] at result
      rw [result]
      exact iff_of_true (fun negative => absurd negative (by decide)) (Or.inl refused)
    · rw [if_neg refused] at result
      obtain ⟨rfl, shows⟩ := result
      exact (forall_prop_of_true le_rfl).trans
        ((programs_mix positive shows).trans (or_iff_right refused).symm)

def tuner (vco_algo : UInt8) : Pll where
  priv := ⟨fun _ => 0, fun _ => 0, fun _ => 0, 8, [], []⟩
  xtal := 28800000
  vco_algo := vco_algo
  vco_curr_min := 0xff
  vco_curr_max := 0xff
  rafael_chip := .CHIP_R820T
  disable_dither := 0
  last_vco_curr := 0xff
  tuner_pll_set := 0
  has_lock := 0
  reads := 0

theorem locked : Locks fun _ _ => 0x60 := fun _ => show (0x60 : UInt8) &&& 0x40 ≠ 0 by decide

theorem set_pll_programs_common : ∃ rc t',
    set_pll succeeding (fun _ => .ok fun _ => 0x60) 100000000 (tuner 0) = some (.ok rc, t') ∧
      (0 ≤ rc → (tuner 0).Lossless 100000000 ∧ Programs t'.priv (tuner 0) 100000000) := by
  have programmable : (tuner 0).ProgrammableMix 100000000 :=
    ⟨⟨by decide, by decide, by decide, by decide⟩, by decide, by decide, by decide⟩
  obtain ⟨rc, t', does, iff⟩ := set_pll_programs
    (show 2 ≤ (tuner 0).priv.max_i2c_msg_len by decide) (by decide) locked (fun _ => by decide) 100000000
  exact ⟨rc, t', does, iff.mpr (Or.inr programmable)⟩

/-- 10 MHz is below what any divider reaches. Both algorithms go on with one that is wrong. -/
theorem below_range_not_programmed :
    (∃ t', set_pll succeeding (fun _ => .ok fun _ => 0x60) 10000000 (tuner 0) = some (.ok 0, t') ∧
      ¬ Programs t'.priv (tuner 0) 10000000) ∧
    ∃ t', set_pll succeeding (fun _ => .ok fun _ => 0x60) 10000000 (tuner 2) = some (.ok 0, t') ∧
      ¬ (tuner 2).Lossless 10000000 := by
  constructor
  · obtain ⟨rc, t', does, result⟩ := set_pll_does_mix
      (show 2 ≤ (tuner 0).priv.max_i2c_msg_len by decide) locked (fun _ => by decide) (by decide) 10000000
    rw [if_neg (by decide)] at result
    obtain ⟨rfl, shows⟩ := result
    have lossless : (tuner 0).LosslessMix 10000000 := ⟨by decide, by decide, by decide, by decide⟩
    exact ⟨t', does, fun programs =>
      absurd ((programs_mix (by decide) shows).mp ⟨lossless, programs⟩).divided (by decide)⟩
  · obtain ⟨t', does, -⟩ := set_pll_does_yc
      (show 2 ≤ (tuner 2).priv.max_i2c_msg_len by decide) locked rfl 10000000
    exact ⟨t', does, fun lossless => absurd (Pll.LosslessYc.enough lossless) (by decide)⟩

end Soapy.Rtl.R82xx
