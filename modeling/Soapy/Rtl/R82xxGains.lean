import Soapy.Rtl.R82xxRegisters

/-! # Gains of the R820T

A gain is asked for in tenths of a decibel. The driver steps through the gains of the LNA and the
mixer in turn, or through those of the VGA, until it is reached. The search for the VGA moves its
index twice in each turn.
-/

namespace Soapy.Rtl.R82xx

open Lib

def VGA_BASE_GAIN : Int := -47

def DEFAULT_IF_VGA_VAL : Nat := 11

def vga_gain_steps : List Int :=
  [0, 26, 26, 30, 42, 35, 24, 13, 14, 32, 36, 34, 35, 37, 35, 36]

def lna_gain_steps : List Int :=
  [0, 9, 13, 40, 38, 13, 31, 22, 26, 31, 26, 14, 19, 5, 35, 13]

def mixer_gain_steps : List Int :=
  [0, 5, 10, 10, 19, 9, 10, 25, 17, 10, 8, 16, 13, 6, 3, -8]

def stepAt (steps : List Int) (index : Nat) : Int := steps.getD index 0

/-- The loop of `r82xx_get_*_gain_from_index`. -/
def gainUpTo (steps : List Int) (index : Nat) : Int := (steps.take (index + 1)).sum

def get_lna_gain_from_index (lna_index : Nat) : Int :=
  if 15 < lna_index then 0 else gainUpTo lna_gain_steps lna_index

def get_mixer_gain_from_index (mixer_index : Nat) : Int :=
  if 15 < mixer_index then 0 else gainUpTo mixer_gain_steps mixer_index

def get_vga_gain_from_index (vga_index : Nat) : Int :=
  if 15 < vga_index then 0 else VGA_BASE_GAIN + gainUpTo vga_gain_steps vga_index

/-- The turns that are left, from the sum and the indices so far. -/
def rf_gain_loop (gain : Int) : Nat → (total_gain : Int) → (lna_index mix_index : Nat) → Nat × Nat
  | 0, _, lna_index, mix_index => (lna_index, mix_index)
  | turns + 1, total_gain, lna_index, mix_index =>
    if gain ≤ total_gain then (lna_index, mix_index)
    else
      let lna_index := lna_index + 1
      let total_gain := total_gain + stepAt lna_gain_steps lna_index
      if gain ≤ total_gain then (lna_index, mix_index)
      else
        let mix_index := mix_index + 1
        rf_gain_loop gain turns (total_gain + stepAt mixer_gain_steps mix_index) lna_index
          mix_index

/-- The indices of the LNA and the mixer. -/
def get_rf_gain_index (gain : Int) : Nat × Nat := rf_gain_loop gain 15 0 0 0

/-- Both the body and the head of the loop count. -/
def if_gain_loop (gain : Int) (vga_index : Nat) (total_gain : Int) : Nat :=
  if vga_index < 15 then
    if gain ≤ total_gain then vga_index
    else
      if_gain_loop gain (vga_index + 1 + 1)
        (total_gain + stepAt vga_gain_steps (vga_index + 1))
  else vga_index
termination_by 15 - vga_index

def get_if_gain_index (gain : Int) : Nat := if_gain_loop gain 0 VGA_BASE_GAIN

/-- `last_if_mode` and `last_VGA_value`. -/
structure IfState where
  last_if_mode : Int
  last_VGA_value : Nat

/-- The mode that is kept, and `vga_gain_idx`. -/
def vgaFor (if_mode : Int) : Int × Nat :=
  if if_mode = 0 ∨ if_mode = 10016 then (if_mode, 0x10)
  else if -2500 ≤ if_mode ∧ if_mode ≤ 2500 then (if_mode, get_if_gain_index if_mode)
  else if 2500 < if_mode ∧ if_mode < 10000 then (if_mode, get_if_gain_index (if_mode - 5000))
  else if 10000 ≤ if_mode ∧ if_mode ≤ 10016 + 15 then (if_mode, (if_mode - 10000).toNat)
  else (10000 + DEFAULT_IF_VGA_VAL, DEFAULT_IF_VGA_VAL)

/-- The last part is `rtl_vga_control`, for a caller that asks for it. -/
def set_if_mode (usb : Bus) (p : Priv) (s : IfState) (if_mode : Int) :
    Option (Int × Priv × IfState × Bool) :=
  let (if_mode, vga_gain_idx) := vgaFor if_mode
  match write_reg_mask usb p 0x0c (UInt8.ofNat vga_gain_idx) 0x1f with
  | none => none
  | some (rc, p) =>
    if rc < 0 then some (rc, p, s, false)
    else some (rc, p, ⟨if_mode, vga_gain_idx⟩, vga_gain_idx.testBit 4)

theorem gainUpTo_succ (steps : List Int) (index : Nat) :
    gainUpTo steps (index + 1) = gainUpTo steps index + stepAt steps (index + 1) := by
  rw [gainUpTo, gainUpTo, stepAt, List.take_add_one, List.sum_append, List.getD_eq_getElem?_getD]
  cases steps[index + 1]? with
  | none => rfl
  | some step => simp

theorem vga_step_nonneg (index : Nat) : 0 ≤ stepAt vga_gain_steps index := by
  cases inside : vga_gain_steps[index]? with
  | none => simp [stepAt, inside]
  | some step =>
    have all : ∀ step ∈ vga_gain_steps, 0 ≤ step := by decide
    simp only [stepAt, List.getD_eq_getElem?_getD, inside, Option.getD_some]
    exact all step (List.mem_of_getElem? inside)

/-- The gain after `k` increments, the first of which is that of the LNA. -/
def rfGainAt (k : Nat) : Int :=
  get_lna_gain_from_index ((k + 1) / 2) + get_mixer_gain_from_index (k / 2)

def FirstPoint (gain : Int) (indices : Nat × Nat) : Prop :=
  ∃ k ≤ 30, indices = ((k + 1) / 2, k / 2) ∧ (∀ j < k, rfGainAt j < gain) ∧
    (k < 30 → gain ≤ rfGainAt k)

theorem rfGainAt_lna {i : Nat} (small : i < 15) :
    rfGainAt (2 * i + 1) = rfGainAt (2 * i) + stepAt lna_gain_steps (i + 1) := by
  have lna : (2 * i + 1 + 1) / 2 = i + 1 ∧ (2 * i + 1) / 2 = i := by omega
  have mixer : 2 * i / 2 = i := by omega
  rw [rfGainAt, rfGainAt, lna.1, lna.2, mixer, get_lna_gain_from_index, get_lna_gain_from_index,
    if_neg (by omega), if_neg (by omega), gainUpTo_succ]
  omega

theorem rfGainAt_mixer {i : Nat} (small : i < 15) :
    rfGainAt (2 * (i + 1)) = rfGainAt (2 * i + 1) + stepAt mixer_gain_steps (i + 1) := by
  have lna : (2 * (i + 1) + 1) / 2 = i + 1 ∧ (2 * i + 1 + 1) / 2 = i + 1 := by omega
  have mixer : 2 * (i + 1) / 2 = i + 1 ∧ (2 * i + 1) / 2 = i := by omega
  rw [rfGainAt, rfGainAt, lna.1, lna.2, mixer.1, mixer.2, get_mixer_gain_from_index,
    get_mixer_gain_from_index, if_neg (by omega), if_neg (by omega), gainUpTo_succ]
  omega

theorem rf_gain_loop_first {gain : Int} (turns i : Nat) (all : turns + i = 15)
    (below : ∀ j < 2 * i, rfGainAt j < gain) :
    FirstPoint gain (rf_gain_loop gain turns (rfGainAt (2 * i)) i i) := by
  induction turns generalizing i with
  | zero =>
    have last : i = 15 := by omega
    subst last
    exact ⟨30, by decide, rfl, below, fun more => absurd more (by decide)⟩
  | succ turns ih =>
    have small : i < 15 := by omega
    rw [rf_gain_loop]
    split
    · rename_i reached
      refine ⟨2 * i, by omega, ?_, below, fun _ => reached⟩
      rw [show (2 * i + 1) / 2 = i by omega, show 2 * i / 2 = i by omega]
    · rename_i missed
      have below' : ∀ j < 2 * i + 1, rfGainAt j < gain := by
        intro j before
        cases Nat.lt_succ_iff_lt_or_eq.mp before with
        | inl earlier => exact below j earlier
        | inr here => rw [here]; omega
      simp only
      rw [← rfGainAt_lna small]
      split
      · rename_i reached
        refine ⟨2 * i + 1, by omega, ?_, below', fun _ => reached⟩
        rw [show (2 * i + 1 + 1) / 2 = i + 1 by omega, show (2 * i + 1) / 2 = i by omega]
      · rename_i missed'
        rw [← rfGainAt_mixer small]
        apply ih (i + 1) (by omega)
        intro j before
        cases Nat.lt_or_ge j (2 * i + 1) with
        | inl earlier => exact below' j earlier
        | inr late =>
          have here : j = 2 * i + 1 := by omega
          rw [here]
          omega

theorem get_rf_gain_index_first (gain : Int) : FirstPoint gain (get_rf_gain_index gain) :=
  rf_gain_loop_first 15 0 rfl fun _ before => absurd before (Nat.not_lt_zero _)

theorem if_gain_loop_overshoots {gain : Int} (vga_index : Nat) (total_gain : Int)
    (even : vga_index % 2 = 0) (small : vga_index ≤ 16)
    (behind : total_gain ≤ VGA_BASE_GAIN + gainUpTo vga_gain_steps (vga_index - 1)) :
    if_gain_loop gain vga_index total_gain % 2 = 0 ∧
      (if_gain_loop gain vga_index total_gain < 16 → gain ≤
        VGA_BASE_GAIN + gainUpTo vga_gain_steps (if_gain_loop gain vga_index total_gain - 1)) := by
  induction vga_index, total_gain using if_gain_loop.induct gain with
  | case1 vga_index total_gain more reached =>
    rw [if_gain_loop, if_pos more, if_pos reached]
    exact ⟨even, fun _ => reached.trans behind⟩
  | case2 vga_index total_gain more missed ih =>
    rw [if_gain_loop, if_pos more, if_neg missed]
    apply ih (by omega) (by omega)
    have before : gainUpTo vga_gain_steps (vga_index - 1) ≤ gainUpTo vga_gain_steps vga_index := by
      cases vga_index with
      | zero => exact le_refl _
      | succ index =>
        rw [Nat.add_sub_cancel, gainUpTo_succ]
        have nonneg := vga_step_nonneg (index + 1)
        omega
    rw [Nat.add_sub_cancel, gainUpTo_succ]
    omega
  | case3 vga_index total_gain done =>
    rw [if_gain_loop, if_neg done]
    exact ⟨even, fun below => absurd below (by omega)⟩

def LeastIndex (gain : Int) (vga_index : Nat) : Prop :=
  vga_index ≤ 15 ∧ (∀ j < vga_index, get_vga_gain_from_index j < gain) ∧
    (vga_index < 15 → gain ≤ get_vga_gain_from_index vga_index)

theorem if_gain_index_least_iff (gain : Int) :
    LeastIndex gain (get_if_gain_index gain) ↔ gain ≤ VGA_BASE_GAIN := by
  constructor
  · intro ⟨small, before, enough⟩
    obtain ⟨even, behind⟩ : get_if_gain_index gain % 2 = 0 ∧ _ :=
      if_gain_loop_overshoots 0 VGA_BASE_GAIN rfl (by decide) (by decide)
    change get_if_gain_index gain < 16 → gain ≤
      VGA_BASE_GAIN + gainUpTo vga_gain_steps (get_if_gain_index gain - 1) at behind
    generalize get_if_gain_index gain = index at small before enough even behind
    cases Nat.eq_zero_or_pos index with
    | inl zero =>
      subst zero
      exact enough (by decide)
    | inr positive =>
      have missed := before (index - 1) (by omega)
      rw [get_vga_gain_from_index, if_neg (by omega)] at missed
      exact absurd (behind (by omega)) (not_le.mpr missed)
  · intro enough
    have none : get_if_gain_index gain = 0 := by
      rw [get_if_gain_index, if_gain_loop, if_pos (by decide), if_pos enough]
    rw [none]
    exact ⟨by decide, fun j before => absurd before (Nat.not_lt_zero j), fun _ => enough⟩

/-- What is written for a gain: the indices are in their fields, the first that are enough, and leave
the bit of the automatic gain alone. -/
structure GainsChosen (gain : Int) : Prop where
  vga : LeastIndex gain (get_if_gain_index gain)
  rf : FirstPoint gain (get_rf_gain_index gain)
  small : (get_rf_gain_index gain).1 ≤ 15 ∧ (get_rf_gain_index gain).2 ≤ 15
  apart : (get_rf_gain_index gain).1 - (get_rf_gain_index gain).2 ≤ 1 ∧
    (get_rf_gain_index gain).2 ≤ (get_rf_gain_index gain).1
  manual : (get_if_gain_index gain).testBit 4 = false ∧
    (get_rf_gain_index gain).1.testBit 4 = false ∧ (get_rf_gain_index gain).2.testBit 4 = false

theorem testBit_small {index : Nat} (small : index ≤ 15) : index.testBit 4 = false :=
  Nat.testBit_lt_two_pow (Nat.lt_of_le_of_lt small (by decide))

theorem gains_chosen_iff (gain : Int) : GainsChosen gain ↔ gain ≤ -47 := by
  constructor
  · intro chosen
    exact (if_gain_index_least_iff gain).mp chosen.vga
  · intro enough
    have vga := (if_gain_index_least_iff gain).mpr enough
    have rf := get_rf_gain_index_first gain
    obtain ⟨k, last, indices, -, -⟩ := get_rf_gain_index_first gain
    have lna : (get_rf_gain_index gain).1 = (k + 1) / 2 := congrArg Prod.fst indices
    have mixer : (get_rf_gain_index gain).2 = k / 2 := congrArg Prod.snd indices
    have small : (get_rf_gain_index gain).1 ≤ 15 ∧ (get_rf_gain_index gain).2 ≤ 15 := by omega
    exact ⟨vga, rf, small, by omega,
      testBit_small vga.1, testBit_small small.1, testBit_small small.2⟩

/-- 20 dB: the index is that of the automatic gain. -/
theorem vga_gain_200 : get_if_gain_index 200 = 0x10 ∧ ¬ GainsChosen 200 :=
  ⟨by simp [get_if_gain_index, if_gain_loop, stepAt, vga_gain_steps, VGA_BASE_GAIN],
    fun chosen => absurd ((if_gain_index_least_iff 200).mp chosen.vga) (by decide)⟩

end Soapy.Rtl.R82xx
