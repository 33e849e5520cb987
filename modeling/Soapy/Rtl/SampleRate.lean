import Soapy.Rtl.TunerRuns

/-! # The ratio of the resampler

The demodulator is given the ratio of the crystal and the sample rate in 28 bits, the last but
one of which stands for the missing bit above too. The computations in doubles are exact here.
-/

namespace Soapy.Rtl.Tuner

open Lib
open Lib.Program (run run_kept run_bind_ok steps_bind_ok Always Step)

variable {P α β : Type}

/-- `rtlsdr_set_sample_rate` does not reject the rate. -/
abbrev Accepted (samp_rate : UInt32) : Prop :=
  225000 < samp_rate ∧ samp_rate ≤ 300000 ∨ 900000 < samp_rate ∧ samp_rate ≤ 3200000

/-- `rtlsdr_set_xtal_freq` does not reject the clock. -/
abbrev Admitted (rtl_xtal : UInt32) : Prop :=
  MIN_RTL_XTAL_FREQ ≤ rtl_xtal ∧ rtl_xtal ≤ MAX_RTL_XTAL_FREQ

/-- `(rtl_xtal * TWO_POW(22)) / divisor`, cut to a whole number. -/
def ratio (rtl_xtal divisor : UInt32) : Nat := rtl_xtal.toNat * 2 ^ 22 / divisor.toNat

def Parts.exact (parts : Parts P) : Parts P :=
  { parts with
    rsamp_ratio := fun rtl_xtal samp_rate => UInt32.ofNat (ratio rtl_xtal samp_rate)
    real_rate := fun rtl_xtal real_rsamp_ratio => UInt32.ofNat (ratio rtl_xtal real_rsamp_ratio) }

/-- `real_rsamp_ratio`: bit 27 is copied into bit 28. -/
def real_ratio (rsamp_ratio : UInt32) : UInt32 :=
  rsamp_ratio ||| ((rsamp_ratio &&& 0x08000000) <<< 1)

/-- What the registers 0x9f and 0xa1 stand for. -/
def decoded (hi lo : UInt16) : UInt32 := real_ratio ((hi.toUInt32 <<< 16) ||| lo.toUInt32)

/-- The registers stand for the ratio with the two lowest bits cleared, and for the rate. -/
structure Resamples (rtl_xtal samp_rate : UInt32) (hi lo : UInt16) : Prop where
  cleared : (decoded hi lo).toNat = ratio rtl_xtal samp_rate - ratio rtl_xtal samp_rate % 4
  close : |(rtl_xtal.toNat * 2 ^ 22 : ℚ) / (decoded hi lo).toNat - samp_rate.toNat| < 1

theorem word_of_halves (r : UInt32) :
    ((r >>> 16).toUInt16.toUInt32 <<< 16) ||| (r &&& 0xffff).toUInt16.toUInt32 = r := by
  have word := r.toNat_lt
  have low : (r &&& 0xffff).toUInt16.toUInt32.toNat = r.toNat % 2 ^ 16 := by
    rw [UInt16.toNat_toUInt32, UInt32.toNat_toUInt16, UInt32.toNat_and]
    exact (congrArg (· % 2 ^ 16) (Nat.and_two_pow_sub_one_eq_mod _ 16)).trans (Nat.mod_mod _ _)
  have high : ((r >>> 16).toUInt16.toUInt32 <<< 16).toNat = 2 ^ 16 * (r.toNat / 2 ^ 16) := by
    simp [UInt32.toNat_shiftLeft, Nat.shiftLeft_eq, Nat.shiftRight_eq_div_pow]
    omega
  apply UInt32.toNat_inj.mp
  rw [UInt32.toNat_or, high, low, ← Nat.two_pow_add_eq_or_of_lt (Nat.mod_lt _ (by decide))]
  omega

theorem masked_toNat (x : UInt32) : (x &&& 0x0ffffffc).toNat = x.toNat % 2 ^ 28 / 4 * 4 := by
  have mask : (0x0ffffffc : UInt32).toNat = (2 ^ 26 - 1) <<< 2 := by decide
  have cut : x.toNat % 2 ^ 28 / 4 * 4 = (x.toNat % 2 ^ 28) >>> 2 <<< 2 := by
    rw [Nat.shiftLeft_eq, Nat.shiftRight_eq_div_pow]
  rw [UInt32.toNat_and, mask, cut]
  apply Nat.eq_of_testBit_eq
  intro i
  simp only [Nat.testBit_and, Nat.testBit_shiftLeft, Nat.testBit_shiftRight,
    Nat.testBit_two_pow_sub_one, Nat.testBit_mod_two_pow]
  by_cases low : 2 ≤ i
  · have same : 2 + (i - 2) = i := by omega
    have below : (i - 2 < 26) = (i < 28) := propext (by omega)
    simp [low, same, below, Bool.and_comm]
  · simp [low]

variable {r : UInt32}

theorem real_ratio_toNat (field : r.toNat < 2 ^ 28) :
    (real_ratio r).toNat = r.toNat + if 2 ^ 27 ≤ r.toNat then 2 ^ 28 else 0 := by
  have bit : (0x08000000 : UInt32).toNat = 2 ^ 27 := by decide
  have top : (r.toNat.testBit 27).toNat = if 2 ^ 27 ≤ r.toNat then 1 else 0 := by
    rw [Nat.toNat_testBit]
    split <;> omega
  have copied : ((r &&& 0x08000000) <<< 1).toNat = if 2 ^ 27 ≤ r.toNat then 2 ^ 28 else 0 := by
    rw [UInt32.toNat_shiftLeft, UInt32.toNat_and, bit, Nat.and_two_pow, top]
    split <;> rfl
  rw [real_ratio, UInt32.toNat_or, copied]
  split
  · have joined := Nat.two_pow_add_eq_or_of_lt field 1
    rw [Nat.or_comm, ← Nat.mul_one (2 ^ 28), ← joined, Nat.add_comm]
  · exact Nat.or_zero _

theorem masked_ratio_iff {x : UInt32} (small : x.toNat < 2 ^ 30) :
    (real_ratio (x &&& 0x0ffffffc)).toNat = x.toNat - x.toNat % 4 ↔
      x.toNat < 2 ^ 27 ∨ 3 * 2 ^ 27 ≤ x.toNat ∧ x.toNat < 2 ^ 29 := by
  have masked := masked_toNat x
  have field : (x &&& 0x0ffffffc).toNat < 2 ^ 28 := by omega
  rw [real_ratio_toNat field, masked]
  split <;> omega

abbrev Fits (rtl_xtal samp_rate : UInt32) : Prop :=
  rtl_xtal.toNat < 32 * samp_rate.toNat ∨
    96 * samp_rate.toNat ≤ rtl_xtal.toNat ∧ rtl_xtal.toNat < 128 * samp_rate.toNat

section Rates

variable {rtl_xtal samp_rate : UInt32}

section

variable (accepted : Accepted samp_rate)
include accepted

theorem Accepted.bounds :
    225000 < samp_rate.toNat ∧ samp_rate.toNat ≤ 3200000 := by
  simp only [Accepted, UInt32.lt_iff_toNat_lt, UInt32.le_iff_toNat_le, UInt32.reduceToNat] at accepted
  omega

omit accepted in
theorem Admitted.bounds (admitted : Admitted rtl_xtal) :
    28799000 ≤ rtl_xtal.toNat ∧ rtl_xtal.toNat ≤ 28801000 := by
  have low : MIN_RTL_XTAL_FREQ.toNat = 28799000 := by decide
  have high : MAX_RTL_XTAL_FREQ.toNat = 28801000 := by decide
  obtain ⟨least, most⟩ := admitted
  rw [UInt32.le_iff_toNat_le] at least most
  omega

theorem ratio_fits_iff : (ratio rtl_xtal samp_rate < 2 ^ 27 ∨
    3 * 2 ^ 27 ≤ ratio rtl_xtal samp_rate ∧ ratio rtl_xtal samp_rate < 2 ^ 29) ↔
      Fits rtl_xtal samp_rate := by
  have positive : 0 < samp_rate.toNat := by
    have rate := accepted.bounds
    omega
  simp only [ratio, Fits, Nat.div_lt_iff_lt_mul positive, Nat.le_div_iff_mul_le positive]
  omega

theorem ratio_lt (admitted : Admitted rtl_xtal) :
    ratio rtl_xtal samp_rate < 2 ^ 30 := by
  have rate := accepted.bounds
  have clock := admitted.bounds
  apply (Nat.div_lt_iff_lt_mul (by omega)).mpr
  omega

/-- At least four times the rate, with room for what is cut off. -/
theorem le_ratio (admitted : Admitted rtl_xtal) :
    4 * samp_rate.toNat + 3 ≤ ratio rtl_xtal samp_rate := by
  have rate := accepted.bounds
  have clock := admitted.bounds
  apply (Nat.le_div_iff_mul_le (by omega)).mpr
  calc (4 * samp_rate.toNat + 3) * samp_rate.toNat
      ≤ (4 * 3200000 + 3) * 3200000 := Nat.mul_le_mul (by omega) rate.2
    _ ≤ rtl_xtal.toNat * 2 ^ 22 := by omega

theorem rate_of_ratio (admitted : Admitted rtl_xtal) {r : Nat}
    (cleared : r = ratio rtl_xtal samp_rate - ratio rtl_xtal samp_rate % 4) :
    samp_rate.toNat * r ≤ rtl_xtal.toNat * 2 ^ 22 ∧
      rtl_xtal.toNat * 2 ^ 22 < (samp_rate.toNat + 1) * r := by
  have enough := le_ratio accepted admitted
  have positive : 0 < samp_rate.toNat := by
    have rate := accepted.bounds
    omega
  have least : r ≤ ratio rtl_xtal samp_rate := by omega
  have most : ratio rtl_xtal samp_rate + 1 ≤ r + 4 := by omega
  have wide : 4 * samp_rate.toNat ≤ r := by omega
  constructor
  · calc samp_rate.toNat * r ≤ samp_rate.toNat * ratio rtl_xtal samp_rate := Nat.mul_le_mul_left _ least
      _ ≤ rtl_xtal.toNat * 2 ^ 22 := Nat.mul_div_le _ _
  · calc rtl_xtal.toNat * 2 ^ 22 < samp_rate.toNat * (ratio rtl_xtal samp_rate + 1) :=
          Nat.lt_mul_div_succ _ positive
      _ ≤ samp_rate.toNat * (r + 4) := Nat.mul_le_mul_left _ most
      _ = samp_rate.toNat * r + 4 * samp_rate.toNat := by ring
      _ ≤ samp_rate.toNat * r + r := Nat.add_le_add_left wide _
      _ = (samp_rate.toNat + 1) * r := by ring

theorem resamples_of_fits (admitted : Admitted rtl_xtal)
    {hi lo : UInt16} (cleared : (decoded hi lo).toNat =
      ratio rtl_xtal samp_rate - ratio rtl_xtal samp_rate % 4) :
    Resamples rtl_xtal samp_rate hi lo ∧
      UInt32.ofNat (ratio rtl_xtal (decoded hi lo)) = samp_rate := by
  obtain ⟨above, below⟩ := rate_of_ratio accepted admitted cleared
  have positive : 0 < (decoded hi lo).toNat := Nat.pos_of_ne_zero fun zero => by
    rw [zero] at below
    omega
  have back : ratio rtl_xtal (decoded hi lo) = samp_rate.toNat :=
    Nat.div_eq_of_lt_le above below
  refine ⟨⟨cleared, ?_⟩, ?_⟩
  · have positive' : (0 : ℚ) < (decoded hi lo).toNat := by exact_mod_cast positive
    have least : (samp_rate.toNat : ℚ) * (decoded hi lo).toNat ≤ rtl_xtal.toNat * 2 ^ 22 := by
      exact_mod_cast above
    have most : (rtl_xtal.toNat * 2 ^ 22 : ℚ) < (samp_rate.toNat + 1) * (decoded hi lo).toNat := by
      exact_mod_cast below
    have from_above := (le_div_iff₀ positive').mpr least
    have from_below := (div_lt_iff₀ positive').mpr most
    rw [abs_lt]
    constructor
    · linarith only [from_above]
    · linarith only [from_below]
  · rw [back, UInt32.ofNat_toNat]

theorem resamples_iff (admitted : Admitted rtl_xtal)
    (masked : r = UInt32.ofNat (ratio rtl_xtal samp_rate) &&& 0x0ffffffc) :
    (Resamples rtl_xtal samp_rate (r >>> 16).toUInt16 (r &&& 0xffff).toUInt16 ∧
      UInt32.ofNat (ratio rtl_xtal (real_ratio r)) = samp_rate) ↔ Fits rtl_xtal samp_rate := by
  have halves : decoded (r >>> 16).toUInt16 (r &&& 0xffff).toUInt16 = real_ratio r :=
    congrArg real_ratio (word_of_halves r)
  have small := ratio_lt accepted admitted
  have word : (UInt32.ofNat (ratio rtl_xtal samp_rate)).toNat = ratio rtl_xtal samp_rate :=
    UInt32.toNat_ofNat_of_lt' (lt_trans small (by decide))
  have held := masked_ratio_iff (word.symm ▸ small)
  rw [word, ← masked, ratio_fits_iff accepted] at held
  rw [← halves] at held ⊢
  constructor
  · intro both
    exact held.mp both.1.cleared
  · intro fits
    exact resamples_of_fits accepted admitted (held.mpr fits)

end

end Rates

def demodWrite (addr : UInt16) (step : Step (Instr P) (Dongle P)) : Option UInt16 :=
  match step.instr with
  | .demod_write_reg page a val _ => if page = 1 ∧ a = addr then some val else none
  | _ => none

def demodWrites (addr : UInt16) (trace : List (Step (Instr P) (Dongle P))) : List UInt16 :=
  trace.filterMap (demodWrite addr)

/-- The step writes neither half of the ratio, and leaves the kept rate. -/
structure Aside (step : Step (Instr P) (Dongle P)) : Prop where
  hi : demodWrite 0x9f step = none
  lo : demodWrite 0xa1 step = none
  rate : step.after.dev.rate = step.before.dev.rate

abbrev SparesRate (p : Prog P α) : Prop := Always Dongle.serve Aside p

theorem getDev_spares : SparesRate (getDev : Prog P Dev) := .call fun _ => ⟨rfl, rfl, rfl⟩

theorem getChips_spares : SparesRate (getChips : Prog P (Chips P)) :=
  .call fun _ => ⟨rfl, rfl, rfl⟩

theorem setChips_spares (chips : Chips P) : SparesRate (setChips chips) :=
  .call fun _ => ⟨rfl, rfl, rfl⟩

theorem modifyChips_spares (f : Chips P → Chips P) : SparesRate (modifyChips f) :=
  .bind getChips_spares fun chips => setChips_spares (f chips)

theorem read_reg_spares (block : UInt8) (addr : UInt16) :
    SparesRate (read_reg block addr : Prog P UInt16) := .call fun _ => ⟨rfl, rfl, rfl⟩

theorem write_reg_spares (block : UInt8) (addr val : UInt16) :
    SparesRate (write_reg block addr val : Prog P Int32) := .call fun _ => ⟨rfl, rfl, rfl⟩

theorem modifyDev_spares {f : Dev → Dev} (same : ∀ dev, (f dev).rate = dev.rate) :
    SparesRate (modifyDev f : Prog P Unit) := by
  intro s step here
  rcases List.mem_pair.mp here with rfl | rfl
  · exact ⟨rfl, rfl, rfl⟩
  · exact ⟨rfl, rfl, same s.dev⟩

theorem demod_write_reg_spares {page : UInt8} {addr : UInt16}
    (other : ¬ (page = 1 ∧ addr = 0x9f) ∧ ¬ (page = 1 ∧ addr = 0xa1)) (val : UInt16) (len : UInt8) :
    SparesRate (demod_write_reg page addr val len : Prog P Int32) :=
  .call fun s => ⟨if_neg other.1, if_neg other.2,
    congrArg Dev.rate (s.demod_write_reg_same page addr val len).2.2⟩

theorem switchRepeater_spares (on : Bool) : SparesRate (switchRepeater on : Prog P Unit) := by
  have flag : SparesRate (repeaterOn : Prog P Bool) := .call fun _ => ⟨rfl, rfl, rfl⟩
  refine .bind flag fun was => .ite (fun _ => ?_) fun _ => .ret _
  refine .bind (.call fun _ => ⟨rfl, rfl, rfl⟩) fun _ => ?_
  exact .bind (demod_write_reg_spares (by decide) _ _) fun _ => .ret _

theorem set_i2c_repeater_spares (on : Bool) : SparesRate (set_i2c_repeater on : Prog P Unit) := by
  have locks : SparesRate (lock : Prog P Unit) := .call fun _ => ⟨rfl, rfl, rfl⟩
  have unlocks : SparesRate (unlock : Prog P Unit) := .call fun _ => ⟨rfl, rfl, rfl⟩
  cases on with
  | false => exact .bind (switchRepeater_spares false) fun _ => unlocks
  | true => exact .bind locks fun _ => .bind (switchRepeater_spares true) fun _ => .ret _

theorem withRepeater_spares {call : Prog P α} (spares : SparesRate call) :
    SparesRate (withRepeater call) := by
  refine .bind (set_i2c_repeater_spares true) fun _ => .bind spares fun r => ?_
  exact .bind (set_i2c_repeater_spares false) fun _ => .ret _

section Calls

variable (parts : Parts P)

theorem set_if_freq_spares (freq : UInt32) : SparesRate (set_if_freq parts freq) := by
  refine .bind getDev_spares fun dev => .bind (demod_write_reg_spares (by decide) _ _) fun r1 => ?_
  refine .bind (demod_write_reg_spares (by decide) _ _) fun r2 => ?_
  exact .bind (demod_write_reg_spares (by decide) _ _) fun r3 => .ret _

theorem set_spectrum_inversion_spares (sideband : Int32) :
    SparesRate (set_spectrum_inversion sideband : Prog P Int32) := by
  refine .bind getDev_spares fun dev => .ite (fun _ => ?_) fun _ => .ret _
  refine .bind (demod_write_reg_spares (by decide) _ _) fun r => ?_
  exact .bind (modifyDev_spares fun _ => rfl) fun _ => .ret _

theorem set_sample_freq_correction_spares (ppm : Int32) :
    SparesRate (set_sample_freq_correction parts ppm) := by
  refine .bind (demod_write_reg_spares (by decide) _ _) fun r1 => ?_
  exact .bind (demod_write_reg_spares (by decide) _ _) fun r2 => .ret _

theorem drive_spares (driver : Driver P α) : SparesRate (drive parts driver) := by
  refine .interpret (fun i => ?_) driver
  cases i with
  | i2c_write addr buffer => exact .call fun _ => ⟨rfl, rfl, rfl⟩
  | i2c_read addr len => exact .call fun _ => ⟨rfl, rfl, rfl⟩
  | get_tuner_clock => exact .bind getDev_spares fun dev => .ret _
  | load => exact getChips_spares
  | store chips => exact setChips_spares chips

variable {tuner : TunerType}

theorem tunerInit_spares {init : Prog P Int32}
    (entry : tunerInit parts tuner = some init) : SparesRate init := by
  have e4000 : SparesRate (e4000_init parts) :=
    .bind getDev_spares fun dev => .bind (modifyChips_spares _) fun _ => drive_spares parts _
  have r820t : SparesRate (r820t_init parts) :=
    .bind getDev_spares fun dev => .bind (modifyChips_spares _) fun _ => drive_spares parts _
  cases tuner with
  | unknown => cases entry
  | e4000 => exact Option.some.inj entry ▸ e4000
  | fc0012 | fc0013 | fc2580 => exact Option.some.inj entry ▸ drive_spares parts _
  | r820t | r828d => exact Option.some.inj entry ▸ r820t

theorem tunerExit_spares {exit : Prog P Int32}
    (entry : tunerExit parts tuner = some exit) : SparesRate exit := by
  cases tuner with
  | unknown => cases entry
  | fc0012 | fc0013 | fc2580 => exact Option.some.inj entry ▸ .ret _
  | e4000 | r820t | r828d => exact Option.some.inj entry ▸ drive_spares parts _

theorem r820t_set_freq64_spares (freq : UInt64) : SparesRate (r820t_set_freq64 parts freq) := by
  refine .bind (drive_spares parts _) fun r => .bind getChips_spares fun chips => ?_
  exact .bind (set_spectrum_inversion_spares _) fun ri => .ret _

theorem tunerSetFreq_spares {set_freq : UInt32 → Prog P Int32}
    (entry : tunerSetFreq parts tuner = some set_freq) (freq : UInt32) :
    SparesRate (set_freq freq) := by
  have gpio (val : Int32) : SparesRate (set_gpio_bit 6 val : Prog P Int32) :=
    .bind (read_reg_spares SYSB GPO) fun _ => .bind (write_reg_spares SYSB GPO _) fun _ => .ret _
  cases tuner with
  | unknown => cases entry
  | e4000 | fc0013 | fc2580 => exact Option.some.inj entry ▸ drive_spares parts _
  | fc0012 => exact Option.some.inj entry ▸ .bind (gpio _) fun _ => drive_spares parts _
  | r820t | r828d => exact Option.some.inj entry ▸ r820t_set_freq64_spares parts _

theorem tunerSetFreq64_spares {set_freq64 : UInt64 → Prog P Int32}
    (entry : tunerSetFreq64 parts tuner = some set_freq64) (freq : UInt64) :
    SparesRate (set_freq64 freq) := by
  cases tuner with
  | r820t | r828d => exact Option.some.inj entry ▸ r820t_set_freq64_spares parts freq
  | _ => cases entry

theorem ofTuner_spares {call : Option (Prog P Int32)}
    (spares : ∀ p, call = some p → SparesRate p) : SparesRate (ofTuner call) := by
  cases call with
  | some p => exact withRepeater_spares (spares p rfl)
  | none => exact .ret _

theorem set_direct_sampling_spares {tune : UInt64 → Prog P Int32}
    (tunes : ∀ freq, SparesRate (tune freq)) (on : Int32) :
    SparesRate (set_direct_sampling parts tune on) := by
  refine .bind getDev_spares fun dev => .bind (.ite (fun _ => ?_) fun _ => ?_) fun r =>
    .bind getDev_spares fun dev => .bind (tunes dev.freq) fun tuned => .ret _
  · refine .bind (ofTuner_spares fun p => tunerExit_spares parts) fun r => ?_
    refine .bind (demod_write_reg_spares (by decide) _ _) fun r1 => ?_
    refine .bind (demod_write_reg_spares (by decide) _ _) fun r2 => ?_
    refine .bind (demod_write_reg_spares (by decide) _ _) fun r3 => ?_
    refine .bind (demod_write_reg_spares (by decide) _ _) fun r4 => ?_
    exact .bind (modifyDev_spares fun _ => rfl) fun _ => .ret _
  · refine .bind (ofTuner_spares fun p => tunerInit_spares parts) fun r1 => ?_
    refine .bind (.ite (fun _ => ?_) fun _ => ?_) fun r2 =>
      .bind (demod_write_reg_spares (by decide) _ _) fun r3 =>
        .bind (modifyDev_spares fun _ => rfl) fun _ => .ret _
    · refine .bind (set_if_freq_spares parts _) fun r1 => ?_
      exact .bind (demod_write_reg_spares (by decide) _ _) fun r2 => .ret _
    · refine .bind (set_if_freq_spares parts _) fun r1 => ?_
      refine .bind (demod_write_reg_spares (by decide) _ _) fun r2 => ?_
      exact .bind (demod_write_reg_spares (by decide) _ _) fun r3 => .ret _

theorem set_freq64_spares (dev : Dev) (freq : UInt64) : SparesRate (set_freq64 parts dev freq) := by
  refine .ite (fun _ => set_if_freq_spares parts _) fun _ => ?_
  cases entry64 : tunerSetFreq64 parts dev.tuner_type with
  | some set_freq64 => exact withRepeater_spares (tunerSetFreq64_spares parts entry64 _)
  | none =>
    cases entry : tunerSetFreq parts dev.tuner_type with
    | some set_freq => exact withRepeater_spares (tunerSetFreq_spares parts entry _)
    | none => exact .ret _

theorem center_freq64_spares (depth : Nat) (freq : UInt64) :
    SparesRate (center_freq64 parts depth freq) := by
  induction depth generalizing freq with
  | zero => exact .fail _
  | succ depth ih =>
    have tuned : SparesRate (do
        let dev ← getDev
        let r ← set_freq64 parts dev freq
        keepFreq r freq) :=
      .bind getDev_spares fun dev => .bind (set_freq64_spares parts dev freq) fun r =>
        .bind (modifyDev_spares fun _ => rfl) fun _ => .ret _
    have updates : SparesRate (update_ds parts (center_freq64 parts depth) freq) :=
      .bind getDev_spares fun dev => .ite (fun _ => .ret _) fun _ =>
        .ite (fun _ => set_direct_sampling_spares parts ih _) fun _ => .ret _
    refine .bind getDev_spares fun dev => .ite (fun _ => ?_) fun _ => tuned
    exact .bind updates fun _ => tuned

theorem tunerSetBw_spares {set_bw : Int32 → Bool → Prog P (Int32 × UInt32)}
    (entry : tunerSetBw parts tuner = some set_bw) (bw : Int32) (apply : Bool) :
    SparesRate (set_bw bw apply) := by
  have e4000 : SparesRate (e4000_set_bw parts bw apply) := by
    refine .ite (fun _ => .ret _) fun _ => .bind (drive_spares parts _) fun r1 => ?_
    exact .bind (drive_spares parts _) fun r2 => .bind (drive_spares parts _) fun r3 => .ret _
  have fc2580 : SparesRate (fc2580_set_bw parts apply) :=
    .ite (fun _ => .ret _) fun _ => .bind (drive_spares parts _) fun r => .ret _
  have retunes : SparesRate (retune parts) := by
    refine .bind getDev_spares fun dev => .bind (set_if_freq_spares parts _) fun r => ?_
    refine .ite (fun _ => .ret _) fun _ => .bind getDev_spares fun dev => ?_
    exact center_freq64_spares parts 3 dev.freq
  have r820t : SparesRate (r820t_set_bw parts bw apply) := by
    refine .ite (fun _ => .ret _) fun _ => .bind getDev_spares fun dev => ?_
    refine .bind (drive_spares parts _) fun iffreq => .ite (fun _ => .ret _) fun _ => ?_
    exact .bind (modifyDev_spares fun _ => rfl) fun _ => .bind retunes fun r => .ret _
  cases tuner with
  | unknown => cases entry
  | e4000 => exact Option.some.inj entry ▸ e4000
  | fc0012 | fc0013 => exact Option.some.inj entry ▸ .ret _
  | fc2580 => exact Option.some.inj entry ▸ fc2580
  | r820t | r828d => exact Option.some.inj entry ▸ r820t

theorem applyBw_spares (dev : Dev) (bw : Int32) : SparesRate (applyBw parts dev bw) := by
  rw [applyBw]
  cases entry : tunerSetBw parts dev.tuner_type with
  | none => exact .ret _
  | some set_bw =>
    exact .bind (withRepeater_spares (tunerSetBw_spares parts entry bw true)) fun _ => .ret _

theorem set_offset_tuning_spares (on : Bool) : SparesRate (set_offset_tuning parts on) := by
  refine .bind getDev_spares fun dev => .ite (fun _ => .ret _) fun _ => ?_
  refine .ite (fun _ => .ret _) fun _ => .bind (modifyDev_spares fun _ => rfl) fun _ => ?_
  refine .bind getDev_spares fun dev => .bind (set_if_freq_spares parts _) fun r => ?_
  refine .bind (applyBw_spares parts dev _) fun _ => .bind getDev_spares fun dev => ?_
  refine .ite (fun _ => ?_) fun _ => .ret _
  exact .bind (center_freq64_spares parts 3 dev.freq) fun tuned => .ret _

theorem reactivate_softagc_spares (newState : SoftState) :
    SparesRate (reactivate_softagc newState : Prog P Unit) := by
  apply modifyDev_spares
  intro dev
  split
  · rfl
  · rfl

theorem rest_spares (corr : Int32) (r1 r2 : Int32) : SparesRate (do
    let r3 ← set_sample_freq_correction parts corr
    let r4 ← demod_write_reg 1 0x01 0x14 1
    let r5 ← demod_write_reg 1 0x01 0x10 1
    let dev ← getDev
    if dev.offs_freq ≠ 0 then
      let _ ← set_offset_tuning parts true
    reactivate_softagc .reset
    return r1 ||| r2 ||| r3 ||| r4 ||| r5) := by
  refine .bind (set_sample_freq_correction_spares parts corr) fun r3 => ?_
  refine .bind (demod_write_reg_spares (by decide) _ _) fun r4 => ?_
  refine .bind (demod_write_reg_spares (by decide) _ _) fun r5 => .bind getDev_spares fun dev => ?_
  have ends : SparesRate (do
      reactivate_softagc .reset
      return r1 ||| r2 ||| r3 ||| r4 ||| r5 : Prog P Int32) :=
    .bind (reactivate_softagc_spares .reset) fun _ => .ret _
  exact .ite (fun _ => .bind (set_offset_tuning_spares parts true) fun _ => ends) fun _ => ends

end Calls

def outcome (p : Prog P α) (s : Dongle P) : List UInt16 × List UInt16 × UInt32 :=
  (demodWrites 0x9f (Program.steps Dongle.serve p s), demodWrites 0xa1 (Program.steps Dongle.serve p s),
    (run Dongle.serve p s).2.dev.rate)

theorem demodWrites_append (addr : UInt16) (front behind : List (Step (Instr P) (Dongle P))) :
    demodWrites addr (front ++ behind) = demodWrites addr front ++ demodWrites addr behind :=
  List.filterMap_append

theorem outcome_spares {p : Prog P α} (spares : SparesRate p) (s : Dongle P) :
    outcome p s = ([], [], s.dev.rate) := by
  have hi : demodWrites 0x9f (Program.steps Dongle.serve p s) = [] :=
    List.filterMap_eq_nil_iff.mpr fun step here => (spares s step here).hi
  have lo : demodWrites 0xa1 (Program.steps Dongle.serve p s) = [] :=
    List.filterMap_eq_nil_iff.mpr fun step here => (spares s step here).lo
  have rate : (run Dongle.serve p s).2.dev.rate = s.dev.rate :=
    run_kept (fun s => s.dev.rate) p fun step here => (spares s step here).rate
  rw [outcome, hi, lo, rate]

variable {s : Dongle P}

theorem outcome_bind {p : Prog P α} {f : α → Prog P β} {s' : Dongle P} {a : α}
    (spares : SparesRate p) (returns : run Dongle.serve p s = (.ok a, s')) :
    outcome (p >>= f) s = outcome (f a) s' := by
  have aside := outcome_spares spares s
  simp only [outcome, Prod.mk.injEq] at aside
  simp [outcome, steps_bind_ok returns, run_bind_ok returns, demodWrites_append, aside.1, aside.2.1]

theorem outcome_getDev (f : Dev → Prog P β) (s : Dongle P) :
    outcome (getDev >>= f) s = outcome (f s.dev) s := outcome_bind getDev_spares rfl

theorem outcome_modifyDev (g : Dev → Dev) (f : Unit → Prog P β) (s : Dongle P) :
    outcome (modifyDev g >>= f) s = outcome (f ()) { s with dev := g s.dev } := rfl

theorem outcome_halves {rest : Int32 → Int32 → Prog P α} (spares : ∀ r1 r2, SparesRate (rest r1 r2))
    (hi lo : UInt16) (s : Dongle P) :
    outcome (do
      let r1 ← demod_write_reg 1 0x9f hi 2
      let r2 ← demod_write_reg 1 0xa1 lo 2
      rest r1 r2) s = ([hi], [lo], s.dev.rate) := by
  let first := s.demod_write_reg 1 0x9f hi 2
  let second := first.2.demod_write_reg 1 0xa1 lo 2
  have behind := outcome_spares (spares first.1 second.1) second.2
  have dev : second.2.dev = s.dev :=
    (first.2.demod_write_reg_same 1 0xa1 lo 2).2.2.trans (s.demod_write_reg_same 1 0x9f hi 2).2.2
  change (hi :: (outcome (rest first.1 second.1) second.2).1,
    lo :: (outcome (rest first.1 second.1) second.2).2.1,
    (outcome (rest first.1 second.1) second.2).2.2) = _
  rw [behind, dev]

theorem applyBw_returns (parts : Parts P) (dev : Dev) (bw : Int32)
    (rests : Rests False 0 True s.bus) :
    ∃ s', run Dongle.serve (applyBw parts dev bw) s = (.ok (), s') := by
  obtain ⟨_, _, s', returns, _⟩ := applyBw_public parts dev bw (0, True) s rests
    fun _ _ => False.elim
  exact ⟨s', returns⟩

theorem set_sample_rate_outcome (parts : Parts P)
    (rests : Rests False 0 True s.bus) {samp_rate : UInt32} (accepted : Accepted samp_rate) (masked : r = parts.rsamp_ratio s.dev.rtl_xtal samp_rate &&& 0x0ffffffc) :
    outcome (set_sample_rate parts samp_rate) s =
      ([(r >>> 16).toUInt16], [(r &&& 0xffff).toUInt16],
        parts.real_rate s.dev.rtl_xtal (real_ratio r)) := by
  have supported : ¬ (samp_rate ≤ 225000 ∨ 3200000 < samp_rate ∨
      (300000 < samp_rate ∧ samp_rate ≤ 900000)) := by
    simp only [Accepted, UInt32.lt_iff_toNat_lt, UInt32.le_iff_toNat_le,
      UInt32.reduceToNat] at accepted ⊢
    omega
  let dev : Dev := { s.dev with rate := parts.real_rate s.dev.rtl_xtal (real_ratio r) }
  obtain ⟨s', returns⟩ := applyBw_returns parts dev (dev.bwOrRate dev.bw)
    (show Rests False 0 True { s with dev := dev }.bus from rests)
  have rate : s'.dev.rate = dev.rate := by
    have aside := outcome_spares (applyBw_spares parts dev (dev.bwOrRate dev.bw)) { s with dev := dev }
    simp only [outcome, returns, Prod.mk.injEq] at aside
    exact aside.2.2
  unfold set_sample_rate
  simp only [outcome_getDev, if_neg supported, outcome_modifyDev, ← masked]
  rw [← real_ratio]
  refine (outcome_bind (applyBw_spares parts dev _) returns).trans ?_
  refine (outcome_halves (fun r1 r2 => ?_) _ _ s').trans (by rw [rate])
  exact .bind getDev_spares fun dev => rest_spares parts dev.corr r1 r2

/-- In this call both registers are written once, with halves that stand for the ratio and the
    rate, and the rate asked for is kept. -/
def Programmed (parts : Parts P) (s : Dongle P) (samp_rate : UInt32) : Prop :=
  let trace := Program.steps Dongle.serve (set_sample_rate parts samp_rate) s
  ∃ hi lo, demodWrites 0x9f trace = [hi] ∧ demodWrites 0xa1 trace = [lo] ∧
    Resamples s.dev.rtl_xtal samp_rate hi lo ∧
    (run Dongle.serve (set_sample_rate parts samp_rate) s).2.dev.rate = samp_rate

theorem programmed_iff (parts : Parts P) (rests : Rests False 0 True s.bus)
    {samp_rate : UInt32} (accepted : Accepted samp_rate) (admitted : Admitted s.dev.rtl_xtal) :
    Programmed parts.exact s samp_rate ↔ Fits s.dev.rtl_xtal samp_rate := by
  have traced := set_sample_rate_outcome parts.exact rests accepted rfl
  simp only [outcome, Prod.mk.injEq] at traced
  obtain ⟨hi, lo, rate⟩ := traced
  rw [← resamples_iff accepted admitted rfl]
  simp only [Programmed, hi, lo, rate, List.singleton_inj]
  constructor
  · rintro ⟨_, _, rfl, rfl, both⟩
    exact both
  · intro both
    exact ⟨_, _, rfl, rfl, both⟩

/-- Behind any calls: the sample rate is programmed right exactly when the crystal is less than 32
    times the rate, or at least 96 times and less than 128 times. -/
theorem sample_rate_programmed (parts : Parts P) (calls : List Call) (dev : Dev) (chips : Chips P)
    (usb : Nat → UsbAnswer) (samp_rate : UInt32) (accepted : Accepted samp_rate)
    (admitted : Admitted (behind parts.exact calls (.idle dev chips usb)).dev.rtl_xtal) :
    let s := behind parts.exact calls (.idle dev chips usb)
    Programmed parts.exact s samp_rate ↔ Fits s.dev.rtl_xtal samp_rate :=
  programmed_iff parts (calls_rest parts.exact False calls dev chips usb fun _ _ => False.elim).2
    accepted admitted

theorem sample_rate_programmed_common :
    let s := behind (Parts.exact default) [] (.idle fc0012Dev fc0012Chips fun _ => ⟨0, []⟩)
    Programmed (Parts.exact default) s 2048000 ↔ Fits s.dev.rtl_xtal 2048000 :=
  sample_rate_programmed default [] fc0012Dev fc0012Chips (fun _ => ⟨0, []⟩) 2048000
    (Or.inr (by decide)) (by decide)

/-- With a crystal that is 1 kHz slow, the ratio for 300 kHz lacks the bit that is copied. -/
theorem sample_rate_not_programmed : ¬ ∀ (P : Type) (parts : Parts P) (calls : List Call)
    (dev : Dev) (chips : Chips P) (usb : Nat → UsbAnswer) (samp_rate : UInt32),
    Accepted samp_rate →
    Admitted (behind parts.exact calls (.idle dev chips usb)).dev.rtl_xtal →
    Programmed parts.exact (behind parts.exact calls (.idle dev chips usb)) samp_rate := by
  intro all
  let calls : List Call := [.set_xtal_freq 28799000 28800000]
  let s := behind (Parts.exact default) calls (.idle fc0012Dev fc0012Chips fun _ => ⟨0, []⟩)
  have accepted : Accepted 300000 := Or.inl (by decide)
  have slow : s.dev.rtl_xtal = 28799000 := rfl
  have admitted : Admitted s.dev.rtl_xtal := by
    rw [slow]
    exact ⟨by decide, by decide⟩
  have rests := (calls_rest (Parts.exact default) False calls fc0012Dev fc0012Chips
    (fun _ => ⟨0, []⟩) fun _ _ => False.elim).2
  have programmed := all Unit default calls fc0012Dev fc0012Chips _ 300000 accepted admitted
  have fits := (programmed_iff default rests accepted admitted).mp programmed
  rw [slow] at fits
  exact absurd fits (by decide)

end Soapy.Rtl.Tuner
