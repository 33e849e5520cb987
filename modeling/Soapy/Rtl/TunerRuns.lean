import Soapy.Rtl.TunerBus

/-! # Runs of tuner calls

Every public call leaves the repeater off and the mutex free, and so do runs of calls. The switch of
the repeater does not look at whether the register was written.
-/

namespace Soapy.Rtl.Tuner

open Lib
open Lib.Program (Triple Keeps Step)

variable {P α : Type}

section PublicCalls

variable {trusted : Prop} (parts : Parts P)

theorem Plain.isPublic {p : Prog P α} (plain : Plain trusted p) : Public trusted p :=
  plain.calm.isPublic

theorem reactivate_softagc_public (newState : SoftState) :
    Public trusted (reactivate_softagc newState : Prog P Unit) :=
  (modifyDev_calm _).isPublic

theorem set_direct_sampling_public (on : Int32) :
    Public trusted (set_direct_sampling parts (set_center_freq64 parts) on) := by
  rintro ⟨n, quiet⟩
  refine .ofEach Dongle.dev fun dev => set_direct_sampling_rests parts ?_
  exact (set_center_freq64_public parts dev.freq (n, quiet)).mono (fun s before => before.1)
    fun _ _ after => after

theorem update_ds_public (freq : UInt64) :
    Public trusted (update_ds parts (set_center_freq64 parts) freq) := by
  refine .bind getDev_plain.isPublic fun dev => .ite (fun _ => .ret _) fun _ => ?_
  exact .ite (fun _ => set_direct_sampling_public parts _) fun _ => .ret _

theorem set_center_freq_public (freq : UInt32) : Public trusted (set_center_freq parts freq) := by
  have sets : ∀ dev, Public trusted (set_freq parts dev freq) := by
    intro dev
    refine .ite (fun _ => (set_if_freq_plain parts _).isPublic) fun _ => ?_
    cases entry : tunerSetFreq parts dev.tuner_type with
    | some set_freq => exact withRepeater_public (tunerSetFreq_opens parts entry _).body
    | none => exact .ret _
  have tuned : Public trusted (do
      let dev ← getDev
      let r ← set_freq parts dev freq
      keepFreq r freq.toUInt64) :=
    .bind getDev_plain.isPublic fun dev => .bind (sets dev) fun r =>
      (keepFreq_calm r freq.toUInt64).isPublic
  refine .bind getDev_plain.isPublic fun dev => .ite (fun _ => ?_) fun _ => tuned
  exact .bind (update_ds_public parts _) fun _ => tuned

theorem is_tuner_PLL_locked_public : Public trusted (is_tuner_PLL_locked parts) :=
  .bind getDev_plain.isPublic fun _ => .ite (fun _ => .ret _) fun _ =>
    withRepeater_public (drive_drives parts _).opens.body

theorem updateClocks_plain : Plain trusted (updateClocks parts) :=
  .bind getDev_plain fun _ => modifyChips_plain _

theorem set_freq_correction_public (ppm : Int32) :
    Public trusted (set_freq_correction parts ppm) := by
  refine .bind getDev_plain.isPublic fun dev => .ite (fun _ => .ret _) fun _ => ?_
  refine .bind (modifyDev_calm _).isPublic fun _ => ?_
  refine .bind (set_sample_freq_correction_plain parts ppm).isPublic fun r => ?_
  refine .bind (updateClocks_plain parts).isPublic fun _ => .bind getDev_plain.isPublic fun dev => ?_
  refine .ite (fun _ => ?_) fun _ => .ret _
  exact .bind (set_center_freq64_public parts dev.freq) fun tuned => .ret _

theorem retune_public : Public trusted (retune parts) := by
  refine .bind getDev_plain.isPublic fun dev => .bind (set_if_freq_plain parts _).isPublic fun r => ?_
  refine .ite (fun _ => .ret _) fun _ => ?_
  exact .bind getDev_plain.isPublic fun dev => set_center_freq64_public parts dev.freq

theorem r820t_set_bw_body (bw : Int32) (apply : Bool) :
    Body trusted (r820t_set_bw parts bw apply) := by
  refine .ite (Body.ret _) (getDev_plain.calm.opens.bind_body fun dev => ?_)
  refine (drive_drives parts _).opens.bind_body fun iffreq => .ite (Body.ret _) ?_
  refine (modifyDev_calm _).opens.bind_body fun _ => (retune_public parts).body.bind_public ?_
  exact fun r => .ret _

theorem tunerSetBw_body {tuner : TunerType} {set_bw : Int32 → Bool → Prog P (Int32 × UInt32)}
    (entry : tunerSetBw parts tuner = some set_bw) (bw : Int32) (apply : Bool) :
    Body trusted (set_bw bw apply) := by
  have e4000 : Opens trusted (e4000_set_bw parts bw apply) := by
    refine .ite (fun _ => .ret _) fun _ => .bind (drive_drives parts _).opens fun r1 => ?_
    refine .bind (drive_drives parts _).opens fun r2 => ?_
    exact .bind (drive_drives parts _).opens fun r3 => .ret _
  have fc2580 : Opens trusted (fc2580_set_bw parts apply) :=
    .ite (fun _ => .ret _) fun _ => .bind (drive_drives parts _).opens fun r => .ret _
  cases tuner with
  | unknown => cases entry
  | e4000 => exact Option.some.inj entry ▸ e4000.body
  | fc0012 => exact Option.some.inj entry ▸ (Body.ret _)
  | fc0013 => exact Option.some.inj entry ▸ (Body.ret _)
  | fc2580 => exact Option.some.inj entry ▸ fc2580.body
  | r820t => exact Option.some.inj entry ▸ r820t_set_bw_body parts bw apply
  | r828d => exact Option.some.inj entry ▸ r820t_set_bw_body parts bw apply

theorem tunerSetBw_asks {tuner : TunerType} {set_bw : Int32 → Bool → Prog P (Int32 × UInt32)}
    (entry : tunerSetBw parts tuner = some set_bw) (bw : Int32) :
    Public trusted (set_bw bw false) := by
  cases tuner with
  | unknown => cases entry
  | _ => exact Option.some.inj entry ▸ .ret _

theorem r820t_set_sideband_body (sideband : Int32) :
    Body trusted (r820t_set_sideband parts sideband) := by
  refine (drive_drives parts _).opens.bind_body fun r => .ite (Body.ret _) ?_
  refine getChips_plain.calm.opens.bind_body fun chips => ?_
  refine (set_spectrum_inversion_calm _).opens.bind_body fun r => .ite (Body.ret _) ?_
  refine getDev_plain.calm.opens.bind_body fun dev => .ite (Body.ret _) ?_
  exact (set_center_freq64_public parts dev.freq).body

theorem set_and_get_tuner_bandwidth_public (bw : UInt32) (apply_bw : Bool) :
    Public trusted (set_and_get_tuner_bandwidth parts bw apply_bw) := by
  refine .bind getDev_plain.isPublic fun dev => ?_
  cases entry : tunerSetBw parts dev.tuner_type with
  | none => exact .ret _
  | some set_bw =>
    cases apply_bw with
    | false => exact tunerSetBw_asks parts entry _
    | true =>
      refine .bind (withRepeater_public (tunerSetBw_body parts entry _ true)) fun r => ?_
      refine .bind (reactivate_softagc_public .reset) fun _ => .ite (fun _ => ?_) fun _ => .ret _
      exact .bind (modifyDev_calm _).isPublic fun _ => .ret _

theorem set_tuner_bandwidth_public (bw : UInt32) :
    Public trusted (set_tuner_bandwidth parts bw) :=
  .bind (set_and_get_tuner_bandwidth_public parts bw true) fun _ => .ret _

theorem set_tuner_band_center_public (freq : Int32) :
    Public trusted (set_tuner_band_center parts freq) := by
  have r820t : Public trusted (r820t_set_bw_center parts freq) := by
    refine .bind (modifyChips_plain _).isPublic fun _ => .bind getChips_plain.isPublic fun chips => ?_
    refine .ite (fun _ => .ret _) fun _ => .bind (modifyDev_calm _).isPublic fun _ => ?_
    exact retune_public parts
  refine .bind getDev_plain.isPublic fun dev => ?_
  cases dev.tuner_type with
  | r820t => exact r820t
  | r828d => exact r820t
  | _ => exact .ret _

theorem set_tuner_gain_public (gain : Int32) : Public trusted (set_tuner_gain parts gain) := by
  refine .bind getDev_plain.isPublic fun dev => ?_
  cases entry : tunerSetGain parts dev.tuner_type with
  | none => exact .ret _
  | some set_gain => exact withRepeater_public (tunerSetGain_opens parts entry gain).body

theorem set_tuner_gain_ext_public (lna mixer vga : Int32) :
    Public trusted (set_tuner_gain_ext parts lna mixer vga) := by
  refine .bind getDev_plain.isPublic fun dev => .ite (fun _ => .ret _) fun _ => ?_
  refine withRepeater_public (Opens.body ?_)
  exact .bind (drive_drives parts _).opens fun r => (vga_control_calm r.1 r.2).opens

theorem set_tuner_if_mode_public (if_mode : Int32) :
    Public trusted (set_tuner_if_mode parts if_mode) := by
  refine .bind getDev_plain.isPublic fun dev => .ite (fun _ => .ret _) fun _ => ?_
  refine withRepeater_public (Opens.body ?_)
  exact .bind (drive_drives parts _).opens fun r => (vga_control_calm r.1 r.2).opens

theorem set_tuner_if_gain_public (stage gain : Int32) :
    Public trusted (set_tuner_if_gain parts stage gain) := by
  refine .bind getDev_plain.isPublic fun dev => ?_
  cases entry : tunerSetIfGain parts dev.tuner_type with
  | none => exact .ret _
  | some set_if_gain =>
    refine .bind (withRepeater_public (tunerSetIfGain_opens parts entry stage gain).body) fun r => ?_
    exact .bind (reactivate_softagc_public .reset) fun _ => .ret _

theorem set_tuner_gain_mode_public (mode : Int32) :
    Public trusted (set_tuner_gain_mode parts mode) := by
  refine .bind getDev_plain.isPublic fun dev => ?_
  cases entry : tunerSetGainMode parts dev.tuner_type with
  | none => exact .ret _
  | some set_gain_mode => exact withRepeater_public (tunerSetGainMode_opens parts entry _).body

theorem set_tuner_sideband_public (sideband : Int32) :
    Public trusted (set_tuner_sideband parts sideband) := by
  have r820t : Public trusted (do
      let r ← withRepeater (r820t_set_sideband parts sideband)
      if r ≠ 0 then return r
      else
        modifyDev fun dev => { dev with tuner_sideband := sideband }
        let dev ← getDev
        let r ← set_if_freq parts dev.bandIf
        if r ≠ 0 then return r
        else
          let dev ← getDev
          if dev.freq = 0 then return r
          else set_center_freq64 parts dev.freq) := by
    refine .bind (withRepeater_public (r820t_set_sideband_body parts sideband)) fun r => ?_
    refine .ite (fun _ => .ret _) fun _ => .bind (modifyDev_calm _).isPublic fun _ => ?_
    refine .bind getDev_plain.isPublic fun dev => .bind (set_if_freq_plain parts _).isPublic ?_
    refine fun r => .ite (fun _ => .ret _) fun _ => .bind getDev_plain.isPublic fun dev => ?_
    exact .ite (fun _ => .ret _) fun _ => set_center_freq64_public parts dev.freq
  refine .bind getDev_plain.isPublic fun dev => ?_
  cases dev.tuner_type with
  | r820t => exact r820t
  | r828d => exact r820t
  | _ => exact .ret _

theorem set_tuner_i2c_register_public (reg mask data : UInt32) :
    Public trusted (set_tuner_i2c_register parts reg mask data) := by
  refine .bind getDev_plain.isPublic fun dev => ?_
  cases entry : tunerSetI2cRegister parts dev.tuner_type with
  | none => exact .ret _
  | some set_i2c_register =>
    exact withRepeater_public (tunerSetI2cRegister_opens parts entry _ _ _).body

theorem get_tuner_i2c_register_public (len : Int32) :
    Public trusted (get_tuner_i2c_register parts len) := by
  refine .bind getDev_plain.isPublic fun dev => ?_
  cases hasGetI2cRegister dev.tuner_type with
  | false => exact .ret _
  | true =>
    cases entry : tunerGetI2cRegArray parts dev.tuner_type with
    | none => exact .ret _
    | some get_i2c_reg_array =>
      exact withRepeater_public (tunerGetI2cRegArray_opens parts entry len).body

theorem set_tuner_i2c_override_public (reg mask data : UInt32) :
    Public trusted (set_tuner_i2c_override parts reg mask data) := by
  refine .bind getDev_plain.isPublic fun dev => ?_
  cases entry : tunerSetI2cOverride parts dev.tuner_type with
  | none => exact .ret _
  | some set_i2c_override =>
    exact withRepeater_public (tunerSetI2cOverride_opens parts entry _ _ _).body

theorem applyBw_public (dev : Dev) (bw : Int32) : Public trusted (applyBw parts dev bw) := by
  rw [applyBw]
  cases entry : tunerSetBw parts dev.tuner_type with
  | none => exact .ret _
  | some set_bw =>
    exact .bind (withRepeater_public (tunerSetBw_body parts entry bw true)) fun _ => .ret _

theorem set_offset_tuning_public (on : Bool) : Public trusted (set_offset_tuning parts on) := by
  refine .bind getDev_plain.isPublic fun dev => .ite (fun _ => .ret _) fun _ => ?_
  refine .ite (fun _ => .ret _) fun _ => .bind (modifyDev_calm _).isPublic fun _ => ?_
  refine .bind getDev_plain.isPublic fun dev => .bind (set_if_freq_plain parts _).isPublic fun r => ?_
  refine .bind (applyBw_public parts dev _) fun _ => .bind getDev_plain.isPublic fun dev => ?_
  refine .ite (fun _ => ?_) fun _ => .ret _
  exact .bind (set_center_freq64_public parts dev.freq) fun tuned => .ret _

theorem set_ds_mode_public (mode freq_threshold : UInt32) :
    Public trusted (set_ds_mode parts mode freq_threshold) := by
  refine .bind getDev_plain.isPublic fun dev => .ite (fun _ => .ret _) fun _ => ?_
  refine .bind (modifyDev_calm _).isPublic fun _ => .ite (fun _ => ?_) fun _ => ?_
  · exact .bind (set_direct_sampling_public parts _) fun _ => set_center_freq64_public parts dev.freq
  · exact set_center_freq64_public parts dev.freq

theorem set_bias_tee_public (on : Int32) : Public trusted (set_bias_tee on : Prog P Int32) := by
  refine .bind getDev_plain.isPublic fun dev => .bind (set_gpio_output_calm _).isPublic fun _ => ?_
  refine .bind (set_gpio_bit_plain _ on).isPublic fun _ => ?_
  exact .bind (reactivate_softagc_public .reset) fun _ => .ret _

theorem setConfig_public (val high : Int32) (f : R82xxConfig → R82xxConfig) :
    Public trusted (setConfig val high f : Prog P Int32) :=
  .ite (fun _ => .bind (modifyChips_plain _).isPublic fun _ => .ret _) fun _ => .ret _

theorem options_public (optPart : Bytes) :
    ∀ p, some p ∈ options parts optPart → Public trusted p := by
  have some_map : ∀ {text : Option Bytes} {act : Bytes → Prog P Int32} {p},
      (∀ t, Public trusted (act t)) → some p = text.map act → Public trusted p := by
    intro text act p all same
    cases text with
    | none => cases same
    | some t => exact Option.some.inj same ▸ all t
  have some_if : ∀ {c : Prop} [Decidable c] {p : Prog P Int32},
      some p = (if c then some (pure 0) else none) → Public trusted p := by
    intro c _ p same
    split at same
    · exact Option.some.inj same ▸ .ret _
    · cases same
  intro p member
  rw [options] at member
  simp only [List.mem_cons, List.not_mem_nil, or_false] at member
  rcases member with h | h | h | h | h | h | h | h | h | h | h | h | h | h | h | h | h | h | h | h |
    h | h
  · exact some_if h
  · exact some_map (fun t => set_center_freq64_public parts _) h
  · exact some_map (fun t => set_tuner_bandwidth_public parts _) h
  · exact some_map (fun t => set_tuner_band_center_public parts _) h
  · exact some_map (fun t => set_tuner_sideband_public parts _) h
  · exact some_map (fun t => set_tuner_gain_mode_public parts _) h
  · exact some_map (fun t => set_tuner_gain_public parts _) h
  · exact some_map (fun t => set_tuner_if_mode_public parts _) h
  · exact some_map (fun t => set_tuner_if_mode_public parts _) h
  · exact some_map (fun t => (demod_write_reg_plain (by decide) _ _).isPublic) h
  · exact some_map (fun t => set_direct_sampling_public parts _) h
  · exact some_map (fun t => .bind (modifyDev_calm _).isPublic fun _ =>
      .bind getDev_plain.isPublic fun dev => set_ds_mode_public parts _ _) h
  · exact some_map (fun t => setConfig_public _ _ _) h
  · exact some_map (fun t => setConfig_public _ _ _) h
  · exact some_map (fun t => setConfig_public _ _ _) h
  · exact some_map (fun t => setConfig_public _ _ _) h
  · exact some_map (fun t => .bind (modifyDev_calm _).isPublic fun _ => .ret _) h
  · exact some_map (fun t => set_bias_tee_public _) h
  · exact some_map (fun t => .bind (modifyDev_calm _).isPublic fun _ => .ret _) h
  · exact some_map (fun t => .ret _) h
  · exact some_map (fun t => .ret _) h
  · exact some_if h

theorem applyOption_public (optPart : Bytes) : Public trusted (applyOption parts optPart) := by
  rw [applyOption]
  cases all : (options parts optPart).reduceOption with
  | nil => exact .ret _
  | cons p rest =>
    have member : p ∈ (options parts optPart).reduceOption := all ▸ List.mem_cons_self
    exact options_public parts optPart p (List.reduceOption_mem_iff.mp member)

theorem applyOptions_public (parsed : List Bytes) (retAll : Int32) :
    Public trusted (applyOptions parts parsed retAll) := by
  induction parsed generalizing retAll with
  | nil => exact .ret _
  | cons optPart rest ih => exact .bind (applyOption_public parts optPart) fun ret => ih _

theorem set_opt_string_public (opts : Bytes) (copied : Bool) :
    Public trusted (set_opt_string parts opts copied) := by
  refine .ite (fun _ => .ret _) fun _ => .bind (applyOptions_public parts _ 0) fun retAll => ?_
  refine .bind getDev_plain.isPublic fun dev => .ite (fun _ => ?_) fun _ => .ret _
  exact .bind (set_tuner_gain_mode_public parts 1) fun _ => .ret _

end PublicCalls

section Clocks

variable {trusted : Prop} (parts : Parts P)

/-- Brings the repeater back to rest where it was off. -/
abbrev Quiet (trusted : Prop) (p : Prog P α) : Prop :=
  KeepsAll trusted (fun n s => Rests trusted n True s.bus) p

theorem Public.quiet {p : Prog P α} (isPublic : Public trusted p) : Quiet trusted p :=
  isPublic.coarsen fun n _ before => ⟨(n, True), before, fun _ kept => kept⟩

theorem reset_quiet {val : UInt16} (off : false = decide (val &&& 0x08 ≠ 0)) (len : UInt8) :
    Quiet trusted (demod_write_reg 1 0x01 val len : Prog P Int32) := by
  intro n
  refine .ofPure (fun s before => before.outer) fun outer => ?_
  refine (switch_register (n := n) (F := fun _ => True) false false val len off).mono ?_ ?_
  · intro s before
    exact ⟨before.depth, before.off trivial, trivial⟩
  · rintro r s ⟨depth, flag, agrees, -⟩
    refine ⟨outer, depth, ?_, fun t => (agrees t).trans flag.symm, fun _ => flag⟩
    intro on
    exact absurd (flag.symm.trans on) (by decide)

theorem set_sample_rate_quiet (samp_rate : UInt32) :
    Quiet trusted (set_sample_rate parts samp_rate) := by
  refine .bind getDev_plain.isPublic.quiet fun dev => .ite (fun _ => .ret _) fun _ => ?_
  refine .bind (modifyDev_calm _).isPublic.quiet fun _ => ?_
  refine .bind getDev_plain.isPublic.quiet fun dev => ?_
  refine .bind (applyBw_public parts dev _).quiet fun _ => ?_
  refine .bind (demod_write_reg_plain (by decide) _ _).isPublic.quiet fun r1 => ?_
  refine .bind (demod_write_reg_plain (by decide) _ _).isPublic.quiet fun r2 => ?_
  refine .bind getDev_plain.isPublic.quiet fun dev => ?_
  refine .bind (set_sample_freq_correction_plain parts _).isPublic.quiet fun r3 => ?_
  refine .bind (reset_quiet (by decide) 1) fun r4 => .bind (reset_quiet (by decide) 1) fun r5 => ?_
  have ends : Quiet trusted (do
      reactivate_softagc .reset
      return r1 ||| r2 ||| r3 ||| r4 ||| r5 : Prog P Int32) :=
    .bind (reactivate_softagc_public .reset).quiet fun _ => .ret _
  refine .bind getDev_plain.isPublic.quiet fun dev => .ite (fun _ => ?_) fun _ => ends
  exact .bind (set_offset_tuning_public parts true).quiet fun _ => ends

theorem set_xtal_freq_quiet (rtl_freq tuner_freq : UInt32) :
    Quiet trusted (set_xtal_freq parts rtl_freq tuner_freq) := by
  have sets : Quiet trusted (set_rtl_xtal parts rtl_freq) := by
    refine .bind getDev_plain.isPublic.quiet fun dev => .ite (fun _ => ?_) fun _ => .ret _
    refine .bind (modifyDev_calm _).isPublic.quiet fun _ => .ite (fun _ => ?_) fun _ => .ret _
    exact set_sample_rate_quiet parts dev.rate
  refine .ite (fun _ => .ret _) fun _ => .bind sets fun r => ?_
  refine .bind getDev_plain.isPublic.quiet fun dev => .ite (fun _ => ?_) fun _ => .ret _
  refine .bind (modifyDev_calm _).isPublic.quiet fun _ => ?_
  refine .bind (updateClocks_plain parts).isPublic.quiet fun _ => ?_
  refine .bind getDev_plain.isPublic.quiet fun dev => .ite (fun _ => ?_) fun _ => .ret _
  exact (set_center_freq64_public parts dev.freq).quiet

end Clocks

section Runs

variable {trusted : Prop} (parts : Parts P)

theorem discard_quiet {p : Prog P α} (quiet : Quiet trusted p) : Quiet trusted (discard p) :=
  .bind quiet fun _ => .ret ()

theorem Call.program_quiet (call : Call) : Quiet trusted (call.program parts) := by
  cases call with
  | set_center_freq freq => exact discard_quiet (set_center_freq_public parts freq).quiet
  | set_center_freq64 freq => exact discard_quiet (set_center_freq64_public parts freq).quiet
  | is_tuner_PLL_locked => exact discard_quiet (is_tuner_PLL_locked_public parts).quiet
  | set_freq_correction ppm => exact discard_quiet (set_freq_correction_public parts ppm).quiet
  | set_and_get_tuner_bandwidth bw apply_bw =>
    exact discard_quiet (set_and_get_tuner_bandwidth_public parts bw apply_bw).quiet
  | set_tuner_bandwidth bw => exact discard_quiet (set_tuner_bandwidth_public parts bw).quiet
  | set_tuner_band_center freq =>
    exact discard_quiet (set_tuner_band_center_public parts freq).quiet
  | set_tuner_gain gain => exact discard_quiet (set_tuner_gain_public parts gain).quiet
  | set_tuner_gain_ext lna mixer vga =>
    exact discard_quiet (set_tuner_gain_ext_public parts lna mixer vga).quiet
  | set_tuner_if_mode if_mode => exact discard_quiet (set_tuner_if_mode_public parts if_mode).quiet
  | set_tuner_if_gain stage gain =>
    exact discard_quiet (set_tuner_if_gain_public parts stage gain).quiet
  | set_tuner_gain_mode mode => exact discard_quiet (set_tuner_gain_mode_public parts mode).quiet
  | set_tuner_sideband sideband =>
    exact discard_quiet (set_tuner_sideband_public parts sideband).quiet
  | set_tuner_i2c_register reg mask data =>
    exact discard_quiet (set_tuner_i2c_register_public parts reg mask data).quiet
  | get_tuner_i2c_register len =>
    exact discard_quiet (get_tuner_i2c_register_public parts len).quiet
  | set_tuner_i2c_override reg mask data =>
    exact discard_quiet (set_tuner_i2c_override_public parts reg mask data).quiet
  | set_offset_tuning on => exact discard_quiet (set_offset_tuning_public parts on).quiet
  | set_sample_rate samp_rate => exact discard_quiet (set_sample_rate_quiet parts samp_rate)
  | set_xtal_freq rtl_freq tuner_freq =>
    exact discard_quiet (set_xtal_freq_quiet parts rtl_freq tuner_freq)
  | set_direct_sampling on => exact discard_quiet (set_direct_sampling_public parts on).quiet
  | set_ds_mode mode freq_threshold =>
    exact discard_quiet (set_ds_mode_public parts mode freq_threshold).quiet
  | set_opt_string opts copied =>
    exact discard_quiet (set_opt_string_public parts opts copied).quiet

def steps (calls : List Call) (s : Dongle P) : List (Step (Instr P) (Dongle P)) :=
  Program.sessionSteps Dongle.serve (calls.map fun call => call.program parts) s

def behind (calls : List Call) (s : Dongle P) : Dongle P :=
  (calls.map fun call => call.program parts).foldl (fun s p => (Program.run Dongle.serve p s).2) s

theorem calls_rest (trusted : Prop) (calls : List Call) (dev : Dev) (chips : Chips P)
    (usb : Nat → UsbAnswer)
    (rely : ∀ step ∈ steps parts calls (.idle dev chips usb), trusted → Obeys step) :
    (∀ step ∈ steps parts calls (.idle dev chips usb), Disciplined trusted step) ∧
      Rests trusted 0 True (behind parts calls (.idle dev chips usb)).bus := by
  have each : ∀ p ∈ calls.map fun call => call.program parts,
      Triple Dongle.serve (fun step => trusted → Obeys step) (Disciplined trusted)
        (fun s => Rests trusted 0 True s.bus) p fun _ s => Rests trusted 0 True s.bus := by
    intro p member
    obtain ⟨call, -, rfl⟩ := List.mem_map.mp member
    exact call.program_quiet parts 0
  have start : Rests trusted 0 True (Dongle.idle dev chips usb).bus :=
    ⟨Int.le_refl 0, rfl, nofun, fun _ => rfl, fun _ => rfl⟩
  exact Triple.session each start rely

/-- The tuner is reached with the mutex held and the repeater on; then the repeater is off and the
mutex is unlocked as often as it was locked. -/
structure BusKept (ran : List (Step (Instr P) (Dongle P))) (final : Dongle P) : Prop where
  held : ∀ step ∈ ran, step.instr.IsTransfer → 0 < step.before.bus.cs_mutex
  switched : ∀ step ∈ ran, step.instr.IsTransfer → step.before.bus.repeater = true
  off : final.bus.repeater = false
  unlocked : final.bus.cs_mutex = 0

/-- The mutex is held at each transfer, with the flag set, and is free behind each call; and if the
    register of the repeater obeys, the repeater is on at each transfer and off behind each call. -/
theorem tuner_bus_kept (calls : List Call) (dev : Dev) (chips : Chips P) (usb : Nat → UsbAnswer) :
    ((∀ step ∈ steps parts calls (.idle dev chips usb), step.instr.IsTransfer →
        0 < step.before.bus.cs_mutex ∧ step.before.bus.i2c_repeater_on = true) ∧
      (behind parts calls (.idle dev chips usb)).bus.cs_mutex = 0 ∧
      (behind parts calls (.idle dev chips usb)).bus.i2c_repeater_on = false) ∧
    ((∀ step ∈ steps parts calls (.idle dev chips usb), Obeys step) →
      BusKept (steps parts calls (.idle dev chips usb))
        (behind parts calls (.idle dev chips usb))) := by
  constructor
  · obtain ⟨disciplined, rests⟩ :=
      calls_rest parts False calls dev chips usb fun _ _ => False.elim
    refine ⟨fun step member transfer => ?_, rests.depth, rests.off trivial⟩
    obtain ⟨held, flag, -⟩ := disciplined step member transfer
    exact ⟨held, flag⟩
  · intro obeys
    obtain ⟨disciplined, rests⟩ :=
      calls_rest parts True calls dev chips usb fun step member _ => obeys step member
    refine ⟨?_, ?_, (rests.agrees trivial).trans (rests.off trivial), rests.depth⟩
    · intro step member transfer
      exact (disciplined step member transfer).1
    · intro step member transfer
      exact (disciplined step member transfer).2.2 trivial

end Runs

/-- `fc0012_readreg`, with 0 where it fails. -/
def fc0012_readreg (reg : UInt8) : Driver Unit UInt8 := do
  let sent ← ask (.i2c_write 0xc6 [reg])
  if sent < 0 then return 0
  else
    let (received, data) ← ask (.i2c_read 0xc6 1)
    return if received < 0 then 0 else data.headD 0

/-- `fc0012_writereg`. -/
def fc0012_writereg (reg val : UInt8) : Driver Unit Int32 := do
  let sent ← ask (.i2c_write 0xc6 [reg, val])
  return if sent < 0 then -1 else 0

/-- `fc0012_set_gain`. -/
def fc0012_set_gain (gain : Int32) : Driver Unit Int32 := do
  let val ← fc0012_readreg 0x13
  let tmp := val &&& 0xe0
  fc0012_writereg 0x13 (
    if gain = -99 then tmp ||| 0x02
    else if gain = -40 then tmp
    else if gain = 71 then tmp ||| 0x08
    else if gain = 179 then tmp ||| 0x17
    else tmp ||| 0x10)

def fc0012Dev : Dev where
  rate := 0
  rtl_xtal := 28800000
  direct_sampling := 0
  rtl_vga_control := 0
  tuner_type := .fc0012
  tun_xtal := 28800000
  freq := 0
  bw := 0
  offs_freq := 0
  if_band_center_freq := 0
  tuner_if_freq := 0
  tuner_sideband := 0
  rtl_spectrum_sideband := 0
  corr := 0
  direct_sampling_mode := 0
  direct_sampling_threshold := 0
  softAgcMode := 0
  agcState := .off
  biast_gpio_pin_no := 0
  gpio_state_known := 0
  gpio_state := 0

def fc0012Chips : Chips Unit where
  e4k_i2c_addr := 0
  e4k_fosc := 0
  r82xx_c := {
    i2c_addr := 0
    vco_curr_min := 0xff
    vco_curr_max := 0xff
    harmonic := 0
    xtal := 0
    rafael_chip := .CHIP_R820T
    max_i2c_msg_len := 0
    use_predetect := 0 }
  int_freq := 0
  if_band_center_freq := 0
  sideband := 0
  tuner_harmonic := 0
  rest := ()

/-- The write that switches the repeater on times out, and then the gain goes to the tuner. -/
theorem switch_refused : ¬ ∀ (P : Type) (parts : Parts P) (calls : List Call) (dev : Dev)
    (chips : Chips P) (usb : Nat → UsbAnswer),
    BusKept (steps parts calls (.idle dev chips usb))
      (behind parts calls (.idle dev chips usb)) := by
  intro all
  have kept := all Unit { (default : Parts Unit) with fc0012_set_gain := fc0012_set_gain }
    [.set_tuner_gain 179] fc0012Dev fc0012Chips
    fun k => if k = 0 then ⟨-7, []⟩ else ⟨1, [0]⟩
  have reached := kept.switched _ (List.getElem_mem (n := 5) (by decide)) trivial
  exact absurd reached (by decide)

end Soapy.Rtl.Tuner
