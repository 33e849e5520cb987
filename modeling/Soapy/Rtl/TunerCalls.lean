import Soapy.Multi.Names
import Soapy.Rtl.TunerDevice

/-! # The calls that talk to the tuner

The public functions of the library and the functions of `tuners` that they go through, without
messages, RPC and the UDP server. The pointer to the device is not null. Some functions of
`tuners` call public functions again, which switch the repeater again.
-/

namespace Soapy.Rtl.Tuner

open Lib
open Soapy.Multi (isspace isdigit value)

variable {P : Type}

def discard {α : Type} (p : Prog P α) : Prog P Unit := do
  let _ ← p
  return ()

/-- The register is written when the flag changes, and the answer is not looked at. -/
def switchRepeater (on : Bool) : Prog P Unit := do
  let i2c_repeater_on ← repeaterOn
  if on ≠ i2c_repeater_on then
    setRepeaterOn on
    let _ ← demod_write_reg 1 0x01 (if on then 0x18 else 0x10) 1

/-- `rtlsdr_set_i2c_repeater`. -/
def set_i2c_repeater (on : Bool) : Prog P Unit := do
  if on then lock
  switchRepeater on
  if ¬ on then unlock

def withRepeater {α : Type} (call : Prog P α) : Prog P α := do
  set_i2c_repeater true
  let r ← call
  set_i2c_repeater false
  return r

def SYSB : UInt8 := 2

def GPO : UInt16 := 0x3001

def GPOE : UInt16 := 0x3003

def GPD : UInt16 := 0x3004

/-- `1 << gpio` as a byte. -/
def pin (gpio : UInt8) : UInt8 := ((1 : UInt32) <<< gpio.toUInt32).toUInt8

/-- The answer of the write goes through a `uint16_t`. -/
def set_gpio_bit (gpio : UInt8) (val : Int32) : Prog P Int32 := do
  let gpio := pin gpio
  let r ← read_reg SYSB GPO
  let r := if val ≠ 0 then r ||| gpio.toUInt16 else r &&& ~~~gpio.toUInt16
  let retval ← write_reg SYSB GPO r
  return retval.toUInt32.toUInt16.toUInt32.toInt32

def set_gpio_output (gpio : UInt8) : Prog P Int32 := do
  let gpio := pin gpio
  let dev ← getDev
  if dev.gpio_state_known &&& gpio = 0 ∨ dev.gpio_state &&& gpio ≠ 0 then
    let r ← read_reg SYSB GPD
    let retval ← write_reg SYSB GPD (r &&& ~~~gpio.toUInt16)
    if retval < 0 then return retval
    else
      let r ← read_reg SYSB GPOE
      let retval ← write_reg SYSB GPOE (r ||| gpio.toUInt16)
      if retval < 0 then return retval
      else
        modifyDev fun dev => { dev with
          gpio_state_known := dev.gpio_state_known ||| gpio
          gpio_state := dev.gpio_state &&& ~~~gpio }
        return retval
  else return 0

section Calls

variable (parts : Parts P)

/-- `rtlsdr_set_if_freq`; the UDP server, which can override the frequency, is not built. -/
def set_if_freq (freq : UInt32) : Prog P Int32 := do
  let dev ← getDev
  let if_freq := (parts.if_freq freq (xtal_freqs parts dev).1).toUInt32
  let r1 ← demod_write_reg 1 0x19 ((if_freq >>> 16) &&& 0x3f).toUInt16 1
  let r2 ← demod_write_reg 1 0x1a ((if_freq >>> 8) &&& 0xff).toUInt16 1
  let r3 ← demod_write_reg 1 0x1b (if_freq &&& 0xff).toUInt16 1
  return r1 ||| r2 ||| r3

def set_spectrum_inversion (sideband : Int32) : Prog P Int32 := do
  let dev ← getDev
  if dev.rtl_spectrum_sideband ≠ sideband + 1 then
    let r ← demod_write_reg 1 0x15 (if sideband ≠ 0 then 0x00 else 0x01) 1
    modifyDev fun dev => { dev with
      rtl_spectrum_sideband := if r ≠ 0 then 0 else sideband + 1 }
    return r
  else return 0

def set_sample_freq_correction (ppm : Int32) : Prog P Int32 := do
  let offs := (parts.ppm_offs ppm).toUInt16
  let r1 ← demod_write_reg 1 0x3f (offs &&& 0xff) 1
  let r2 ← demod_write_reg 1 0x3e ((offs >>> 8) &&& 0x3f) 1
  return r1 ||| r2

def EINVAL : Int32 := 22

def e4000_init : Prog P Int32 := do
  let dev ← getDev
  modifyChips fun chips => { chips with
    e4k_i2c_addr := 0xc8
    e4k_fosc := (xtal_freqs parts dev).2 }
  drive parts parts.e4k_init

def e4000_exit : Prog P Int32 := drive parts (parts.e4k_standby 1)

def e4000_set_bw (bw : Int32) (apply : Bool) : Prog P (Int32 × UInt32) := do
  if ¬ apply then return (0, 0)
  else
    let r1 ← drive parts (parts.e4k_if_filter_bw_set 0 bw.toUInt32)
    let r2 ← drive parts (parts.e4k_if_filter_bw_set 2 bw.toUInt32)
    let r3 ← drive parts (parts.e4k_if_filter_bw_set 1 bw.toUInt32)
    return (r1 ||| r2 ||| r3, 0)

def e4000_set_gain (gain : Int32) : Prog P Int32 := do
  let mixgain : Int32 := if 340 < gain then 12 else 4
  let r ← drive parts (parts.e4k_set_lna_gain (min 300 (gain - mixgain * 10)))
  if r = -EINVAL then return -1
  else
    let r ← drive parts (parts.e4k_mixer_gain_set mixgain.toInt8)
    if r = -EINVAL then return -1
    else return 0

def e4000_set_if_gain (stage gain : Int32) : Prog P Int32 :=
  drive parts (parts.e4k_if_gain_set stage.toUInt32.toUInt8 (gain / 10).toInt8)

def e4000_set_gain_mode (manual : Int32) : Prog P Int32 :=
  drive parts (parts.e4k_enable_manual_gain manual.toUInt32.toUInt8)

/-- Selects the filter of the band with a GPIO pin. -/
def fc0012_set_freq (freq : UInt32) : Prog P Int32 := do
  let _ ← set_gpio_bit 6 (if 300000000 < freq then 1 else 0)
  drive parts (parts.fc0012_set_params freq 6000000)

def fc2580_set_bw (apply : Bool) : Prog P (Int32 × UInt32) := do
  if ¬ apply then return (0, 0)
  else
    let r ← drive parts (parts.fc2580_SetBandwidthMode 1)
    return (r, 0)

def r820t_init : Prog P Int32 := do
  let dev ← getDev
  modifyChips fun chips => { chips with
    r82xx_c := { chips.r82xx_c with
      i2c_addr := if dev.tuner_type = .r828d then 0x74 else 0x34
      rafael_chip := if dev.tuner_type = .r828d then .CHIP_R828D else .CHIP_R820T
      xtal := (xtal_freqs parts dev).2
      max_i2c_msg_len := 8
      use_predetect := 0 } }
  drive parts parts.r82xx_init

def r820t_exit : Prog P Int32 := drive parts parts.r82xx_standby

/-- `harm_sideband_xor`. -/
def harm_sideband_xor : List Int32 := [0, 0, 0, 1, 0, 0, 0, 1, 0, 0, 0, 1, 0, 0, 0, 1, 0]

/-- `r82xx_flip_rtl_sideband`. -/
def Chips.flip (chips : Chips P) : Int32 := harm_sideband_xor.getD chips.tuner_harmonic 0

def r820t_set_freq64 (freq : UInt64) : Prog P Int32 := do
  let r ← drive parts (parts.r82xx_set_freq64 freq)
  let chips ← getChips
  let ri ← set_spectrum_inversion (chips.sideband ^^^ chips.flip)
  return if ri ≠ 0 then ri else r

def vga_control (rc rtl_vga_control : Int32) : Prog P Int32 := do
  if rc < 0 then return rc
  else
    let dev ← getDev
    if rtl_vga_control ≠ dev.rtl_vga_control then
      modifyDev fun dev => { dev with rtl_vga_control := rtl_vga_control }
    return rc

def r820t_set_gain (gain : Int32) : Prog P Int32 := do
  let (rc, rtl_vga_control) ← drive parts (parts.r82xx_set_gain 1 gain 0 0 0 0)
  vga_control rc rtl_vga_control

def r820t_set_gain_ext (lna_gain mixer_gain vga_gain : Int32) : Prog P Int32 := do
  let (rc, rtl_vga_control) ←
    drive parts (parts.r82xx_set_gain 0 0 1 lna_gain mixer_gain vga_gain)
  vga_control rc rtl_vga_control

def r820t_set_if_mode (if_mode : Int32) : Prog P Int32 := do
  let (rc, rtl_vga_control) ← drive parts (parts.r82xx_set_if_mode if_mode)
  vga_control rc rtl_vga_control

def r820t_set_gain_mode (manual : Int32) : Prog P Int32 := do
  let (rc, rtl_vga_control) ← drive parts (parts.r82xx_set_gain manual 0 0 0 0 0)
  vga_control rc rtl_vga_control

def tunerInit : TunerType → Option (Prog P Int32)
  | .unknown => none
  | .e4000 => some (e4000_init parts)
  | .fc0012 => some (drive parts parts.fc0012_init)
  | .fc0013 => some (drive parts parts.fc0013_init)
  | .fc2580 => some (drive parts parts.fc2580_Initialize)
  | .r820t | .r828d => some (r820t_init parts)

def tunerExit : TunerType → Option (Prog P Int32)
  | .unknown => none
  | .e4000 => some (e4000_exit parts)
  | .fc0012 | .fc0013 | .fc2580 => some (pure 0)
  | .r820t | .r828d => some (r820t_exit parts)

def tunerSetFreq : TunerType → Option (UInt32 → Prog P Int32)
  | .unknown => none
  | .e4000 => some fun freq => drive parts (parts.e4k_tune_freq freq)
  | .fc0012 => some (fc0012_set_freq parts)
  | .fc0013 => some fun freq => drive parts (parts.fc0013_set_params freq 6000000)
  | .fc2580 => some fun freq => drive parts (parts.fc2580_SetRfFreqHz freq)
  | .r820t | .r828d => some fun freq => r820t_set_freq64 parts freq.toUInt64

def tunerSetFreq64 : TunerType → Option (UInt64 → Prog P Int32)
  | .r820t | .r828d => some (r820t_set_freq64 parts)
  | _ => none

def R82XX_IF_FREQ : UInt32 := 3570000

def ofTuner (call : Option (Prog P Int32)) : Prog P Int32 :=
  match call with
  | some call => withRepeater call
  | none => pure 0

/-- `rtlsdr_set_direct_sampling` with an input. -/
def enable_direct_sampling (tuner : TunerType) (on : Int32) : Prog P Int32 := do
  let r ← ofTuner (tunerExit parts tuner)
  let r1 ← demod_write_reg 1 0xb1 0x1a 1
  let r2 ← demod_write_reg 1 0x15 0x00 1
  let r3 ← demod_write_reg 0 0x08 0x4d 1
  let r4 ← demod_write_reg 0 0x06 (if 1 < on then 0x90 else 0x80) 1
  modifyDev fun dev => { dev with direct_sampling := on }
  return r ||| r1 ||| r2 ||| r3 ||| r4

def set_tuner_datapath (tuner : TunerType) : Prog P Int32 := do
  if tuner = .r820t ∨ tuner = .r828d then
    let r1 ← set_if_freq parts R82XX_IF_FREQ
    let r2 ← demod_write_reg 1 0x15 0x01 1
    return r1 ||| r2
  else
    let r1 ← set_if_freq parts 0
    let r2 ← demod_write_reg 0 0x08 0xcd 1
    let r3 ← demod_write_reg 1 0xb1 0x1b 1
    return r1 ||| r2 ||| r3

/-- `rtlsdr_set_direct_sampling` with 0. -/
def disable_direct_sampling (tuner : TunerType) : Prog P Int32 := do
  let r1 ← ofTuner (tunerInit parts tuner)
  let r2 ← set_tuner_datapath parts tuner
  let r3 ← demod_write_reg 0 0x06 0x80 1
  modifyDev fun dev => { dev with direct_sampling := 0 }
  return r1 ||| r2 ||| r3

/-- `rtlsdr_set_direct_sampling`, with the tuning that it ends with. -/
def set_direct_sampling (tune : UInt64 → Prog P Int32) (on : Int32) : Prog P Int32 := do
  let dev ← getDev
  let r ← (if on ≠ 0 then enable_direct_sampling parts dev.tuner_type on
    else disable_direct_sampling parts dev.tuner_type)
  let dev ← getDev
  let tuned ← tune dev.freq
  return r ||| tuned

/-- `RTLSDR_DS_Q`. -/
def RTLSDR_DS_Q : UInt32 := 2

/-- `new_ds` of `rtlsdr_update_ds`, by `enum rtlsdr_ds_mode`. -/
def Dev.newDs (dev : Dev) (freq : UInt64) : Int32 :=
  if dev.direct_sampling_mode = 1 then 1
  else if dev.direct_sampling_mode = 2 then 2
  else if dev.direct_sampling_mode = 3 then
    if freq < dev.direct_sampling_threshold.toUInt64 then 1 else 0
  else if dev.direct_sampling_mode = 4 then
    if freq < dev.direct_sampling_threshold.toUInt64 then 2 else 0
  else 0

def update_ds (tune : UInt64 → Prog P Int32) (freq : UInt64) : Prog P Int32 := do
  let dev ← getDev
  if dev.direct_sampling < 0 then return -1
  else if dev.direct_sampling ≠ dev.newDs freq then
    set_direct_sampling parts tune (dev.newDs freq)
  else return 0

/-- What both functions end with: the frequency is kept if it was set. -/
def keepFreq (r : Int32) (freq : UInt64) : Prog P Int32 := do
  modifyDev fun dev => { dev with freq := if r = 0 then freq else 0 }
  return r

/-- The step of `rtlsdr_set_center_freq64` that sets the frequency. -/
def set_freq64 (dev : Dev) (freq : UInt64) : Prog P Int32 :=
  if dev.direct_sampling ≠ 0 then set_if_freq parts freq.toUInt32
  else match tunerSetFreq64 parts dev.tuner_type, tunerSetFreq parts dev.tuner_type with
    | some set_freq64, _ => withRepeater (set_freq64 (freq - dev.offs_freq.toUInt64))
    | none, some set_freq => withRepeater (set_freq (freq.toUInt32 - dev.offs_freq))
    | none, none => pure (-1)

/-- `rtlsdr_set_center_freq64`, up to a depth of the calls that it makes of itself. -/
def center_freq64 : Nat → UInt64 → Prog P Int32
  | 0, _ => .fail .tooDeep
  | depth + 1, freq => do
    let dev ← getDev
    if RTLSDR_DS_Q < dev.direct_sampling_mode then
      let _ ← update_ds parts (center_freq64 depth) freq
    let dev ← getDev
    let r ← set_freq64 parts dev freq
    keepFreq r freq

/-- The calls behind `rtlsdr_set_center_freq64` reach it at most twice more. -/
def set_center_freq64 (freq : UInt64) : Prog P Int32 := center_freq64 parts 3 freq

/-- The step of `rtlsdr_set_center_freq` that sets the frequency. -/
def set_freq (dev : Dev) (freq : UInt32) : Prog P Int32 :=
  if dev.direct_sampling ≠ 0 then set_if_freq parts freq
  else match tunerSetFreq parts dev.tuner_type with
    | some set_freq => withRepeater (set_freq (freq - dev.offs_freq))
    | none => pure (-1)

def set_center_freq (freq : UInt32) : Prog P Int32 := do
  let dev ← getDev
  if RTLSDR_DS_Q < dev.direct_sampling_mode then
    let _ ← update_ds parts (set_center_freq64 parts) freq.toUInt64
  let dev ← getDev
  let r ← set_freq parts dev freq
  keepFreq r freq.toUInt64

def is_tuner_PLL_locked : Prog P Int32 := do
  let dev ← getDev
  if dev.tuner_type ≠ .r820t ∧ dev.tuner_type ≠ .r828d then return -2
  else withRepeater (drive parts parts.r82xx_is_tuner_locked)

/-- The corrected clock value goes into the states of two drivers. -/
def updateClocks : Prog P Unit := do
  let dev ← getDev
  modifyChips fun chips => { chips with
    e4k_fosc := (xtal_freqs parts dev).2
    r82xx_c := { chips.r82xx_c with xtal := (xtal_freqs parts dev).2 } }

def set_freq_correction (ppm : Int32) : Prog P Int32 := do
  let dev ← getDev
  if dev.corr = ppm then return -2
  else
    modifyDev fun dev => { dev with corr := ppm }
    let r ← set_sample_freq_correction parts ppm
    updateClocks parts
    let dev ← getDev
    if dev.freq ≠ 0 then
      let tuned ← set_center_freq64 parts dev.freq
      return r ||| tuned
    else return r

/-- The frequency that `rtlsdr_set_if_freq` is given for the band center. -/
def Dev.bandIf (dev : Dev) : UInt32 :=
  (if dev.tuner_sideband ≠ 0 then dev.tuner_if_freq - dev.if_band_center_freq
    else dev.tuner_if_freq + dev.if_band_center_freq).toUInt32

/-- What `r820t_set_bw` and `r820t_set_bw_center` end with. -/
def retune : Prog P Int32 := do
  let dev ← getDev
  let r ← set_if_freq parts dev.bandIf
  if r ≠ 0 then return r
  else
    let dev ← getDev
    set_center_freq64 parts dev.freq

def r820t_set_bw (bw : Int32) (apply : Bool) : Prog P (Int32 × UInt32) := do
  let applied_bw := parts.r82xx_applied_bw bw
  if ¬ apply then return (0, applied_bw)
  else
    let dev ← getDev
    let iffreq ← drive parts (parts.r82xx_apply_bandwidth bw dev.rate)
    if iffreq < 0 then return (iffreq, applied_bw)
    else
      modifyDev fun dev => { dev with tuner_if_freq := iffreq }
      let r ← retune parts
      return (r, applied_bw)

/-- `r82xx_set_bw_center` sets a field of the driver and gives back the IF frequency. -/
def r820t_set_bw_center (if_band_center_freq : Int32) : Prog P Int32 := do
  modifyChips fun chips => { chips with if_band_center_freq := if_band_center_freq }
  let chips ← getChips
  let iffreq := chips.int_freq.toInt32
  if iffreq < 0 then return iffreq
  else
    modifyDev fun dev => { dev with
      tuner_if_freq := iffreq
      if_band_center_freq := if_band_center_freq }
    retune parts

def r820t_set_sideband (sideband : Int32) : Prog P Int32 := do
  let r ← drive parts (parts.r82xx_set_sideband sideband)
  if r < 0 then return r
  else
    let chips ← getChips
    let r ← set_spectrum_inversion (sideband ^^^ chips.flip)
    if r ≠ 0 then return r
    else
      let dev ← getDev
      if dev.freq = 0 then return r
      else set_center_freq64 parts dev.freq

def tunerSetBw : TunerType → Option (Int32 → Bool → Prog P (Int32 × UInt32))
  | .unknown => none
  | .e4000 => some (e4000_set_bw parts)
  | .fc0012 | .fc0013 => some fun _ _ => pure (0, 0)
  | .fc2580 => some fun _ apply => fc2580_set_bw parts apply
  | .r820t | .r828d => some (r820t_set_bw parts)

def tunerSetBwCenter : TunerType → Option (Int32 → Prog P Int32)
  | .r820t | .r828d => some (r820t_set_bw_center parts)
  | _ => none

def tunerSetGain : TunerType → Option (Int32 → Prog P Int32)
  | .unknown => none
  | .e4000 => some (e4000_set_gain parts)
  | .fc0012 => some fun gain => drive parts (parts.fc0012_set_gain gain)
  | .fc0013 => some fun gain => drive parts (parts.fc0013_set_lna_gain gain)
  | .fc2580 => some fun _ => pure 0
  | .r820t | .r828d => some (r820t_set_gain parts)

def tunerSetIfGain : TunerType → Option (Int32 → Int32 → Prog P Int32)
  | .e4000 => some (e4000_set_if_gain parts)
  | _ => none

def tunerSetGainMode : TunerType → Option (Int32 → Prog P Int32)
  | .unknown => none
  | .e4000 => some (e4000_set_gain_mode parts)
  | .fc0012 | .fc0013 | .fc2580 => some fun _ => pure 0
  | .r820t | .r828d => some (r820t_set_gain_mode parts)

def tunerSetI2cRegister : TunerType → Option (UInt32 → UInt32 → UInt32 → Prog P Int32)
  | .fc0012 => some fun i2c_register data _ =>
    drive parts (parts.fc0012_set_i2c_register i2c_register data)
  | .r820t | .r828d => some fun i2c_register data mask =>
    drive parts (parts.r82xx_set_i2c_register i2c_register data mask)
  | _ => none

def tunerSetI2cOverride : TunerType → Option (UInt32 → UInt32 → UInt32 → Prog P Int32)
  | .r820t | .r828d => some fun i2c_register data mask =>
    drive parts (parts.r82xx_set_i2c_override i2c_register data mask)
  | _ => none

/-- Whether there is a `get_i2c_register`; the FC0012 has only a `get_i2c_reg_array`. -/
def hasGetI2cRegister : TunerType → Bool
  | .r820t | .r828d => true
  | _ => false

def tunerGetI2cRegArray : TunerType → Option (Int32 → Prog P (Int32 × Bytes))
  | .fc0012 => some fun len => drive parts (parts.fc0012_get_i2c_register len)
  | .r820t | .r828d => some fun len => drive parts (parts.r82xx_get_i2c_register len)
  | _ => none

def tunerSetSideband : TunerType → Option (Int32 → Prog P Int32)
  | .r820t | .r828d => some (r820t_set_sideband parts)
  | _ => none

/-- `reactivate_softagc`: a running control of the gain is left alone. -/
def reactivate_softagc (newState : SoftState) : Prog P Unit :=
  modifyDev fun dev =>
    if dev.softAgcMode = 0 ∨ (dev.agcState ≠ .off ∧ 3 ≤ dev.softAgcMode) then dev
    else { dev with agcState := newState }

/-- `bw > 0 ? bw : dev->rate` -/
def Dev.bwOrRate (dev : Dev) (bw : UInt32) : Int32 := (if 0 < bw then bw else dev.rate).toInt32

def set_and_get_tuner_bandwidth (bw : UInt32) (apply_bw : Bool) : Prog P (Int32 × UInt32) := do
  let dev ← getDev
  match tunerSetBw parts dev.tuner_type with
  | none => return (0, 0)
  | some set_bw =>
    if ¬ apply_bw then set_bw (dev.bwOrRate bw) apply_bw
    else
      let (r, applied_bw) ← withRepeater (set_bw (dev.bwOrRate bw) apply_bw)
      reactivate_softagc .reset
      if r = 0 then
        modifyDev fun dev => { dev with bw := bw }
      return (r, applied_bw)

def set_tuner_bandwidth (bw : UInt32) : Prog P Int32 := do
  let (r, _) ← set_and_get_tuner_bandwidth parts bw true
  return r

def set_tuner_band_center (if_band_center_freq : Int32) : Prog P Int32 := do
  let dev ← getDev
  match tunerSetBwCenter parts dev.tuner_type with
  | none => return -1
  | some set_bw_center => set_bw_center if_band_center_freq

def set_tuner_gain (gain : Int32) : Prog P Int32 := do
  let dev ← getDev
  match tunerSetGain parts dev.tuner_type with
  | none => return 0
  | some set_gain => withRepeater (set_gain gain)

def set_tuner_gain_ext (lna_gain mixer_gain vga_gain : Int32) : Prog P Int32 := do
  let dev ← getDev
  if dev.tuner_type ≠ .r820t ∧ dev.tuner_type ≠ .r828d then return -1
  else withRepeater (r820t_set_gain_ext parts lna_gain mixer_gain vga_gain)

def set_tuner_if_mode (if_mode : Int32) : Prog P Int32 := do
  let dev ← getDev
  if dev.tuner_type ≠ .r820t ∧ dev.tuner_type ≠ .r828d then return -1
  else withRepeater (r820t_set_if_mode parts if_mode)

def set_tuner_if_gain (stage gain : Int32) : Prog P Int32 := do
  let dev ← getDev
  match tunerSetIfGain parts dev.tuner_type with
  | none => return 0
  | some set_if_gain =>
    let r ← withRepeater (set_if_gain stage gain)
    reactivate_softagc .reset
    return r

def set_tuner_gain_mode (mode : Int32) : Prog P Int32 := do
  let dev ← getDev
  match tunerSetGainMode parts dev.tuner_type with
  | none => return 0
  | some set_gain_mode => withRepeater (set_gain_mode (if dev.softAgcMode ≠ 0 then 1 else mode))

def set_tuner_sideband (sideband : Int32) : Prog P Int32 := do
  let dev ← getDev
  match tunerSetSideband parts dev.tuner_type with
  | none => return 0
  | some set_sideband =>
    let r ← withRepeater (set_sideband sideband)
    if r ≠ 0 then return r
    else
      modifyDev fun dev => { dev with tuner_sideband := sideband }
      let dev ← getDev
      let r ← set_if_freq parts dev.bandIf
      if r ≠ 0 then return r
      else
        let dev ← getDev
        if dev.freq = 0 then return r
        else set_center_freq64 parts dev.freq

def set_tuner_i2c_register (i2c_register mask data : UInt32) : Prog P Int32 := do
  let dev ← getDev
  match tunerSetI2cRegister parts dev.tuner_type with
  | none => return 0
  | some set_i2c_register => withRepeater (set_i2c_register i2c_register data mask)

/-- There is always a `get_i2c_reg_array` where there is a `get_i2c_register`. -/
def get_tuner_i2c_register (len : Int32) : Prog P (Int32 × Bytes) := do
  let dev ← getDev
  match hasGetI2cRegister dev.tuner_type, tunerGetI2cRegArray parts dev.tuner_type with
  | true, some get_i2c_reg_array => withRepeater (get_i2c_reg_array len)
  | _, _ => return (0, [])

def set_tuner_i2c_override (i2c_register mask data : UInt32) : Prog P Int32 := do
  let dev ← getDev
  match tunerSetI2cOverride parts dev.tuner_type with
  | none => return 0
  | some set_i2c_override => withRepeater (set_i2c_override i2c_register data mask)

def applyBw (dev : Dev) (bw : Int32) : Prog P Unit :=
  match tunerSetBw parts dev.tuner_type with
  | none => pure ()
  | some set_bw => discard (withRepeater (set_bw bw true))

def set_offset_tuning (on : Bool) : Prog P Int32 := do
  let dev ← getDev
  if dev.tuner_type = .r820t ∨ dev.tuner_type = .r828d then return -2
  else if dev.direct_sampling ≠ 0 then return -3
  else
    modifyDev fun dev => { dev with
      offs_freq := if on then dev.rate / 2 * 170 / 100 else 0 }
    let dev ← getDev
    let r ← set_if_freq parts dev.offs_freq
    applyBw parts dev (if on then (2 * dev.offs_freq).toInt32 else dev.bwOrRate dev.bw)
    let dev ← getDev
    if dev.offs_freq.toUInt64 < dev.freq then
      let tuned ← set_center_freq64 parts dev.freq
      return r ||| tuned
    else return r

/-- The reset of the demodulator writes the register of the repeater. -/
def set_sample_rate (samp_rate : UInt32) : Prog P Int32 := do
  let dev ← getDev
  if samp_rate ≤ 225000 ∨ 3200000 < samp_rate ∨ (300000 < samp_rate ∧ samp_rate ≤ 900000) then
    return -EINVAL
  else
    let rsamp_ratio := parts.rsamp_ratio dev.rtl_xtal samp_rate &&& 0x0ffffffc
    let real_rsamp_ratio := rsamp_ratio ||| ((rsamp_ratio &&& 0x08000000) <<< 1)
    modifyDev fun dev => { dev with rate := parts.real_rate dev.rtl_xtal real_rsamp_ratio }
    let dev ← getDev
    applyBw parts dev (dev.bwOrRate dev.bw)
    let r1 ← demod_write_reg 1 0x9f (rsamp_ratio >>> 16).toUInt16 2
    let r2 ← demod_write_reg 1 0xa1 (rsamp_ratio &&& 0xffff).toUInt16 2
    let dev ← getDev
    let r3 ← set_sample_freq_correction parts dev.corr
    let r4 ← demod_write_reg 1 0x01 0x14 1
    let r5 ← demod_write_reg 1 0x01 0x10 1
    let dev ← getDev
    if dev.offs_freq ≠ 0 then
      let _ ← set_offset_tuning parts true
    reactivate_softagc .reset
    return r1 ||| r2 ||| r3 ||| r4 ||| r5

def MIN_RTL_XTAL_FREQ : UInt32 := 28800000 - 1000

def MAX_RTL_XTAL_FREQ : UInt32 := 28800000 + 1000

/-- The part of `rtlsdr_set_xtal_freq` for the clock of the dongle. -/
def set_rtl_xtal (rtl_freq : UInt32) : Prog P Int32 := do
  let dev ← getDev
  if 0 < rtl_freq ∧ dev.rtl_xtal ≠ rtl_freq then
    modifyDev fun dev => { dev with rtl_xtal := rtl_freq }
    if dev.rate ≠ 0 then set_sample_rate parts dev.rate
    else return 0
  else return 0

def set_xtal_freq (rtl_freq tuner_freq : UInt32) : Prog P Int32 := do
  if 0 < rtl_freq ∧ (rtl_freq < MIN_RTL_XTAL_FREQ ∨ MAX_RTL_XTAL_FREQ < rtl_freq) then return -2
  else
    let r ← set_rtl_xtal parts rtl_freq
    let dev ← getDev
    if dev.tun_xtal ≠ tuner_freq then
      modifyDev fun dev => { dev with
        tun_xtal := if tuner_freq = 0 then dev.rtl_xtal else tuner_freq }
      updateClocks parts
      let dev ← getDev
      if dev.freq ≠ 0 then set_center_freq64 parts dev.freq
      else return r
    else return r

def set_ds_mode (mode freq_threshold : UInt32) : Prog P Int32 := do
  let dev ← getDev
  let center_freq := dev.freq
  if center_freq = 0 then return -2
  else
    let freq_threshold := if freq_threshold ≠ 0 then freq_threshold
      else match dev.tuner_type with
        | .e4000 => 50 * 1000000
        | .r820t => 24000000
        | _ => 28800000
    modifyDev fun dev => { dev with
      direct_sampling_mode := mode
      direct_sampling_threshold := freq_threshold }
    if mode ≤ RTLSDR_DS_Q then
      let _ ← set_direct_sampling parts (set_center_freq64 parts) mode.toInt32
    set_center_freq64 parts center_freq

def set_agc_mode (on : Int32) : Prog P Int32 :=
  demod_write_reg 0 0x19 (if on ≠ 0 then 0x25 else 0x05) 1

def set_bias_tee (on : Int32) : Prog P Int32 := do
  let dev ← getDev
  let _ ← set_gpio_output dev.biast_gpio_pin_no
  let _ ← set_gpio_bit dev.biast_gpio_pin_no on
  reactivate_softagc .reset
  return 0

/-- `atoi` and `atol`: white space, a sign and digits at the front of the text. -/
def atol (text : Bytes) : Int :=
  let text := text.dropWhile isspace
  if text.head? = some 45 then -(value (text.tail.takeWhile isdigit))
  else if text.head? = some 43 then value (text.tail.takeWhile isdigit)
  else value (text.takeWhile isdigit)

def atoi (text : Bytes) : Int32 := Int32.ofInt (atol text)

/-- What follows a prefix that the option begins with, as `strncmp` compares them. -/
def after (front : String) (optPart : Bytes) : Option Bytes :=
  if ascii front <+: optPart then some (optPart.drop (ascii front).length) else none

/-- The options are separated by colons and commas, as `strtok` separates them. -/
def optParts (opts : Bytes) : List Bytes :=
  (opts.splitOnP fun ch => ch = 58 || ch = 44).filter (· ≠ [])

def sidebandOf (text : Bytes) : Int32 :=
  if text = ascii "L" ∨ text = ascii "l" ∨ text = ascii "0" then 0
  else if text = ascii "U" ∨ text = ascii "u" ∨ text = ascii "1" then 1
  else atoi text

def setConfig (val high : Int32) (f : R82xxConfig → R82xxConfig) : Prog P Int32 := do
  if 0 ≤ val ∧ val ≤ high then
    modifyChips fun chips => { chips with r82xx_c := f chips.r82xx_c }
  return 0

/-- What the options do, in the order in which they are compared. The times of the soft AGC and
the verbosity do not reach the tuner. -/
def options (optPart : Bytes) : List (Option (Prog P Int32)) :=
  [ if optPart = ascii "verbose" ∨ optPart = ascii "v" then some (pure 0) else none
  , (after "f=" optPart).map fun text => set_center_freq64 parts (parts.parse_uint64 text)
  , (after "bw=" optPart).map fun text => set_tuner_bandwidth parts (UInt32.ofInt (atol text * 1000))
  , (after "bc=" optPart).map fun text => set_tuner_band_center parts (parts.parse_int32 text)
  , (after "sb=" optPart).map fun text => set_tuner_sideband parts (sidebandOf text)
  , (after "agc=" optPart).map fun text => set_tuner_gain_mode parts (1 - atoi text)
  , (after "gain=" optPart).map fun text => set_tuner_gain parts (atoi text)
  , (after "agcv=" optPart).map fun text =>
      set_tuner_if_mode parts (if atoi text < 0 then 0 else atoi text)
  , (after "ifm=" optPart).map fun text => set_tuner_if_mode parts (atoi text)
  , (after "dagc=" optPart).map fun text => set_agc_mode (atoi text)
  , (after "ds=" optPart).map fun text =>
      set_direct_sampling parts (set_center_freq64 parts) (atoi text)
  , (after "dm=" optPart).map fun text => do
      let dm := parts.parse_uint32 text
      modifyDev fun dev =>
        if dm ≤ 4 then { dev with direct_sampling_mode := dm }
        else { dev with direct_sampling_threshold := dm }
      let dev ← getDev
      set_ds_mode parts dev.direct_sampling_mode dev.direct_sampling_threshold
  , (after "harm=" optPart).map fun text =>
      setConfig (atoi text) 16 fun c => { c with harmonic := atoi text }
  , (after "vcocmin=" optPart).map fun text =>
      setConfig (atoi text) 7 fun c => { c with vco_curr_min := (7 - atoi text).toUInt32.toUInt8 }
  , (after "vcocmax=" optPart).map fun text =>
      setConfig (atoi text) 7 fun c => { c with vco_curr_max := (7 - atoi text).toUInt32.toUInt8 }
  , (after "vcoalgo=" optPart).map fun text =>
      setConfig (atoi text) 2 fun c => { c with vco_curr_max := (atoi text).toUInt32.toUInt8 }
  , (after "tp=" optPart <|> after "Tp=" optPart <|> after "TP=" optPart).map fun text => do
      modifyDev fun dev => { dev with biast_gpio_pin_no := (atoi text).toUInt32.toUInt8 }
      return 0
  , (after "t=" optPart <|> after "T=" optPart).map fun text => set_bias_tee (atoi text)
  , (after "softagc=" optPart).map fun text => do
      modifyDev fun dev => { dev with
        softAgcMode := (atoi text).toUInt32
        agcState := if atoi text ≠ 0 then .init else .off }
      return 0
  , (after "softscantime=" optPart).map fun _ => pure 0
  , (after "softdeadtime=" optPart).map fun _ => pure 0
  , if optPart = ascii "softverbose" then some (pure 0) else none ]

/-- The first option that compares equal; an unknown one is an error. -/
def applyOption (optPart : Bytes) : Prog P Int32 :=
  (options parts optPart).reduceOption.headD (pure (-1))

/-- The loop of `rtlsdr_set_opt_string`. -/
def applyOptions : List Bytes → Int32 → Prog P Int32
  | [], retAll => pure retAll
  | optPart :: rest, retAll => do
    let ret ← applyOption parts optPart
    applyOptions rest (if ret < 0 then ret else retAll)

/-- `copied` says whether `strdup` gave a copy. `softagc_init` starts a thread, which makes calls
of its own. -/
def set_opt_string (opts : Bytes) (copied : Bool) : Prog P Int32 := do
  if ¬ copied then return -1
  else
    let retAll ← applyOptions parts (optParts opts) 0
    let dev ← getDev
    if dev.agcState ≠ .off then
      let _ ← set_tuner_gain_mode parts 1
    return retAll

end Calls

inductive Call where
  | set_center_freq (freq : UInt32)
  | set_center_freq64 (freq : UInt64)
  | is_tuner_PLL_locked
  | set_freq_correction (ppm : Int32)
  | set_and_get_tuner_bandwidth (bw : UInt32) (apply_bw : Bool)
  | set_tuner_bandwidth (bw : UInt32)
  | set_tuner_band_center (if_band_center_freq : Int32)
  | set_tuner_gain (gain : Int32)
  | set_tuner_gain_ext (lna_gain mixer_gain vga_gain : Int32)
  | set_tuner_if_mode (if_mode : Int32)
  | set_tuner_if_gain (stage gain : Int32)
  | set_tuner_gain_mode (mode : Int32)
  | set_tuner_sideband (sideband : Int32)
  | set_tuner_i2c_register (i2c_register mask data : UInt32)
  | get_tuner_i2c_register (len : Int32)
  | set_tuner_i2c_override (i2c_register mask data : UInt32)
  | set_offset_tuning (on : Bool)
  | set_sample_rate (samp_rate : UInt32)
  | set_xtal_freq (rtl_freq tuner_freq : UInt32)
  | set_direct_sampling (on : Int32)
  | set_ds_mode (mode freq_threshold : UInt32)
  | set_opt_string (opts : Bytes) (copied : Bool)

def Call.program (parts : Parts P) : Call → Prog P Unit
  | .set_center_freq freq => discard (Tuner.set_center_freq parts freq)
  | .set_center_freq64 freq => discard (Tuner.set_center_freq64 parts freq)
  | .is_tuner_PLL_locked => discard (Tuner.is_tuner_PLL_locked parts)
  | .set_freq_correction ppm => discard (Tuner.set_freq_correction parts ppm)
  | .set_and_get_tuner_bandwidth bw apply_bw =>
    discard (Tuner.set_and_get_tuner_bandwidth parts bw apply_bw)
  | .set_tuner_bandwidth bw => discard (Tuner.set_tuner_bandwidth parts bw)
  | .set_tuner_band_center freq => discard (Tuner.set_tuner_band_center parts freq)
  | .set_tuner_gain gain => discard (Tuner.set_tuner_gain parts gain)
  | .set_tuner_gain_ext lna mixer vga => discard (Tuner.set_tuner_gain_ext parts lna mixer vga)
  | .set_tuner_if_mode if_mode => discard (Tuner.set_tuner_if_mode parts if_mode)
  | .set_tuner_if_gain stage gain => discard (Tuner.set_tuner_if_gain parts stage gain)
  | .set_tuner_gain_mode mode => discard (Tuner.set_tuner_gain_mode parts mode)
  | .set_tuner_sideband sideband => discard (Tuner.set_tuner_sideband parts sideband)
  | .set_tuner_i2c_register reg mask data =>
    discard (Tuner.set_tuner_i2c_register parts reg mask data)
  | .get_tuner_i2c_register len => discard (Tuner.get_tuner_i2c_register parts len)
  | .set_tuner_i2c_override reg mask data =>
    discard (Tuner.set_tuner_i2c_override parts reg mask data)
  | .set_offset_tuning on => discard (Tuner.set_offset_tuning parts on)
  | .set_sample_rate samp_rate => discard (Tuner.set_sample_rate parts samp_rate)
  | .set_xtal_freq rtl_freq tuner_freq => discard (Tuner.set_xtal_freq parts rtl_freq tuner_freq)
  | .set_direct_sampling on =>
    discard (Tuner.set_direct_sampling parts (Tuner.set_center_freq64 parts) on)
  | .set_ds_mode mode freq_threshold => discard (Tuner.set_ds_mode parts mode freq_threshold)
  | .set_opt_string opts copied => discard (Tuner.set_opt_string parts opts copied)

end Soapy.Rtl.Tuner
