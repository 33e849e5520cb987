import Soapy.Lib.Bytes
import Soapy.Lib.Triples

/-! # The dongle and its tuner

The tuner hangs behind an I2C repeater, which a bit of a demodulator register switches. A call of
the library is a program of instructions to the dongle; what USB answers to them is arbitrary.
The drivers of the tuner chips reach the dongle through I2C transfers alone.
-/

namespace Soapy.Rtl.Tuner

open Lib

/-- `enum rtlsdr_tuner`. -/
inductive TunerType where
  | unknown
  | e4000
  | fc0012
  | fc0013
  | fc2580
  | r820t
  | r828d
deriving DecidableEq

/-- `enum softagc_stateT`. -/
inductive SoftState where
  | off
  | on
  | reset_cont
  | reset
  | init
deriving DecidableEq

/-- `struct rtlsdr_dev`, as far as the calls below read it. A device that `rtlsdr_open` returns
has a tuner, the entry of `tuners` for its type. -/
structure Dev where
  rate : UInt32
  rtl_xtal : UInt32
  direct_sampling : Int32
  rtl_vga_control : Int32
  tuner_type : TunerType
  tun_xtal : UInt32
  freq : UInt64
  bw : UInt32
  offs_freq : UInt32
  if_band_center_freq : Int32
  tuner_if_freq : Int32
  tuner_sideband : Int32
  rtl_spectrum_sideband : Int32
  corr : Int32
  direct_sampling_mode : UInt32
  direct_sampling_threshold : UInt32
  softAgcMode : UInt32
  agcState : SoftState
  biast_gpio_pin_no : UInt8
  gpio_state_known : UInt8
  gpio_state : UInt8

inductive RafaelChip where
  | CHIP_R820T
  | CHIP_R828D
deriving DecidableEq

structure R82xxConfig where
  i2c_addr : UInt8
  vco_curr_min : UInt8
  vco_curr_max : UInt8
  harmonic : Int32
  xtal : UInt32
  rafael_chip : RafaelChip
  max_i2c_msg_len : UInt32
  use_predetect : Int32

/-- What the drivers keep in the device. The library itself touches the named fields. -/
structure Chips (P : Type) where
  e4k_i2c_addr : UInt8
  e4k_fosc : UInt32
  r82xx_c : R82xxConfig
  int_freq : UInt32
  if_band_center_freq : Int32
  sideband : Int32
  tuner_harmonic : Nat
  rest : P

/-- The mutex counts the locks that are not unlocked; `repeater` is the bit of the register. -/
structure Bus where
  cs_mutex : Int
  i2c_repeater_on : Bool
  repeater : Bool
deriving DecidableEq

/-- What a control transfer gives back. -/
structure UsbAnswer where
  r : Int32
  data : Bytes

structure Dongle (P : Type) where
  bus : Bus
  dev : Dev
  chips : Chips P
  usb : Nat → UsbAnswer
  transfers : Nat

/-- A device between two calls. -/
def Dongle.idle {P : Type} (dev : Dev) (chips : Chips P) (usb : Nat → UsbAnswer) : Dongle P :=
  { bus := { cs_mutex := 0, i2c_repeater_on := false, repeater := false }
    dev := dev
    chips := chips
    usb := usb
    transfers := 0 }

inductive Instr (P : Type) where
  | lock
  | unlock
  | repeaterOn
  | setRepeaterOn (on : Bool)
  | demod_write_reg (page : UInt8) (addr val : UInt16) (len : UInt8)
  | read_reg (block : UInt8) (addr : UInt16)
  | write_reg (block : UInt8) (addr val : UInt16)
  | i2c_write (addr : UInt8) (buffer : Bytes)
  | i2c_read (addr : UInt8) (len : Int32)
  | getDev
  | setDev (dev : Dev)
  | getChips
  | setChips (chips : Chips P)

namespace Instr

variable {P : Type}

@[reducible] def Answer : Instr P → Type
  | repeaterOn => Bool
  | demod_write_reg .. => Int32
  | read_reg .. => UInt16
  | write_reg .. => Int32
  | i2c_write .. => Int32
  | i2c_read .. => Int32 × Bytes
  | getDev => Dev
  | getChips => Chips P
  | _ => Unit

def IsTransfer : Instr P → Prop
  | i2c_write .. => True
  | i2c_read .. => True
  | _ => False

end Instr

/-- A call that calls itself deeper than any call does. -/
inductive Stuck where
  | tooDeep

abbrev Prog (P : Type) := Program (Instr P) Instr.Answer Stuck

namespace Dongle

variable {P : Type}

def transfer (s : Dongle P) : UsbAnswer × Dongle P :=
  (s.usb s.transfers, { s with transfers := s.transfers + 1 })

/-- A register is written if the transfer gives back the length. A register is read behind it, and
what comes back is not looked at. -/
def demod_write_reg (s : Dongle P) (page : UInt8) (addr val : UInt16) (len : UInt8) :
    Int32 × Dongle P :=
  let (answer, s) := s.transfer
  let (_, s) := s.transfer
  if answer.r = Int32.ofNat len.toNat then
    if page = 1 ∧ addr = 0x01 then
      (0, { s with bus := { s.bus with repeater := decide (val &&& 0x08 ≠ 0) } })
    else (0, s)
  else (-1, s)

def serve : Program.Machine (Instr P) Instr.Answer Stuck (Dongle P)
  | .lock, s => (.ok (), { s with bus := { s.bus with cs_mutex := s.bus.cs_mutex + 1 } })
  | .unlock, s => (.ok (), { s with bus := { s.bus with cs_mutex := s.bus.cs_mutex - 1 } })
  | .repeaterOn, s => (.ok s.bus.i2c_repeater_on, s)
  | .setRepeaterOn on, s => (.ok (), { s with bus := { s.bus with i2c_repeater_on := on } })
  | .demod_write_reg page addr val len, s =>
    let (r, s) := s.demod_write_reg page addr val len
    (.ok r, s)
  | .read_reg _ _, s =>
    let (answer, s) := s.transfer
    (.ok (UInt16.ofNat (ofLE answer.data)), s)
  | .write_reg _ _ _, s =>
    let (answer, s) := s.transfer
    (.ok answer.r, s)
  | .i2c_write _ _, s =>
    let (answer, s) := s.transfer
    (.ok answer.r, s)
  | .i2c_read _ _, s =>
    let (answer, s) := s.transfer
    (.ok (answer.r, answer.data), s)
  | .getDev, s => (.ok s.dev, s)
  | .setDev dev, s => (.ok (), { s with dev := dev })
  | .getChips, s => (.ok s.chips, s)
  | .setChips chips, s => (.ok (), { s with chips := chips })

end Dongle

section Calls

variable {P : Type}

def issue (i : Instr P) : Prog P i.Answer := Program.call i

def lock : Prog P Unit := issue .lock

def unlock : Prog P Unit := issue .unlock

def repeaterOn : Prog P Bool := issue .repeaterOn

def setRepeaterOn (on : Bool) : Prog P Unit := issue (.setRepeaterOn on)

def demod_write_reg (page : UInt8) (addr val : UInt16) (len : UInt8) : Prog P Int32 :=
  issue (.demod_write_reg page addr val len)

def read_reg (block : UInt8) (addr : UInt16) : Prog P UInt16 := issue (.read_reg block addr)

def write_reg (block : UInt8) (addr val : UInt16) : Prog P Int32 :=
  issue (.write_reg block addr val)

def getDev : Prog P Dev := issue .getDev

def setDev (dev : Dev) : Prog P Unit := issue (.setDev dev)

def modifyDev (f : Dev → Dev) : Prog P Unit := do
  let dev ← getDev
  setDev (f dev)

def getChips : Prog P (Chips P) := issue .getChips

def setChips (chips : Chips P) : Prog P Unit := issue (.setChips chips)

def modifyChips (f : Chips P → Chips P) : Prog P Unit := do
  let chips ← getChips
  setChips (f chips)

end Calls

/-- What a driver can do: `rtlsdr_i2c_write_fn`, `rtlsdr_i2c_read_fn`, `rtlsdr_get_tuner_clock`,
and its own state. -/
inductive ChipInstr (P : Type) where
  | i2c_write (addr : UInt8) (buffer : Bytes)
  | i2c_read (addr : UInt8) (len : Int32)
  | get_tuner_clock
  | load
  | store (chips : Chips P)

@[reducible] def ChipInstr.Answer {P : Type} : ChipInstr P → Type
  | i2c_write .. => Int32
  | i2c_read .. => Int32 × Bytes
  | get_tuner_clock => UInt32
  | load => Chips P
  | store _ => Unit

abbrev Driver (P : Type) := Program (ChipInstr P) ChipInstr.Answer Empty

instance {P α : Type} [Inhabited α] : Inhabited (Driver P α) := ⟨.ret default⟩

def ask {P : Type} (i : ChipInstr P) : Driver P i.Answer := Program.call i

/-- The drivers of the chips, and the computations in doubles, whose results go into registers
and frequencies. -/
structure Parts (P : Type) where
  /-- `APPLY_PPM_CORR(val, ppm)` -/
  apply_ppm_corr : UInt32 → Int32 → UInt32
  /-- `((freq * TWO_POW(22)) / rtl_xtal) * (-1)` -/
  if_freq : UInt32 → UInt32 → Int32
  /-- `ppm * (-1) * TWO_POW(24) / 1000000` -/
  ppm_offs : Int32 → Int16
  /-- `(rtl_xtal * TWO_POW(22)) / samp_rate` -/
  rsamp_ratio : UInt32 → UInt32 → UInt32
  /-- `(rtl_xtal * TWO_POW(22)) / real_rsamp_ratio` -/
  real_rate : UInt32 → UInt32 → UInt32
  /-- `parseFreq`, rounded to `uint64_t`, rounded to `int32_t` and cut to `uint32_t`. -/
  parse_uint64 : Bytes → UInt64
  parse_int32 : Bytes → Int32
  parse_uint32 : Bytes → UInt32
  e4k_init : Driver P Int32
  e4k_standby : Int32 → Driver P Int32
  e4k_tune_freq : UInt32 → Driver P Int32
  e4k_if_filter_bw_set : Nat → UInt32 → Driver P Int32
  e4k_set_lna_gain : Int32 → Driver P Int32
  e4k_mixer_gain_set : Int8 → Driver P Int32
  e4k_if_gain_set : UInt8 → Int8 → Driver P Int32
  e4k_enable_manual_gain : UInt8 → Driver P Int32
  fc0012_init : Driver P Int32
  fc0012_set_params : UInt32 → UInt32 → Driver P Int32
  fc0012_set_gain : Int32 → Driver P Int32
  fc0012_set_i2c_register : UInt32 → UInt32 → Driver P Int32
  fc0012_get_i2c_register : Int32 → Driver P (Int32 × Bytes)
  fc0013_init : Driver P Int32
  fc0013_set_params : UInt32 → UInt32 → Driver P Int32
  fc0013_set_lna_gain : Int32 → Driver P Int32
  fc2580_Initialize : Driver P Int32
  fc2580_SetRfFreqHz : UInt32 → Driver P Int32
  fc2580_SetBandwidthMode : Int32 → Driver P Int32
  r82xx_init : Driver P Int32
  r82xx_standby : Driver P Int32
  r82xx_set_freq64 : UInt64 → Driver P Int32
  /-- `*applied_bw` of `r82xx_set_bandwidth`, which depends on the bandwidth alone. -/
  r82xx_applied_bw : Int32 → UInt32
  /-- The part of `r82xx_set_bandwidth` that applies the bandwidth. -/
  r82xx_apply_bandwidth : Int32 → UInt32 → Driver P Int32
  /-- `r82xx_set_gain` and `*rtl_vga_control`. -/
  r82xx_set_gain : (set_manual_gain gain extended_mode lna_gain mixer_gain vga_gain : Int32) →
    Driver P (Int32 × Int32)
  r82xx_set_if_mode : Int32 → Driver P (Int32 × Int32)
  r82xx_set_i2c_register : (i2c_register data mask : UInt32) → Driver P Int32
  r82xx_set_i2c_override : (i2c_register data mask : UInt32) → Driver P Int32
  r82xx_get_i2c_register : Int32 → Driver P (Int32 × Bytes)
  r82xx_set_sideband : Int32 → Driver P Int32
  r82xx_is_tuner_locked : Driver P Int32
deriving Inhabited

section Drivers

variable {P : Type} (parts : Parts P)

/-- `rtlsdr_get_xtal_freq`, which succeeds for every device. -/
def xtal_freqs (dev : Dev) : UInt32 × UInt32 :=
  (parts.apply_ppm_corr dev.rtl_xtal dev.corr, parts.apply_ppm_corr dev.tun_xtal dev.corr)

def chipInstr : (i : ChipInstr P) → Prog P i.Answer
  | .i2c_write addr buffer => issue (.i2c_write addr buffer)
  | .i2c_read addr len => issue (.i2c_read addr len)
  | .get_tuner_clock => do
    let dev ← getDev
    return (xtal_freqs parts dev).2
  | .load => getChips
  | .store chips => setChips chips

def drive {α : Type} (driver : Driver P α) : Prog P α := driver.interpret (chipInstr parts)

end Drivers

end Soapy.Rtl.Tuner
