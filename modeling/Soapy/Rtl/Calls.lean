import Soapy.Rtl.MsgWire

/-! # The calls of librtlsdr

What the library's functions are given and what they can answer. An answer is whatever
the function returns and stores; a caller of the local function sees just that.
-/

namespace Soapy.Rtl

open Lib

/-- A C string. -/
abbrev Text := { s : Bytes // 0 ∉ s }

/-- A C string in a `char[256]`. -/
abbrev ShortText := { s : Bytes // 0 ∉ s ∧ s.length < 256 }

/-- The functions with their arguments; a pointer is given or `NULL`. -/
inductive Call where
  | get_device_count
  | get_device_name (index : UInt32)
  | get_device_usb_strings (index : UInt32) (manufact product serial : Bool)
  | get_index_by_serial (serial : Option Text)
  | open (index : UInt32)
  | close
  | set_xtal_freq (rtl_freq tuner_freq : UInt32)
  | get_xtal_freq (rtl_freq tuner_freq : Bool)
  | get_usb_strings (manufact product serial : Bool)
  | set_center_freq (freq : UInt32)
  | get_center_freq
  | set_freq_correction (ppm : Int32)
  | get_freq_correction
  | get_tuner_type
  | get_tuner_gains (gains : Bool)
  | set_tuner_gain (gain : Int32)
  | set_and_get_tuner_bandwidth (bw : UInt32) (apply_bw : Int32)
  | get_tuner_gain
  | set_tuner_if_gain (stage gain : Int32)
  | set_tuner_gain_mode (manual : Int32)
  | set_sample_rate (rate : UInt32)
  | get_sample_rate
  | set_testmode (on : Int32)
  | set_agc_mode (on : Int32)
  | set_direct_sampling (on : Int32)
  | get_direct_sampling
  | set_offset_tuning (on : Int32)
  | get_offset_tuning
  | reset_buffer
  | read_sync (len : Int32)

/-- The functions that take a device. -/
def Call.OnDevice : Call → Bool
  | .get_device_count | .get_device_name _ | .get_device_usb_strings .. | .get_index_by_serial _
  | .open _ => false
  | _ => true

/-- Three strings: on success all are stored, on an error any of them. -/
structure StringsAnswer where
  ret : Int32
  manufact : Option ShortText
  product : Option ShortText
  serial : Option ShortText
  told : ret = 0 → manufact.isSome ∧ product.isSome ∧ serial.isSome

structure XtalAnswer where
  ret : Int32
  rtl_freq : Option UInt32
  tuner_freq : Option UInt32
  told : ret = 0 → rtl_freq.isSome ∧ tuner_freq.isSome

structure BandwidthAnswer where
  ret : Int32
  applied_bw : Option UInt32
  told : ret = 0 → applied_bw.isSome

/-- As many gains are stored as are returned. -/
structure GainsAnswer where
  ret : Int32
  gains : List Int32
  count : gains.length = ret.toInt.toNat

/-- The bytes stored in a buffer of `len`; on success their number is stored, too. -/
structure ReadAnswer (len : Int32) where
  ret : Int32
  data : Bytes
  n_read : Bool
  fits : data.length ≤ len.toInt.toNat
  told : ret = 0 → n_read = true

/-- What a function returns and stores. -/
def Call.Answer : Call → Type
  | .get_device_count | .get_center_freq | .get_sample_rate => UInt32
  | .get_device_name _ => Option Text
  | .get_device_usb_strings .. | .get_usb_strings .. => StringsAnswer
  | .get_xtal_freq .. => XtalAnswer
  | .set_and_get_tuner_bandwidth .. => BandwidthAnswer
  | .get_tuner_gains _ => GainsAnswer
  | .read_sync len => ReadAnswer len
  | _ => Int32

abbrev Behaviour := (c : Call) → c.Answer

/-- A library in which every function returns 0 and stores zeros. -/
def Behaviour.zeros : Behaviour
  | .get_device_count | .get_center_freq | .get_sample_rate => (0 : UInt32)
  | .get_device_name _ => (none : Option Text)
  | .get_device_usb_strings .. | .get_usb_strings .. =>
    let empty : ShortText := ⟨[], List.not_mem_nil, Nat.succ_pos _⟩
    (⟨0, some empty, some empty, some empty, fun _ => ⟨rfl, rfl, rfl⟩⟩ : StringsAnswer)
  | .get_xtal_freq .. => (⟨0, some 0, some 0, fun _ => ⟨rfl, rfl⟩⟩ : XtalAnswer)
  | .set_and_get_tuner_bandwidth .. => (⟨0, some 0, fun _ => rfl⟩ : BandwidthAnswer)
  | .get_tuner_gains _ => (⟨0, [], rfl⟩ : GainsAnswer)
  | .read_sync len => (⟨0, [], true, Nat.zero_le _, fun _ => rfl⟩ : ReadAnswer len)
  | .get_index_by_serial _ | .open _ | .close | .set_xtal_freq .. | .set_center_freq _
  | .set_freq_correction _ | .get_freq_correction | .get_tuner_type | .set_tuner_gain _
  | .get_tuner_gain | .set_tuner_if_gain .. | .set_tuner_gain_mode _ | .set_sample_rate _
  | .set_testmode _ | .set_agc_mode _ | .set_direct_sampling _ | .get_direct_sampling
  | .set_offset_tuning _ | .get_offset_tuning | .reset_buffer => (0 : Int32)

inductive Value where
  | int (n : Int32)
  | word (n : UInt32)
  | text (s : Option Bytes)
deriving DecidableEq

/-- What the caller of a function gets: the value it returns and the bytes stored through
    each of the pointers it was given, in the order of the arguments. -/
structure Result where
  ret : Value
  outs : List Bytes
deriving DecidableEq

/-- The bytes of a string with its zero byte, of a word and of a table of gains. -/
def strBytes (s : Bytes) : Bytes := s ++ [0]

def gainBytes (gains : List Int32) : Bytes := gains.flatMap (fun gain => u32 gain.toUInt32)

/-- Nothing is stored through a `NULL`. -/
def stored {α : Type} (given : Bool) (bytes : α → Bytes) (value : Option α) : Bytes :=
  if given then value.elim [] bytes else []

def stringsResult (a : StringsAnswer) (manufact product serial : Bool) : Result :=
  ⟨.int a.ret,
    [stored manufact (fun s => strBytes s.val) a.manufact,
      stored product (fun s => strBytes s.val) a.product,
      stored serial (fun s => strBytes s.val) a.serial]⟩

/-- What a caller of the local function gets. -/
def Call.result : (c : Call) → c.Answer → Result
  | .get_device_count, n | .get_center_freq, n | .get_sample_rate, n => ⟨.word n, []⟩
  | .get_device_name _, s => ⟨.text (s.map Subtype.val), []⟩
  | .get_device_usb_strings _ manufact product serial, a
  | .get_usb_strings manufact product serial, a => stringsResult a manufact product serial
  | .get_xtal_freq rtl_freq tuner_freq, a =>
    ⟨.int a.ret, [stored rtl_freq u32 a.rtl_freq, stored tuner_freq u32 a.tuner_freq]⟩
  | .set_and_get_tuner_bandwidth .., a => ⟨.int a.ret, [stored true u32 a.applied_bw]⟩
  | .get_tuner_gains gains, a => ⟨.int a.ret, [stored gains gainBytes (some a.gains)]⟩
  | .read_sync _, a =>
    ⟨.int a.ret, [a.data, if a.n_read then u32 (UInt32.ofNat a.data.length) else []]⟩
  | .get_index_by_serial _, err | .open _, err | .close, err | .set_xtal_freq .., err
  | .set_center_freq _, err | .set_freq_correction _, err | .get_freq_correction, err
  | .get_tuner_type, err | .set_tuner_gain _, err | .get_tuner_gain, err
  | .set_tuner_if_gain .., err | .set_tuner_gain_mode _, err | .set_sample_rate _, err
  | .set_testmode _, err | .set_agc_mode _, err | .set_direct_sampling _, err
  | .get_direct_sampling, err | .set_offset_tuning _, err | .get_offset_tuning, err
  | .reset_buffer, err => ⟨.int err, []⟩

end Soapy.Rtl
