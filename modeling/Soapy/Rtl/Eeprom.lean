import Soapy.Lib.Memory

/-! # Writes to the EEPROM

The EEPROM hangs on the I2C bus, and has a pointer to the byte that is read next. A transfer that
fails does nothing and gives an error.
-/

namespace Soapy.Rtl

open Lib

/-- Its 256 bytes, and how many transfers there were. -/
structure Eeprom where
  mem : Memory
  pointer : UInt8
  transfers : Nat

/-- The transfers that fail, with an error code: `some n` stands for `-(n + 1)`. -/
abbrev Transfers := Nat → Option Nat

namespace Eeprom

def receive (e : Eeprom) (array : Bytes) : Eeprom :=
  match array with
  | [] => e
  | address :: bytes =>
    { e with
      mem := e.mem.store address.toNat bytes
      pointer := address + UInt8.ofNat bytes.length }

def next (e : Eeprom) : Eeprom := { e with transfers := e.transfers + 1 }

/-- `rtlsdr_write_array` with `IICB` and `EEPROM_ADDR`. -/
def write_array (usb : Transfers) (e : Eeprom) (array : Bytes) : Int × Eeprom :=
  match usb e.transfers with
  | none => (array.length, (e.receive array).next)
  | some code => (-(code + 1), e.next)

/-- `rtlsdr_read_array` of one byte, which is left as it was if the transfer fails. -/
def read_array (usb : Transfers) (e : Eeprom) (byte : UInt8) : Int × UInt8 × Eeprom :=
  match usb e.transfers with
  | none => (1, e.mem e.pointer.toNat, { e with pointer := e.pointer + 1 }.next)
  | some code => (-(code + 1), byte, e.next)

/-- The loop of `rtlsdr_write_eeprom`, where `place` is `i + offset`; `cmd1` is what `cmd[1]` has
from the byte before. -/
def write_bytes (usb : Transfers) (e : Eeprom) (place : Nat) (cmd1 : UInt8) : Bytes → Int × Eeprom
  | [] => (0, e)
  | value :: data =>
    let cmd0 := UInt8.ofNat place
    let (_, e) := write_array usb e [cmd0]
    let (_, cmd1, e) := read_array usb e cmd1
    if cmd1 = value then write_bytes usb e (place + 1) cmd1 data
    else
      let (r, e) := write_array usb e [cmd0, value]
      if r ≠ 2 then (-3, e) else write_bytes usb e (place + 1) value data

def write_eeprom (usb : Transfers) (e : Eeprom) (data : Bytes) (offset cmd1 : UInt8) :
    Int × Eeprom :=
  if data.length + offset.toNat > 256 then (-2, e) else write_bytes usb e offset.toNat cmd1 data

/-- The loop of `rtlsdr_read_eeprom`, with the bytes that were read. -/
def read_bytes (usb : Transfers) (e : Eeprom) (r : Int) : Nat → Int × Bytes × Eeprom
  | 0 => (r, [], e)
  | len + 1 =>
    let (r, byte, e) := read_array usb e 0
    if r < 0 then (-3, [], e)
    else
      let (r, bytes, e) := read_bytes usb e r len
      (r, byte :: bytes, e)

def read_eeprom (usb : Transfers) (e : Eeprom) (offset : UInt8) (len : Nat) :
    Int × Bytes × Eeprom :=
  if len + offset.toNat > 256 then (-2, [], e)
  else
    let (r, e) := write_array usb e [offset]
    if r < 0 then (-3, [], e) else read_bytes usb e r len

/-- What `cmd[1]` has when it is compared. -/
def seen (usb : Transfers) (e : Eeprom) (place : Nat) (cmd1 : UInt8) : UInt8 × Eeprom :=
  (read_array usb (write_array usb e [UInt8.ofNat place]).2 cmd1).2

def sent (usb : Transfers) (e : Eeprom) (place : Nat) (cmd1 value : UInt8) : Int × Eeprom :=
  write_array usb (seen usb e place cmd1).2 [UInt8.ofNat place, value]

variable {usb : Transfers} {e : Eeprom} {place : Nat} {cmd1 : UInt8} {data : Bytes}

def erased : Eeprom := ⟨fun _ => 0xff, 0, 0⟩

end Eeprom

end Soapy.Rtl
