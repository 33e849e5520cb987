import Soapy.Lime.Synthesizers

/-! # The configuration file of the LMS7002M

`SaveConfig` and `LoadConfig`. The text of the file is left out: it has two sections of registers,
and one with the reference clocks.
-/

namespace Soapy.Lime

open Lib

structure Microcontroller where
  /-- It is asked for its program, and programmed if it has another one. -/
  identify : Chip → Chip
  /-- Procedure 8. -/
  proxyRead : Chip → Chip

/-- What its program does: it is controlled through the registers up to 0x0006, and procedure 8
writes the register that 0x002D names to 0x040B. -/
structure Microcontroller.Follows (mcu : Microcontroller) : Prop where
  identify : ∀ (chip : Chip) (c : Cell), 0x0006 < c.2 → (mcu.identify chip).cell c = chip.cell c
  proxyRead : ∀ (chip : Chip) (c : Cell), 0x0006 < c.2 →
    (mcu.proxyRead chip).cell c = (chip.write 0x040B (chip.read (chip.read 0x002D))).cell c

namespace Session

def MemorySectionAddresses : List (UInt16 × UInt16) :=
  [(0x0020, 0x002F), (0x0081, 0x0081), (0x0082, 0x0082), (0x0084, 0x0084), (0x0085, 0x0085),
    (0x0086, 0x008C), (0x0092, 0x00A7), (0x00A8, 0x00AC), (0x00AD, 0x00AE), (0x0100, 0x0104),
    (0x0105, 0x010B), (0x010C, 0x0114), (0x0115, 0x011A), (0x011C, 0x0124), (0x0125, 0x0126),
    (0x0200, 0x020C), (0x0240, 0x0261), (0x0280, 0x02A7), (0x02C0, 0x02E7), (0x0300, 0x0327),
    (0x0340, 0x0367), (0x0380, 0x03A7), (0x0400, 0x040F), (0x0440, 0x0461), (0x0480, 0x04A7),
    (0x04C0, 0x04E7), (0x0500, 0x0527), (0x0540, 0x0567), (0x0580, 0x05A7), (0x05C0, 0x05CC),
    (0x0600, 0x0606), (0x0640, 0x0641)]

/-- The index of its section. -/
def RSSI_DC_CALIBRATION : Nat := 29

def addressesOf (bounds : UInt16 × UInt16) : List UInt16 :=
  (List.range (bounds.2.toNat - bounds.1.toNat + 1)).map fun i => bounds.1 + UInt16.ofNat i

/-- `addrToRead` for channel A. -/
def addrToReadA : List UInt16 := MemorySectionAddresses.flatMap addressesOf

/-- `addrToRead` for channel B. -/
def addrToReadB : List UInt16 :=
  ((MemorySectionAddresses.eraseIdx RSSI_DC_CALIBRATION).flatMap addressesOf).filter
    fun addr => decide (0x0100 ≤ addr)

/-- The registers of the analog DC correctors. -/
def isCorrector (addr : UInt16) : Bool := 0x05C3 ≤ addr ∧ addr ≤ 0x05CA

def mcuRuns (procedure : Chip → Chip) : LmsM Unit :=
  modify fun b => { b with lms := { b.lms with chip := procedure b.lms.chip } }

/-- `SPI_read` of any register. The chip shows 0x0640 and 0x0641 to the microcontroller only, which
is told in 0x002D what to read, and leaves the value in 0x040B. -/
def spiReadAny (mcu : Microcontroller) (address : UInt16) (fromChip : Bool) : LmsM UInt16 := fun b =>
  if (address = 0x0640 ∨ address = 0x0641) ∧ b.lms.asksChip address fromChip = true then (do
    mcuRuns mcu.identify
    let _ ← spiWrite 0x002D address
    mcuRuns mcu.proxyRead
    spiRead 0x040B true : LmsM UInt16) b
  else spiRead address fromChip b

structure ConfigFile where
  lms7002_registers_a : List (UInt16 × UInt16)
  lms7002_registers_b : List (UInt16 × UInt16)
  sxt_ref_clk_mhz : Rat
  sxr_ref_clk_mhz : Rat

def savedValue (addr value : UInt16) : UInt16 :=
  if 0x05C3 ≤ addr ∧ addr ≤ 0x05C6 ∧ value &&& 0x0400 ≠ 0 then 0x0400 ||| (~~~value &&& 0x03FF)
  else if 0x05C7 ≤ addr ∧ addr ≤ 0x05CA ∧ value &&& 0x0040 ≠ 0 then 0x0040 ||| (~~~value &&& 0x003F)
  else if addr = 0x05C2 then value &&& 0xFF00
  else value

def performReadBack (addr : UInt16) : LmsM Unit :=
  if isCorrector addr then do
    let _ ← spiWrite addr 0x4000
    return ()
  else return ()

def saveA (mcu : Microcontroller) (addr : UInt16) : LmsM (UInt16 × UInt16) := do
  performReadBack addr
  let register ← spiReadAny mcu addr false
  return (addr, savedValue addr (bitsOf register 15 0))

def saveB (mcu : Microcontroller) (addr : UInt16) : LmsM (UInt16 × UInt16) := do
  let register ← spiReadAny mcu addr false
  return (addr, bitsOf register 15 0)

def saveConfig (mcu : Microcontroller) : LmsM ConfigFile := do
  let ch ← getActiveChannel true
  setActiveChannel ChA
  let registers_a ← addrToReadA.mapM (saveA mcu)
  setActiveChannel ChB
  let registers_b ← addrToReadB.mapM (saveB mcu)
  setActiveChannel ch
  let refClk ← getReferenceClkSX
  return ⟨registers_a, registers_b, refClk / 1000000, refClk / 1000000⟩

/-- `addrToWrite` and `dataToWrite` for one key of the first section. -/
def writesOf (pair : UInt16 × UInt16) : List (UInt16 × UInt16) :=
  if pair.1 = macAddress then []
  else if isCorrector pair.1 then [(pair.1, pair.2 &&& 0x3FFF), (pair.1, pair.2 ||| 0x8000)]
  else [pair]

def x0020_value (registers : List (UInt16 × UInt16)) : UInt16 :=
  registers.foldl (fun value pair => if pair.1 = macAddress then pair.2 else value) 0

def resetLogicregisters : LmsM Int := do
  let value ← spiRead 0x0020 false
  let _ ← spiWrite 0x0020 (value &&& 0x55FF)
  spiWrite 0x0020 (value ||| 0xFF00)

def setReferenceClkSX (freq : Rat) : LmsM Unit :=
  modify fun b => { b with _cachedRefClockRate := freq }

/-- The end of `LoadConfig`. -/
def finishLoad (file : ConfigFile) (ch : UInt16) : LmsM Int := do
  setActiveChannel ch
  setReferenceClkSX (file.sxr_ref_clk_mhz * 1000000)
  setReferenceClkSX (file.sxt_ref_clk_mhz * 1000000)
  let _ ← resetLogicregisters
  setActiveChannel ChA
  return 0

/-- `LoadConfig` of a file with both sections, in the order in which the reader has their keys. -/
def loadConfig (file : ConfigFile) : LmsM Int := do
  let ch ← getActiveChannel true
  setActiveChannel ChA
  let status ← spiWriteBatch (file.lms7002_registers_a.flatMap writesOf) true
  if status ≠ 0 then return status
  else
    let status ← spiWrite 0x0020 (x0020_value file.lms7002_registers_a)
    if status ≠ 0 then return status
    else
      setActiveChannel ChB
      setActiveChannel ChB
      let status ← spiWriteBatch file.lms7002_registers_b true
      if status ≠ 0 then return status
      else finishLoad file ch

end Session

end Soapy.Lime
