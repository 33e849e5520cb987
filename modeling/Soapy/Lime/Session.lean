import Soapy.Lib.Moves
import Soapy.Lime.ActiveChannel

/-! # The LMS7002M behind a connection that answers as it likes

The routines of the driver are sequences of single writes and reads. Each of these finds the chip
as the connection lets it, and the connection says whether the transfer was done.
-/

namespace Soapy.Lime

open Lib

/-- What a transfer finds in place of the chip, and its result. -/
abbrev Answer := Chip → Chip × Int

def doneAnswer : Answer := fun chip => (chip, 0)

/-- The driver, with the answers of the connection to come. -/
structure Session where
  lms : LMS7002M
  answers : Nat → Answer
  _cachedRefClockRate : Rat
  /-- Where a frequency was tuned to before: the VCO, and its `csw_value`. -/
  tuning_cache : Rat → Option (UInt16 × Int)

abbrev LmsM := StateM Session

/-- Each call has an answer, although one that is served from the cache does not look at it. -/
def transfer {α : Type} (call : LMS7002M → Int → α × LMS7002M) : LmsM α := fun b =>
  let (chip, result) := b.answers 0 b.lms.chip
  let (a, lms) := call { b.lms with chip := chip } result
  (a, { b with lms := lms, answers := fun n => b.answers (n + 1) })

/-- `LMS7Parameter` -/
structure Parameter where
  address : UInt16
  msb : UInt8
  lsb : UInt8

namespace Session

def spiWriteBatch (writes : List (UInt16 × UInt16)) (toChip : Bool) : LmsM Int :=
  transfer fun lms result => lms.spiWriteBatch writes toChip result

def spiReadBatch (addresses : List UInt16) : LmsM (Int × List UInt16) :=
  transfer fun lms result =>
    let (status, values, lms) := lms.spiReadBatch addresses result
    ((status, values), lms)

def spiWrite (address data : UInt16) : LmsM Int :=
  transfer fun lms result => lms.spiWrite address data false result

def spiRead (address : UInt16) (fromChip : Bool) : LmsM UInt16 :=
  transfer fun lms result =>
    let (value, _, lms) := lms.spiRead address fromChip result
    (value, lms)

/-- The bits of a register from `lsb` to `msb`. -/
def bitsOf (register : UInt16) (msb lsb : UInt8) : UInt16 :=
  ((register.toUInt32 &&& ~~~(~~~(0 : UInt32) <<< (msb + 1).toUInt32)) >>> lsb.toUInt32).toUInt16

/-- `Get_SPI_Reg_bits` -/
def getBits (p : Parameter) (fromChip : Bool) : LmsM UInt16 := do
  let register ← spiRead p.address fromChip
  return bitsOf register p.msb p.lsb

/-- `Modify_SPI_Reg_bits` -/
def modifyBits (p : Parameter) (value : UInt16) : LmsM Int := do
  let register ← spiRead p.address false
  spiWrite p.address (LMS7002M.replaceBits register p.msb p.lsb value)

def MAC : Parameter := ⟨macAddress, 1, 0⟩

def ChA : UInt16 := 1

def ChB : UInt16 := 2

/-- The register space of the receiver's synthesizer, which is that of channel A. -/
def ChSXR : UInt16 := 1

def ChSXT : UInt16 := 2

def getActiveChannel (fromChip : Bool) : LmsM UInt16 := getBits MAC fromChip

def setActiveChannel (ch : UInt16) : LmsM Unit := do
  let active ← getActiveChannel false
  if ch = active then return ()
  else
    let _ ← modifyBits MAC ch
    return ()

end Session

end Soapy.Lime
