import Soapy.Lime.Session
import Soapy.Lime.RegisterMapBackup

/-! # Upload, download and the check whether they are needed

Each routine goes through the registers of channel A and then through those of channel B, which is
chosen before its transfers, and restores the channel at the end.
-/

namespace Soapy.Lime

open Lib

/-- The keys of the maps. The constructor sets the register with the MAC bits, and no key of channel
B is below 0x0100. -/
structure Keys extends UsedAddresses where
  mac : toUsedAddresses.has macCell = true
  high : ∀ a, toUsedAddresses.has (.b, a) = true → ¬ a < 0x0100
  small : ∀ c, toUsedAddresses.has c = true → c.2 < 0x8000

def Keys.ofChannel (keys : Keys) (channel : Nat) : List UInt16 := keys.get channel

namespace Session

def readOnlyRegisters : List (UInt16 × UInt16) :=
  [(0x002F, 0x0000), (0x008C, 0x0FFF), (0x00A8, 0x007F), (0x00A9, 0x0000), (0x00AA, 0x0000),
    (0x00AB, 0x0000), (0x00AC, 0x0000), (0x0123, 0x003F), (0x0209, 0x0000), (0x020A, 0x0000),
    (0x020B, 0x0000), (0x040E, 0x0000), (0x040F, 0x0000)]

/-- `readOnlyRegistersMasks`. The table is sorted. -/
def writableMask (address : UInt16) : UInt16 :=
  if address ≤ 0x040F ∧ 0x002F ≤ address then
    ((readOnlyRegisters.find? fun entry => entry.1 == address).map Prod.snd).getD 0xFFFF
  else 0xFFFF

def getValue (channel : Nat) (address : UInt16) : LmsM UInt16 := fun b =>
  (b.lms.mRegistersMap.getValue channel address, b)

def getValues (channel : Nat) (addresses : List UInt16) : LmsM (List (UInt16 × UInt16)) := fun b =>
  (addresses.map fun address => (address, b.lms.mRegistersMap.getValue channel address), b)

def setValues (channel : Nat) (values : List (UInt16 × UInt16)) : LmsM Unit :=
  modify fun b => { b with
    lms := { b.lms with
      mRegistersMap := values.foldl (fun m v => m.setValue channel v.1 v.2) b.lms.mRegistersMap } }

/-- `ReadLMS7002MSPI`, which does not look at the map. -/
def readLMS7002MSPI (addresses : List UInt16) : LmsM (Int × List UInt16) :=
  transfer fun lms result => ((result, if result = 0 then lms.received addresses else []), lms)

def matches_ (copy : List (UInt16 × UInt16)) (received : List UInt16) : Bool :=
  (copy.zip received).all fun (value, data) =>
    value.2 &&& writableMask value.1 == data &&& writableMask value.1

def isSynced (keys : Keys) : LmsM Bool := do
  let ch ← getActiveChannel true
  setActiveChannel ChA
  let (status, received) ← readLMS7002MSPI (keys.ofChannel 0)
  let copy ← getValues 0 (keys.ofChannel 0)
  if status ≠ 0 ∨ matches_ copy received = false then
    setActiveChannel ch
    return false
  else
    let (status, received) ← readLMS7002MSPI (keys.ofChannel 1)
    if status ≠ 0 then
      setActiveChannel ch
      return false
    else
      setActiveChannel ChB
      let copy ← getValues 1 (keys.ofChannel 1)
      setActiveChannel ch
      return matches_ copy received

def uploadAll (keys : Keys) : LmsM Int := do
  let ch ← getActiveChannel true
  let x0020_value ← getValue 0 macAddress
  setActiveChannel ChA
  let toWrite ← getValues 0 ((keys.ofChannel 0).erase macAddress)
  let status ← spiWriteBatch toWrite true
  if status ≠ 0 then return status
  else
    let status ← spiWrite macAddress x0020_value
    if status ≠ 0 then return status
    else
      setActiveChannel ChB
      let toWrite ← getValues 1 (keys.ofChannel 1)
      setActiveChannel ChB
      let status ← spiWriteBatch toWrite true
      if status ≠ 0 then return status
      else
        setActiveChannel ch
        return 0

def downloadAll (keys : Keys) : LmsM Int := do
  let ch ← getActiveChannel false
  setActiveChannel ChA
  let (status, received) ← spiReadBatch (keys.ofChannel 0)
  if status ≠ 0 then return status
  else
    setValues 0 ((keys.ofChannel 0).zip received)
    setActiveChannel ChB
    let (status, received) ← spiReadBatch (keys.ofChannel 1)
    if status ≠ 0 then return status
    else
      setValues 1 ((keys.ofChannel 1).zip received)
      setActiveChannel ch
      return 0

end Session

end Soapy.Lime
