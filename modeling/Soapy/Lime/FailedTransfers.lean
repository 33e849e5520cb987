import Soapy.Lime.FpgaRegisters
import Soapy.Lime.LMS7002M

/-! # Register caches and transfers that fail

A transfer that fails changes nothing on the device, but the caches have been changed for
it by then. From then on its registers are in doubt, until a transfer for them is done.
As long as a cache does not stand for a register in doubt, what the calls return is true
of the device. Both devices may change those of their registers that are theirs to change.
-/

namespace Soapy.Lime

open Lib

inductive LmsAction where
  | write (writes : List (UInt16 × UInt16)) (toChip : Bool) (transfer : Int)
  | read (address : UInt16) (fromChip : Bool) (transfer : Int)
  | readBatch (addresses : List UInt16) (transfer : Int)
  | drift (chip : Chip)

structure LmsSession where
  lms : LMS7002M
  doubt : Set Cell

namespace LmsSession

inductive Step : LmsSession → LmsAction → LmsSession → Prop
  /-- The call returned zero. -/
  | written {s : LmsSession} {writes toChip transfer}
      (done : (s.lms.spiWriteBatch writes toChip transfer).1 = 0) :
      Step s (.write writes toChip transfer)
        ⟨(s.lms.spiWriteBatch writes toChip transfer).2,
          s.doubt \ touched s.lms.mRegistersMap.mac writes⟩
  | notWritten {s : LmsSession} {writes toChip transfer}
      (failed : (s.lms.spiWriteBatch writes toChip transfer).1 ≠ 0) :
      Step s (.write writes toChip transfer)
        ⟨(s.lms.spiWriteBatch writes toChip transfer).2,
          s.doubt ∪ touched s.lms.mRegistersMap.mac writes⟩
  | read {s : LmsSession} {address fromChip} (asks : s.lms.asksChip address fromChip) :
      Step s (.read address fromChip 0)
        ⟨(s.lms.spiRead address fromChip 0).2.2,
          s.doubt \ LMS7002M.meant s.lms.mRegistersMap.mac [address]⟩
  | notRead {s : LmsSession} {address fromChip transfer}
      (vain : ¬ s.lms.asksChip address fromChip ∨ transfer ≠ 0) :
      Step s (.read address fromChip transfer)
        ⟨(s.lms.spiRead address fromChip transfer).2.2, s.doubt⟩
  | readBatch {s : LmsSession} {addresses} :
      Step s (.readBatch addresses 0)
        ⟨(s.lms.spiReadBatch addresses 0).2.2,
          s.doubt \ LMS7002M.meant s.lms.mRegistersMap.mac addresses⟩
  | notReadBatch {s : LmsSession} {addresses transfer} (failed : transfer ≠ 0) :
      Step s (.readBatch addresses transfer)
        ⟨(s.lms.spiReadBatch addresses transfer).2.2, s.doubt⟩
  | drift {s : LmsSession} {chip} : Step s (.drift chip) ⟨{ s.lms with chip := chip }, s.doubt⟩

structure Cached (s : LmsSession) (address : UInt16) : Prop where
  plain : Plain address
  settled : macCell ∉ s.doubt ∨ address < 0x0100
  known : LMS7002M.consulted s.lms.mRegistersMap.mac address ∉ s.doubt

def Allowed (s : LmsSession) : LmsAction → Prop
  | .write writes toChip _ => ∀ w ∈ writes,
      Batch.Sendable s.lms.mRegistersMap s.doubt (toChip || !s.lms.useCache) w
  | .read address fromChip transfer =>
    (s.lms.asksChip address fromChip → transfer = 0 → s.lms.Readable s.doubt address) ∧
      (¬ s.lms.asksChip address fromChip → s.Cached address)
  | .readBatch addresses transfer => transfer = 0 → ∀ a ∈ addresses, s.lms.Readable s.doubt a
  | .drift chip => ∀ c, Cell.Plain c → chip.cell c = s.lms.chip.cell c

variable {s s' : LmsSession} {action : LmsAction}

end LmsSession

inductive FpgaAction where
  | write (writes : List (UInt32 × UInt32)) (transfer : Int)
  | read (addrs : List UInt32) (transfer : Transfer)
  | drift (device : UInt32 → UInt32)

/-- The cache and the registers in doubt. -/
structure FpgaSession where
  fpga : FPGA
  doubt : Set UInt32

namespace FpgaSession

inductive Step : FpgaSession → FpgaAction → FpgaSession → Prop
  | written {s : FpgaSession} {writes transfer} (done : (s.fpga.writeRegisters writes transfer).1 = 0) :
      Step s (.write writes transfer)
        ⟨(s.fpga.writeRegisters writes transfer).2, s.doubt \ FPGA.touched writes⟩
  | notWritten {s : FpgaSession} {writes transfer}
      (failed : (s.fpga.writeRegisters writes transfer).1 ≠ 0) :
      Step s (.write writes transfer)
        ⟨(s.fpga.writeRegisters writes transfer).2, s.doubt ∪ FPGA.touched writes⟩
  | read {s : FpgaSession} {addrs} {transfer : Transfer}
      (done : transfer.status = 0 ∨ s.fpga.asked addrs = []) :
      Step s (.read addrs transfer)
        ⟨(s.fpga.readRegisters addrs transfer).2.2, s.doubt \ {a | a ∈ s.fpga.asked addrs}⟩
  | notRead {s : FpgaSession} {addrs} {transfer : Transfer}
      (failed : transfer.status ≠ 0 ∧ s.fpga.asked addrs ≠ []) :
      Step s (.read addrs transfer) ⟨(s.fpga.readRegisters addrs transfer).2.2, s.doubt⟩
  | drift {s : FpgaSession} {device} :
      Step s (.drift device)
        ⟨{ s.fpga with device := device }, s.doubt ∪ {a | device a ≠ s.fpga.device a}⟩

/-- The cache is not relied on for a register in doubt, and a read that fails says so by a
    negative result. -/
def Allowed (s : FpgaSession) : FpgaAction → Prop
  | .write writes _ => ∀ w ∈ FPGA.writable writes, FPGA.Pending.Sendable s.fpga.regsCache s.doubt w
  | .read addrs transfer =>
    (∀ a ∈ addrs, a ∈ s.doubt → a ∈ s.fpga.asked addrs) ∧
      (transfer.status ≤ 0 ∨ s.fpga.asked addrs = [])
  | .drift device => ∀ a, a ∉ FPGA.volatileRegs → device a = s.fpga.device a

structure Inv (s : FpgaSession) : Prop where
  cached : s.fpga.useCache
  knows : FPGA.Knows s.fpga.regsCache s.doubt s.fpga.device

variable {s s' : FpgaSession} {action : FpgaAction}

theorem Inv.step (inv : s.Inv) (allowed : s.Allowed action) (step : s.Step action s') : s'.Inv := by
  cases step with
  | written done =>
    obtain ⟨cached, sent, _⟩ := FPGA.writeRegisters_knows inv.cached inv.knows allowed _
    exact ⟨cached, (sent done).2⟩
  | notWritten failed =>
    obtain ⟨cached, _, kept⟩ := FPGA.writeRegisters_knows inv.cached inv.knows allowed _
    exact ⟨cached, kept failed⟩
  | read done =>
    obtain ⟨_, _, cached, device, knows⟩ :=
      FPGA.readRegisters_knows inv.cached inv.knows allowed.1 done
    exact ⟨cached, device ▸ knows⟩
  | @notRead addrs transfer failed =>
    have negative : transfer.status < 0 := by
      have reported := allowed.2.resolve_right failed.2
      have other := failed.1
      omega
    rw [FPGA.readRegisters_failed inv.cached failed.2 negative]
    exact inv
  | drift =>
    refine ⟨inv.cached, ?_⟩
    intro a v stored known
    rw [Set.mem_union, not_or] at known
    exact (not_not.mp known.2).trans (inv.knows a v stored known.1)

end FpgaSession

end Soapy.Lime
