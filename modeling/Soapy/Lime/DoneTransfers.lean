import Soapy.Lime.Session

/-! # When every transfer is done

The connection leaves the chip alone and never fails. The calls are then those of the driver, one
after the other.
-/

namespace Soapy.Lime

open Lib

namespace LMS7002M

theorem replaceBits_low (register ch : UInt16) :
    replaceBits register 1 0 ch = (register &&& ~~~0x0003) ||| (ch &&& 0x0003) := by
  unfold replaceBits
  apply UInt16.toBitVec_inj.mp
  ext i inside
  simp

theorem replaceBits_again (register ch ch' : UInt16) :
    replaceBits (replaceBits register 1 0 ch) 1 0 ch' = replaceBits register 1 0 ch' := by
  rw [replaceBits_low, replaceBits_low, replaceBits_low]
  apply UInt16.toBitVec_inj.mp
  ext i inside
  simp
  interval_cases i <;> simp

theorem replaceBits_same (register : UInt16) :
    replaceBits register 1 0 (register &&& 0x0003) = register := by
  rw [replaceBits_low]
  apply UInt16.toBitVec_inj.mp
  ext i inside
  simp
  interval_cases i <;> simp

theorem spiWriteBatch_status (s : LMS7002M) (writes : List (UInt16 × UInt16)) (toChip : Bool) :
    (s.spiWriteBatch writes toChip 0).1 = 0 := by
  unfold spiWriteBatch
  by_cases nothing : (s.gather writes toChip).data = []
  · simp [nothing]
  · simp [nothing]

end LMS7002M

namespace Session

def Done (b : Session) : Prop := b.answers = fun _ => doneAnswer

def on (b : Session) (lms : LMS7002M) : Session := { b with lms := lms }

variable {b : Session}

section

variable (done : b.Done)
include done

theorem Done.on (lms : LMS7002M) : (b.on lms).Done := done

omit done in
@[simp] theorem on_lms (b : Session) (lms : LMS7002M) : (b.on lms).lms = lms := rfl

omit done in
@[simp] theorem on_on (b : Session) (lms lms' : LMS7002M) : (b.on lms).on lms' = b.on lms' := rfl

theorem transfer_done {α : Type} (call : LMS7002M → Int → α × LMS7002M) :
    transfer call b = ((call b.lms 0).1, b.on (call b.lms 0).2) := by
  obtain ⟨lms, answers, clock, cache⟩ := b
  cases done
  rfl

theorem spiRead_done (address : UInt16) (fromChip : Bool) :
    spiRead address fromChip b = ((b.lms.spiRead address fromChip 0).1,
      b.on (b.lms.spiRead address fromChip 0).2.2) :=
  transfer_done done _

theorem spiWrite_done (address data : UInt16) :
    spiWrite address data b = (0, b.on (b.lms.spiWrite address data false 0).2) := by
  have status : (b.lms.spiWrite address data false 0).1 = 0 := b.lms.spiWriteBatch_status _ _
  rw [spiWrite, transfer_done done, status]

theorem spiWriteBatch_done (writes : List (UInt16 × UInt16)) (toChip : Bool) :
    spiWriteBatch writes toChip b = (0, b.on (b.lms.spiWriteBatch writes toChip 0).2) := by
  rw [spiWriteBatch, transfer_done done, b.lms.spiWriteBatch_status]

theorem spiReadBatch_done (addresses : List UInt16) :
    spiReadBatch addresses b = ((0, b.lms.received addresses),
      b.on (b.lms.refresh (addresses.zip (b.lms.received addresses)))) :=
  transfer_done done _

theorem getBits_done (p : Parameter) (fromChip : Bool) :
    getBits p fromChip b = (bitsOf (b.lms.spiRead p.address fromChip 0).1 p.msb p.lsb,
      b.on (b.lms.spiRead p.address fromChip 0).2.2) := by
  rw [getBits, bind_run, spiRead_done done]
  rfl

theorem modifyBits_done (p : Parameter) (value : UInt16) :
    modifyBits p value b =
      (0, b.on (b.lms.modifySpiRegBits p.address p.msb p.lsb value false 0 0).2) := by
  rw [modifyBits, bind_run, spiRead_done done, spiWrite_done (done.on _)]
  rfl

theorem getActiveChannel_done (fromChip : Bool) :
    getActiveChannel fromChip b =
      ((b.lms.getActiveChannel fromChip).1, b.on (b.lms.getActiveChannel fromChip).2) :=
  getBits_done done MAC fromChip

theorem setActiveChannel_done (ch : UInt16) :
    setActiveChannel ch b = ((), b.on (b.lms.setActiveChannel ch)) := by
  rw [setActiveChannel, bind_run, getActiveChannel_done done, LMS7002M.setActiveChannel]
  by_cases active : ch = (b.lms.getActiveChannel false).1
  · simp only [if_pos active]
    rfl
  · simp only [if_neg active, bind_run]
    rw [modifyBits_done (done.on _)]
    rfl

end

end Session

end Soapy.Lime
