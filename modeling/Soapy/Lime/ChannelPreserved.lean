import Soapy.Lime.EnableChannel
import Soapy.Lime.Synchronization
import Soapy.Lime.SynthesizerMoves

/-! # Which routines give the active channel back

A routine asks for the active channel first and selects it again at the end. In between the MAC bits
of the map may have any value, so it depends on the first read and on the ways out.
-/

namespace Soapy.Lime

open Lib

namespace LMS7002M

variable {s : LMS7002M} {address : UInt16} {transfer : Int}

theorem spiWriteBatch_map (s : LMS7002M) (writes : List (UInt16 × UInt16)) (toChip : Bool)
    (transfer : Int) :
    (s.spiWriteBatch writes toChip transfer).2.mRegistersMap = (s.gather writes toChip).map ∧
      (s.spiWriteBatch writes toChip transfer).2.useCache = s.useCache := by
  unfold spiWriteBatch
  by_cases nothing : (s.gather writes toChip).data = []
  · simp [nothing]
  · by_cases done : transfer = 0
    · simp [nothing, done]
    · simp [nothing, done]

theorem spiWrite_setsMac (s : LMS7002M) (value : UInt16) (toChip : Bool) (transfer : Int) :
    (s.spiWrite macAddress value toChip transfer).2.mRegistersMap.mac = value &&& 0x0003 := by
  rw [spiWrite, (s.spiWriteBatch_map _ toChip transfer).1, gather, List.foldl_cons, List.foldl_nil,
    RegistersMap.mac_eq, Batch.add_map, RegistersMap.store_cell, if_pos (macCell_selected _)]

theorem spiRead_cases (s : LMS7002M) (address : UInt16) (fromChip : Bool) (transfer : Int) :
    (s.spiRead address fromChip transfer).2.2 = s ∨
      (s.spiRead address fromChip transfer).2.2 =
        s.refresh ([address].zip (s.received [address])) := by
  unfold spiRead
  by_cases asks : s.asksChip address fromChip
  · by_cases failed : transfer ≠ 0
    · rw [if_pos asks, spiReadBatch_failed failed]
      exact .inl rfl
    · rw [if_pos asks, spiReadBatch, if_neg failed]
      exact .inr rfl
  · rw [if_neg asks]
    exact .inl rfl

theorem spiRead_useCache (s : LMS7002M) (address : UInt16) (fromChip : Bool) (transfer : Int) :
    (s.spiRead address fromChip transfer).2.2.useCache = s.useCache := by
  cases s.spiRead_cases address fromChip transfer with
  | inl same => rw [same]
  | inr stored =>
    rw [stored]
    rfl

end LMS7002M

namespace Session

def mac (b : Session) : UInt16 := b.lms.mRegistersMap.mac

def AllDone (b : Session) : Prop := ∀ n chip, (b.answers n chip).2 = 0

def found (b : Session) : Option UInt16 :=
  if (b.answers 0 b.lms.chip).2 = 0 then some (b.answers 0 b.lms.chip).1.mac else none

/-- What `GetActiveChannel` gives back: a read that fails gives 0. -/
def reading (b : Session) : UInt16 := b.found.getD 0

/-- What a routine leaves alone, whatever it does to the MAC bits. -/
structure Continues (b b' : Session) : Prop where
  useCache : b'.lms.useCache = b.lms.useCache
  done : b.AllDone → b'.AllDone

/-- What most calls leave alone as well. -/
structure SameMac (b b' : Session) : Prop extends Continues b b' where
  mac : b'.mac = b.mac

instance : IsPreorder Session Continues where
  refl _ := ⟨rfl, id⟩
  trans _ _ _ first second :=
    ⟨second.useCache.trans first.useCache, second.done ∘ first.done⟩

instance : IsPreorder Session SameMac where
  refl _ := ⟨⟨rfl, id⟩, rfl⟩
  trans _ _ _ first second :=
    ⟨IsTrans.trans _ _ _ first.toContinues second.toContinues, second.mac.trans first.mac⟩

section Calls

variable {α : Type}

theorem transfer_continues {call : LMS7002M → Int → α × LMS7002M}
    (useCache : ∀ s result, (call s result).2.useCache = s.useCache) :
    Moves Continues (transfer call) :=
  fun _ => ⟨useCache _ _, fun done n => done (n + 1)⟩

theorem spiRead_continues (address : UInt16) (fromChip : Bool) :
    Moves Continues (spiRead address fromChip) :=
  transfer_continues fun s result => s.spiRead_useCache address fromChip result

theorem getBits_continues (p : Parameter) (fromChip : Bool) :
    Moves Continues (getBits p fromChip) :=
  getBits_moves (spiRead_continues _ _)

variable {b : Session}

theorem spiRead_mac_chip {fromChip : Bool} (asks : (fromChip || !b.lms.useCache) = true) :
    (spiRead macAddress fromChip b).1 &&& 0x0003 = b.reading ∧
      (spiRead macAddress fromChip b).2.mac = b.found.getD b.mac := by
  let s : LMS7002M := { b.lms with chip := (b.answers 0 b.lms.chip).1 }
  have fromThere : s.asksChip macAddress fromChip = true := by
    rw [LMS7002M.asksChip, show (fromChip || !s.useCache) = true from asks, Bool.true_or]
  unfold reading found
  by_cases done : (b.answers 0 b.lms.chip).2 = 0
  · obtain ⟨value, _, _, cells⟩ :=
      LMS7002M.spiRead_chip (s := s) (show macAddress < 0x8000 by decide) fromThere
    have register : s.chip.read macAddress = s.chip.cell macCell :=
      if_neg fun high => high.1 (by decide)
    have called : (spiRead macAddress fromChip b).1 = (s.spiRead macAddress fromChip 0).1 ∧
        (spiRead macAddress fromChip b).2.mac =
          (s.spiRead macAddress fromChip 0).2.2.mRegistersMap.mac := by
      rw [← done]
      exact ⟨rfl, rfl⟩
    rw [if_pos done, called.1, called.2, value, register, RegistersMap.mac_eq, cells,
      if_pos (macCell_selected _), register]
    exact ⟨rfl, rfl⟩
  · have failed : s.spiRead macAddress fromChip (b.answers 0 b.lms.chip).2 =
        (0, some (b.answers 0 b.lms.chip).2, s) := by
      rw [LMS7002M.spiRead, if_pos fromThere, LMS7002M.spiReadBatch_failed done]
      rfl
    have called : (spiRead macAddress fromChip b).1 = 0 ∧
        (spiRead macAddress fromChip b).2.mac = s.mRegistersMap.mac :=
      ⟨congrArg Prod.fst failed, congrArg (fun r => r.2.2.mRegistersMap.mac) failed⟩
    rw [if_neg done, called.1, called.2]
    exact ⟨rfl, rfl⟩

theorem getActiveChannel_run (fromChip : Bool) (b : Session) :
    getActiveChannel fromChip b = ((spiRead macAddress fromChip b).1 &&& 0x0003,
      (spiRead macAddress fromChip b).2) :=
  congrArg (fun bits => (bits, (spiRead macAddress fromChip b).2)) (LMS7002M.macBits _)

theorem getActiveChannel_chip (b : Session) :
    (getActiveChannel true b).1 = b.reading ∧
      (getActiveChannel true b).2.mac = b.found.getD b.mac := by
  rw [getActiveChannel_run]
  exact spiRead_mac_chip rfl

/-- Whether the channel is in the map after it was selected: a read that fails gives 0. -/
def Sure (b : Session) (ch : UInt16) : Prop := b.lms.useCache = true ∨ ch ≠ 0 ∨ b.AllDone

theorem Continues.sure {b b' : Session} {ch : UInt16} (continues : Continues b b')
    (sure : b.Sure ch) : b'.Sure ch := by
  cases sure with
  | inl cached => exact .inl (continues.useCache.trans cached)
  | inr other =>
    cases other with
    | inl channel => exact .inr (.inl channel)
    | inr done => exact .inr (.inr (continues.done done))

end Calls

variable (tx : Bool)

variable (freq : Rat)

def Selects {α : Type} (ch : UInt16) (m : LmsM α) : Prop :=
  ∀ b : Session, b.Sure ch → (m b).2.mac = ch &&& 0x0003

namespace Selects

variable {α β : Type} {ch : UInt16} {m m' : LmsM α} {f : α → LmsM β}

theorem after (first : Moves Continues m) (second : ∀ a, Selects ch (f a)) :
    Selects ch (m >>= f) :=
  fun b sure => second (m b).1 (m b).2 ((first b).sure sure)

theorem before (first : Selects ch m) (second : ∀ a, Moves SameMac (f a)) : Selects ch (m >>= f) :=
  fun b sure => (second (m b).1 (m b).2).mac.trans (first b sure)

theorem ite {c : Prop} [Decidable c] (first : Selects ch m) (second : Selects ch m') :
    Selects ch (if c then m else m') := by
  split
  · exact first
  · exact second

end Selects

end Session

end Soapy.Lime
