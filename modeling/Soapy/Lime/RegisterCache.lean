import Soapy.Lime.LMS7002M

/-! # The register cache of the LMS7002M

The driver with its cache against the chip alone. On the chip alone every write is
sent and every read is asked, so it says what a sequence of calls should do. The driver
follows it as long as no read from the chip stores one value for two banks that differ.
-/

namespace Soapy.Lime

open Lib

inductive Call where
  | enableValuesCache (enabled : Bool)
  | spiWrite (address data : UInt16) (toChip : Bool)
  | spiWriteBatch (writes : List (UInt16 × UInt16)) (toChip : Bool)
  | spiRead (address : UInt16) (fromChip : Bool)
  | spiReadBatch (addresses : List UInt16)
  | modifySpiRegBits (address : UInt16) (msb lsb : UInt8) (value : UInt16) (fromChip : Bool)

namespace Call

def addresses : Call → List UInt16
  | .enableValuesCache _ => []
  | .spiWrite address _ _ => [address]
  | .spiWriteBatch writes _ => writes.map Prod.fst
  | .spiRead address _ => [address]
  | .spiReadBatch addresses => addresses
  | .modifySpiRegBits address _ _ _ _ => [address]

def asked (s : LMS7002M) : Call → List UInt16
  | .enableValuesCache _ | .spiWrite _ _ _ | .spiWriteBatch _ _ => []
  | .spiRead address fromChip => if s.asksChip address fromChip then [address] else []
  | .spiReadBatch addresses => addresses
  | .modifySpiRegBits address _ _ _ fromChip => if s.asksChip address fromChip then [address] else []

end Call

def LMS7002M.perform (s : LMS7002M) : Call → List UInt16 × LMS7002M
  | .enableValuesCache enabled => ([], s.enableValuesCache enabled)
  | .spiWrite address data toChip => ([], (s.spiWrite address data toChip 0).2)
  | .spiWriteBatch writes toChip => ([], (s.spiWriteBatch writes toChip 0).2)
  | .spiRead address fromChip =>
    let (value, _, s) := s.spiRead address fromChip 0
    ([value], s)
  | .spiReadBatch addresses => (s.spiReadBatch addresses 0).2
  | .modifySpiRegBits address msb lsb value fromChip =>
    ([(s.spiRead address fromChip 0).1],
      (s.modifySpiRegBits address msb lsb value fromChip 0 0).2)

def Chip.perform (chip : Chip) : Call → List UInt16 × Chip
  | .enableValuesCache _ => ([], chip)
  | .spiWrite address data _ => ([], chip.write address data)
  | .spiWriteBatch writes _ => ([], chip.writeAll writes)
  | .spiRead address _ => ([chip.read address], chip)
  | .spiReadBatch addresses => (addresses.map chip.read, chip)
  | .modifySpiRegBits address msb lsb value _ =>
    ([chip.read address],
      chip.write address (LMS7002M.replaceBits (chip.read address) msb lsb value))

/-- The driver beside a chip to which every write is sent. -/
structure Bench where
  lms : LMS7002M
  unconditional : Chip

namespace Bench

def perform (b : Bench) (call : Call) : Bench :=
  ⟨(b.lms.perform call).2, (b.unconditional.perform call).2⟩

def Step (b : Bench) (call : Call) (b' : Bench) : Prop := b' = b.perform call

/-- The registers are plain ones, and a register that is asked for while both banks are
    selected has one value in both. -/
structure Agreeing (b : Bench) (call : Call) : Prop where
  plain : ∀ a ∈ call.addresses, Plain a
  same : ∀ a ∈ call.asked b.lms, LMS7002M.Same b.lms.chip a

end Bench

namespace LMS7002M

variable {s : LMS7002M} {address : UInt16}

theorem Coherent.written (coherent : s.Coherent) {writes : List (UInt16 × UInt16)}
    (plain : ∀ w ∈ writes, Plain w.1) (toChip : Bool) :
    (s.spiWriteBatch writes toChip 0).2.Coherent ∧
      (s.spiWriteBatch writes toChip 0).2.chip = s.chip.writeAll writes := by
  have sendable : ∀ w ∈ writes,
      Batch.Sendable s.mRegistersMap ∅ (toChip || !s.useCache) w := by
    intro w member
    exact ⟨(plain w member).1, .inl id, fun _ => plain w member, fun _ _ none => none.elim⟩
  obtain ⟨sent, failed⟩ := CoherentBut.spiWriteBatch coherent sendable 0
  have done : (s.spiWriteBatch writes toChip 0).1 = 0 := by
    by_contra other
    exact (failed other).1 rfl
  obtain ⟨chip, after⟩ := sent done
  rw [Set.empty_sdiff] at after
  exact ⟨after, chip⟩

theorem Coherent.readBatch (coherent : s.Coherent) {addresses : List UInt16}
    (plain : ∀ a ∈ addresses, Plain a) (same : ∀ a ∈ addresses, Same s.chip a) :
    (s.spiReadBatch addresses 0).2.2.Coherent ∧
      (s.spiReadBatch addresses 0).2.2.chip = s.chip ∧
      (s.spiReadBatch addresses 0).2.1 = addresses.map s.chip.read := by
  have readable : ∀ a ∈ addresses, s.Readable ∅ a :=
    fun a member => ⟨(plain a member).1, .inl id, fun _ => same a member⟩
  have read := CoherentBut.spiReadBatch coherent readable
  rw [Set.empty_sdiff] at read
  exact read

theorem Coherent.readOne (coherent : s.Coherent) (plain : Plain address) {fromChip : Bool}
    (same : ∀ a ∈ if s.asksChip address fromChip then [address] else [], Same s.chip a) :
    (s.spiRead address fromChip 0).1 = s.chip.read address ∧
      (s.spiRead address fromChip 0).2.2.Coherent ∧
      (s.spiRead address fromChip 0).2.2.chip = s.chip := by
  unfold LMS7002M.spiRead
  by_cases asks : s.asksChip address fromChip
  · rw [if_pos asks] at same ⊢
    obtain ⟨after, chip, values⟩ := coherent.readBatch (by simpa using plain) same
    exact ⟨congrArg (fun l => l.headD 0) values, after, chip⟩
  · rw [if_neg asks]
    exact ⟨CoherentBut.cached coherent (.inl id) plain id, coherent, rfl⟩

theorem Coherent.perform (coherent : s.Coherent) {call : Call}
    (plain : ∀ a ∈ call.addresses, Plain a) (same : ∀ a ∈ call.asked s, Same s.chip a) :
    (s.perform call).2.Coherent ∧
      (s.perform call).1 = (s.chip.perform call).1 ∧
      (s.perform call).2.chip = (s.chip.perform call).2 := by
  cases call with
  | enableValuesCache enabled => exact ⟨coherent, rfl, rfl⟩
  | spiWrite address data toChip =>
    have one : ∀ w ∈ [(address, data)], Plain w.1 := by simpa [Call.addresses] using plain
    obtain ⟨after, chip⟩ := coherent.written one toChip
    exact ⟨after, rfl, chip⟩
  | spiWriteBatch writes toChip =>
    have each : ∀ w ∈ writes, Plain w.1 :=
      fun w member => plain w.1 (List.mem_map_of_mem member)
    obtain ⟨after, chip⟩ := coherent.written each toChip
    exact ⟨after, rfl, chip⟩
  | spiRead address fromChip =>
    obtain ⟨value, after, chip⟩ := coherent.readOne (plain address List.mem_cons_self) same
    exact ⟨after, congrArg (fun v => [v]) value, chip⟩
  | spiReadBatch addresses =>
    obtain ⟨after, chip, values⟩ := coherent.readBatch plain same
    exact ⟨after, values, chip⟩
  | modifySpiRegBits address msb lsb value fromChip =>
    have here : Plain address := plain address List.mem_cons_self
    obtain ⟨register, afterRead, chipRead⟩ := coherent.readOne here same
    have one (data : UInt16) : ∀ w ∈ [(address, data)], Plain w.1 := by simpa using here
    obtain ⟨after, chip⟩ := afterRead.written
      (one (replaceBits (s.spiRead address fromChip 0).1 msb lsb value)) false
    refine ⟨after, congrArg (fun v => [v]) register, chip.trans ?_⟩
    rw [chipRead, register]
    rfl

end LMS7002M

namespace Bench

/-- The map mirrors the chip, which is the one that every write was sent to. -/
structure InStep (b : Bench) : Prop where
  coherent : b.lms.Coherent
  alike : b.lms.chip = b.unconditional

theorem InStep.step {b b' : Bench} {call : Call} (inStep : b.InStep) (allowed : b.Agreeing call)
    (step : b.Step call b') : b'.InStep := by
  obtain ⟨after, _, chip⟩ := inStep.coherent.perform allowed.plain allowed.same
  rw [step]
  constructor
  · exact after
  · rw [perform, chip, inStep.alike]

end Bench

/-- Through every run of such calls the map mirrors the chip, the chip is the one to which
    every write was sent, and the next call reads what the chip holds. -/
theorem register_cache {start b : Bench} (coherent : start.lms.Coherent)
    (alike : start.lms.chip = start.unconditional) (run : Runs Bench.Step Bench.Agreeing start b) :
    b.lms.Coherent ∧ b.lms.chip = b.unconditional ∧
      ∀ call, b.Agreeing call → (b.lms.perform call).1 = (b.lms.chip.perform call).1 := by
  have inStep : b.InStep := run.keeps (fun _ _ _ inv => inv.step) ⟨coherent, alike⟩
  refine ⟨inStep.coherent, inStep.alike, ?_⟩
  intro call allowed
  exact (inStep.coherent.perform allowed.plain allowed.same).2.1

namespace Bench

def bothBanks : Bench :=
  let bankA (address : UInt16) : UInt16 := if address = macAddress then 3 else 1
  let bankB (address : UInt16) : UInt16 := if address = 0x0100 then 2 else 1
  { lms := ⟨⟨bankA, bankB⟩, true, ⟨bankA, bankB⟩⟩
    unconditional := ⟨bankA, bankB⟩ }

theorem bothBanks_coherent : bothBanks.lms.Coherent :=
  fun c _ _ => by rcases c with ⟨_ | _, _⟩ <;> rfl

theorem register_cache_agreeing :
    ∃ b : Bench, b.lms.chip.bankB 0x0101 = 7 ∧ b.lms.Coherent ∧ b.lms.chip = b.unconditional ∧
      ∀ call, b.Agreeing call → (b.lms.perform call).1 = (b.lms.chip.perform call).1 := by
  let read := Call.spiRead 0x0101 true
  let write := Call.spiWriteBatch [(macAddress, 2), (0x0101, 7)] false
  have plain : Plain 0x0101 := by decide
  have first : bothBanks.Agreeing read := by
    constructor
    · exact List.forall_mem_singleton.mpr plain
    · exact List.forall_mem_singleton.mpr fun _ _ => rfl
  have second : (bothBanks.perform read).Agreeing write := by
    constructor
    · exact List.forall_mem_cons.mpr ⟨plain_mac, List.forall_mem_singleton.mpr plain⟩
    · exact fun _ none => by cases none
  refine ⟨(bothBanks.perform read).perform write, by decide, ?_⟩
  exact register_cache bothBanks_coherent rfl ((Runs.refl.tail rfl first).tail rfl second)

/-- Read with both banks selected, where they differ, then select bank B and write what the
    read left in the map. -/
def staleCalls : List Call :=
  [.spiRead 0x0100 true, .spiWrite macAddress 2 false, .spiWrite 0x0100 1 false]

/-- The write is not sent: the map has taken what is in bank A for bank B as well. -/
theorem register_cache_stale :
    bothBanks.lms.Coherent ∧ bothBanks.lms.chip = bothBanks.unconditional ∧
      (∀ call ∈ staleCalls, ∀ a ∈ call.addresses, Plain a) ∧
      ¬ (bothBanks.perform staleCalls[0]).lms.Coherent ∧
      (staleCalls.foldl perform bothBanks).lms.chip.bankB 0x0100 = 2 ∧
      (staleCalls.foldl perform bothBanks).unconditional.bankB 0x0100 = 1 := by
  have plain : Plain 0x0100 := by decide
  refine ⟨bothBanks_coherent, rfl, ?_, ?_, by decide, by decide⟩
  · simp only [staleCalls, List.forall_mem_cons, Call.addresses]
    exact ⟨⟨plain, by simp⟩, ⟨plain_mac, by simp⟩, ⟨plain, by simp⟩, by simp⟩
  · intro coherent
    have same := coherent (.b, 0x0100) ⟨by decide, by decide⟩ id
    revert same
    decide

end Bench

end Soapy.Lime
