import Soapy.Lime.LMS64CBatches

/-! # Registers over LMS64C

The register functions do what they should with every board that serves them exactly as
long as the packets of the request are an `int` of bytes. Past that a shelf of registers
tells the difference: too few of them are read or written.
-/

namespace Soapy.Lime

open Lib LMS64C

structure Shelf where
  value : UInt16 → UInt16
  applied : List (UInt16 × UInt16)

namespace Shelf

def reply (s : Shelf) (readCmd : UInt8) (p : ProtocolLMS64C) : ProtocolLMS64C where
  cmd := p.cmd
  status := STATUS_COMPLETED_CMD
  blockCount := p.blockCount
  periphID := p.periphID
  data := padded (if p.cmd = readCmd then p.addresses.flatMap fun a => record (a, s.value a) else [])
  sized := padded_length _

def after (s : Shelf) (writeCmd : UInt8) (p : ProtocolLMS64C) : Shelf :=
  if p.cmd = writeCmd then { s with applied := s.applied ++ p.records } else s

end Shelf

/-- The least that serves. -/
def shelf (readCmd writeCmd : UInt8) : Board Shelf where
  answer s p := (some (s.reply readCmd p), s.after writeCmd p)

namespace ProtocolLMS64C

theorem addressesIn_length (k : Nat) (data : List UInt8) : (addressesIn k data).length ≤ k := by
  fun_induction addressesIn k data with
  | case1 k hi lo rest ih => exact Nat.succ_le_succ ih
  | case2 => exact Nat.zero_le _

theorem recordsIn_length (k : Nat) (data : List UInt8) :
    4 * (recordsIn k data).length ≤ data.length := by
  fun_induction recordsIn k data with
  | case1 k ah al vh vl rest ih =>
    simp only [List.length_cons]
    omega
  | case2 => exact Nat.zero_le _

theorem records_length (p : ProtocolLMS64C) : p.records.length ≤ 14 := by
  have bytes := recordsIn_length p.blockCount.toNat p.data
  rw [p.sized, maxDataLength] at bytes
  exact Nat.le_of_mul_le_mul_left bytes (by omega)

end ProtocolLMS64C

theorem shelf_serves {readCmd writeCmd : UInt8} (apart : writeCmd ≠ readCmd) :
    (shelf readCmd writeCmd).Serves Shelf.value Shelf.applied readCmd writeCmd where
  reads := by
    intro s p cmd within
    have few : p.addresses.length ≤ 14 :=
      (ProtocolLMS64C.addressesIn_length _ _).trans (UInt8.le_iff_toNat_le.mp within)
    have fits : (p.addresses.flatMap fun a => record (a, s.value a)).length ≤ maxDataLength := by
      rw [Records.flatMap_length fun a => record_length (a, s.value a), maxDataLength]
      omega
    have data : (s.reply readCmd p).data = padded (p.addresses.flatMap fun a => record (a, s.value a)) := by
      simp only [Shelf.reply, if_pos cmd]
    have same : s.after writeCmd p = s := if_neg fun writing => apart (writing.symm.trans cmd)
    refine ⟨s.reply readCmd p, s.after writeCmd p, rfl, rfl, by rw [same], ?_⟩
    rw [data, padded_eq fits]
    exact List.prefix_append _ _
  writes := by
    intro s p cmd within
    exact ⟨s.reply readCmd p, s.after writeCmd p, rfl, rfl, by rw [Shelf.after, if_pos cmd]⟩

theorem Shelf.after_length (s : Shelf) (writeCmd : UInt8) (p : ProtocolLMS64C) :
    (s.after writeCmd p).applied.length ≤ s.applied.length + 14 := by
  have some := p.records_length
  unfold after
  split
  · rw [List.length_append]
    omega
  · omega

theorem shelf_applied (readCmd writeCmd : UInt8) (packets : List ProtocolLMS64C) (s : Shelf) :
    ((shelf readCmd writeCmd).exchange packets s).2.2.applied.length ≤
      s.applied.length + 14 * packets.length := by
  induction packets generalizing s with
  | nil => exact Nat.le_add_right _ _
  | cons p rest ih =>
    have first := s.after_length writeCmd p
    have later := ih (s.after writeCmd p)
    change ((shelf readCmd writeCmd).exchange rest (s.after writeCmd p)).2.2.applied.length ≤ _
    rw [List.length_cons]
    omega

theorem Board.exchange_length {σ : Type} (d : Board σ) (packets : List ProtocolLMS64C) (s : σ) :
    (d.exchange packets s).2.1.length ≤ packets.length := by
  induction packets generalizing s with
  | nil => exact Nat.le_refl 0
  | cons p rest ih =>
    rw [Board.exchange]
    rcases d.answer s p with ⟨_ | reply, s'⟩
    · exact Nat.zero_le _
    · exact Nat.succ_le_succ (ih s')

namespace LMS64C

def Reads (readCmd writeCmd : UInt8)
    (read : (σ : Type) → Board σ → List UInt32 → σ → Option (Int × List UInt32 × σ))
    (addresses : List UInt16) : Prop :=
  ∀ (σ : Type) (d : Board σ) (value : σ → UInt16 → UInt16)
    (applied : σ → List (UInt16 × UInt16)), d.Serves value applied readCmd writeCmd →
    ∀ (data : List UInt32) (s : σ), data.length = addresses.length →
      ∃ s', read σ d data s = some (0, addresses.map fun a => (value s a).toUInt32, s')

def Writes (readCmd writeCmd : UInt8) (write : (σ : Type) → Board σ → σ → Option (Int × σ))
    (writes : List (UInt16 × UInt16)) : Prop :=
  ∀ (σ : Type) (d : Board σ) (value : σ → UInt16 → UInt16)
    (applied : σ → List (UInt16 × UInt16)), d.Serves value applied readCmd writeCmd →
    ∀ s : σ, ∃ s', write σ d s = some (0, s') ∧ applied s' = applied s ++ writes

theorem too_few {blocks packets : Nat} (many : ¬ Fits 14 blocks)
    (made : (64 * packets : Nat) ≤ INT_MAX) : 14 * packets < blocks := by
  obtain ⟨_, needed, _⟩ := GenericPacket.packetCount_spec (show 0 < 14 by omega) blocks
  have whole : INT_MAX = 2147483647 := rfl
  unfold Fits at many
  cases needed with
  | inl one =>
    rw [one] at many
    omega
  | inr more => omega

variable {readCmd writeCmd : UInt8}

theorem reads_iff (apart : writeCmd ≠ readCmd) (ratio : byteBlockRatio readCmd = 2)
    (fourteen : blocksPerPacket readCmd = 14) (periphID : UInt32) (l : List UInt16) :
    Reads readCmd writeCmd
      (fun _ d data s => readRecords d readCmd periphID (l.flatMap wordBytes) l.length data s) l ↔
      Fits 14 l.length := by
  constructor
  · intro reads
    by_contra many
    obtain ⟨s', read⟩ := reads Shelf (shelf readCmd writeCmd) Shelf.value Shelf.applied
      (shelf_serves apart) (List.replicate l.length 1) ⟨fun _ => 0, []⟩ List.length_replicate
    obtain ⟨⟨status, pkt, s⟩, transferred, result⟩ := Option.map_eq_some_iff.mp read
    obtain ⟨packets, made, exchanged⟩ := Option.map_eq_some_iff.mp transferred
    have few := too_few many (GenericPacket.preparePacket_length made)
    have parsed : (request readCmd periphID (l.flatMap wordBytes)).parsePacket
        ((shelf readCmd writeCmd).exchange packets ⟨fun _ => 0, []⟩).2.1 = pkt :=
      congrArg (fun r : Int × GenericPacket × Shelf => r.2.1) exchanged
    have length : pkt.inBuffer.length ≤ 56 * packets.length := by
      have replies := (shelf readCmd writeCmd).exchange_length packets ⟨fun _ => 0, []⟩
      rw [← parsed, GenericPacket.parsePacket, Records.flatMap_length ProtocolLMS64C.sized]
      exact Nat.mul_le_mul_left 56 replies
    have values : ((List.range (min (pkt.inBuffer.length / 4) l.length)).map fun i =>
          ofBytes (pkt.inBuffer.getD (4 * i + 2) 0) (pkt.inBuffer.getD (4 * i + 3) 0)) ++
        (List.replicate l.length 1).drop (min (pkt.inBuffer.length / 4) l.length) =
          l.map fun _ => (0 : UInt16).toUInt32 :=
      congrArg (fun r : Int × List UInt32 × Shelf => r.2.1) result
    have kept : (1 : UInt32) ∈ (List.replicate l.length (1 : UInt32)).drop
        (min (pkt.inBuffer.length / 4) l.length) := by
      rw [List.drop_replicate]
      apply List.mem_replicate.mpr
      exact ⟨by omega, rfl⟩
    have zero : (1 : UInt32) ∈ l.map fun _ => (0 : UInt16).toUInt32 := by
      rw [← values]
      exact List.mem_append_right _ kept
    obtain ⟨a, _, same⟩ := List.mem_map.mp zero
    exact absurd same (by decide)
  · intro fits σ d value applied serves data s room
    exact readRecords_fits serves ratio fourteen fits periphID room s

theorem writes_iff (apart : writeCmd ≠ readCmd) (ratio : byteBlockRatio writeCmd = 4)
    (fourteen : blocksPerPacket writeCmd = 14) (periphID : UInt32) (l : List (UInt16 × UInt16)) :
    Writes readCmd writeCmd
      (fun _ d s => writeRecords d writeCmd periphID (l.flatMap record) s) l ↔
      Fits 14 l.length := by
  constructor
  · intro writes
    by_contra many
    obtain ⟨s', written, applied⟩ := writes Shelf (shelf readCmd writeCmd) Shelf.value Shelf.applied
      (shelf_serves apart) ⟨fun _ => 0, []⟩
    obtain ⟨⟨status, pkt, s⟩, transferred, result⟩ := Option.map_eq_some_iff.mp written
    obtain ⟨packets, made, exchanged⟩ := Option.map_eq_some_iff.mp transferred
    have few := too_few many (GenericPacket.preparePacket_length made)
    have most := shelf_applied readCmd writeCmd packets ⟨fun _ => 0, []⟩
    have last : ((shelf readCmd writeCmd).exchange packets ⟨fun _ => 0, []⟩).2.2 = s' :=
      (congrArg (fun r : Int × GenericPacket × Shelf => r.2.2) exchanged).trans
        (congrArg (fun r : Int × Shelf => r.2) result)
    rw [last, applied] at most
    simp only [List.nil_append, List.length_nil] at most
    omega
  · intro fits σ d value applied serves s
    exact writeRecords_fits serves ratio fourteen fits periphID s

theorem flatMap_wideBytes (addrs : List UInt32) :
    addrs.flatMap wideBytes = (addrs.map UInt32.toUInt16).flatMap wordBytes := by
  rw [List.flatMap_map]
  exact congrArg addrs.flatMap (funext wideBytes_eq)

theorem flatMap_wideRecords (writes : List (UInt32 × UInt32)) :
    (writes.flatMap fun w => wideBytes w.1 ++ wideBytes w.2) =
      (writes.map fun w => (w.1.toUInt16, w.2.toUInt16)).flatMap record := by
  rw [List.flatMap_map]
  apply congrArg writes.flatMap
  funext w
  rw [wideBytes_eq, wideBytes_eq, record]

/-- The packets of a request carry it whole, and the register functions read and write all that
    they are asked to, exactly when the packets are an `int` of bytes. -/
theorem lms64c_batching (pkt : GenericPacket) (addrs writeData : List UInt32) (periphID : UInt32)
    (writes : List (UInt32 × UInt32)) :
    (byteBlockRatio pkt.cmd ∣ pkt.outBuffer.length →
      ((∃ packets, pkt.preparePacket = some packets ∧ pkt.Batched packets) ↔
        Fits (blocksPerPacket pkt.cmd) pkt.blocks)) ∧
    (Reads CMD_BRDSPI_RD CMD_BRDSPI_WR
      (fun _ d data s => readRegisters d addrs data s) (addrs.map UInt32.toUInt16) ↔
        Fits 14 addrs.length) ∧
    (Reads CMD_LMS7002_RD CMD_LMS7002_WR
      (fun _ d readData s => readLMS7002MSPI d writeData readData periphID s)
      (writeData.map wordAddress) ↔ Fits 14 writeData.length) ∧
    (Writes CMD_BRDSPI_RD CMD_BRDSPI_WR
      (fun _ d s => writeRegisters d writes s)
      (writes.map fun w => (w.1.toUInt16, w.2.toUInt16)) ↔ Fits 14 writes.length) ∧
    (Writes CMD_LMS7002_RD CMD_LMS7002_WR
      (fun _ d s => writeLMS7002MSPI d writeData periphID s)
      (writeData.map fun w => (wordAddress w, wordData w)) ↔ Fits 14 writeData.length) := by
  refine ⟨fun whole => GenericPacket.batched_iff whole, ?_, ?_, ?_, ?_⟩
  · have general := @reads_iff CMD_BRDSPI_RD CMD_BRDSPI_WR (by decide) rfl rfl 0
      (addrs.map UInt32.toUInt16)
    simpa only [readRegisters, flatMap_wideBytes, List.length_map] using general
  · have general := @reads_iff CMD_LMS7002_RD CMD_LMS7002_WR (by decide) rfl rfl
      periphID (writeData.map wordAddress)
    simpa only [readLMS7002MSPI, List.flatMap_map, List.length_map] using general
  · have general := @writes_iff CMD_BRDSPI_RD CMD_BRDSPI_WR (by decide) rfl rfl 0
      (writes.map fun w => (w.1.toUInt16, w.2.toUInt16))
    simpa only [writeRegisters, flatMap_wideRecords, List.length_map] using general
  · have general := @writes_iff CMD_LMS7002_RD CMD_LMS7002_WR (by decide) rfl rfl
      periphID (writeData.map fun w => (wordAddress w, wordData w))
    simpa only [writeLMS7002MSPI, List.flatMap_map, record, List.length_map] using general

theorem lms64c_batching_fifteen :
    ∃ packets, (request CMD_BRDSPI_RD 0 (List.replicate 30 0)).preparePacket = some packets ∧
      (request CMD_BRDSPI_RD 0 (List.replicate 30 0)).Batched packets :=
  ((lms64c_batching (request CMD_BRDSPI_RD 0 (List.replicate 30 0)) [] [] 0 []).1
    (by decide)).mpr (by decide)

theorem not_batched {length : Nat} (large : length = 1879048192) :
    ¬ ∃ packets, (request CMD_PROG_MCU 0 (List.replicate length 0)).preparePacket = some packets ∧
      (request CMD_PROG_MCU 0 (List.replicate length 0)).Batched packets := by
  have blocks : (request CMD_PROG_MCU 0 (List.replicate length 0)).blocks = length := by
    change (List.replicate length (0 : UInt8)).length / 1 = length
    rw [List.length_replicate, Nat.div_one]
  intro batched
  have fits := (GenericPacket.batched_iff (Nat.one_dvd _)).mp batched
  rw [blocks, large] at fits
  exact absurd fits (by decide)

/-- 2^25 full packets: their size leaves the `int`. -/
theorem lms64c_overflows :
    byteBlockRatio CMD_PROG_MCU ∣ (List.replicate 1879048192 (0 : UInt8)).length ∧
      ¬ ∃ packets,
        (request CMD_PROG_MCU 0 (List.replicate 1879048192 0)).preparePacket = some packets ∧
        (request CMD_PROG_MCU 0 (List.replicate 1879048192 0)).Batched packets :=
  ⟨Nat.one_dvd _, not_batched rfl⟩

end LMS64C

end Soapy.Lime
