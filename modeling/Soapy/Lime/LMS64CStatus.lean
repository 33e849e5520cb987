import Soapy.Lime.LMS64CBatches

/-! # The status of a transfer

The packets of a transfer are answered one by one, each with a status, and the transfer ends with
one status for them all.
-/

namespace Soapy.Lime

open LMS64C

namespace Board

variable {σ : Type} (d : Board σ)

/-- The statuses of the answers, if every packet is written and read back. -/
def statuses : List ProtocolLMS64C → σ → Option (List UInt8)
  | [], _ => some []
  | p :: rest, s =>
    match d.answer s p with
    | (none, _) => none
    | (some reply, s) => (statuses rest s).map (reply.status :: ·)

def Completes (packets : List ProtocolLMS64C) (s : σ) : Prop :=
  ∃ statuses, d.statuses packets s = some statuses ∧
    ∀ status ∈ statuses, status = STATUS_COMPLETED_CMD

def Masks (packets : List ProtocolLMS64C) (s : σ) : Prop :=
  ∃ early, d.statuses packets s = some (early ++ [STATUS_COMPLETED_CMD]) ∧
    ∃ status ∈ early, status ≠ STATUS_COMPLETED_CMD

theorem exchange_statuses (packets : List ProtocolLMS64C) (s : σ) :
    (d.statuses packets s).isSome = (d.exchange packets s).1 ∧
      ∀ statuses, d.statuses packets s = some statuses →
        (d.exchange packets s).2.1.map (·.status) = statuses := by
  induction packets generalizing s with
  | nil => exact ⟨rfl, fun statuses same => Option.some.inj same⟩
  | cons p rest ih =>
    rw [statuses, exchange]
    rcases d.answer s p with ⟨_ | reply, s'⟩
    · exact ⟨rfl, by rintro _ ⟨⟩⟩
    · obtain ⟨ends, each⟩ := ih s'
      refine ⟨by simpa using ends, ?_⟩
      intro statuses same
      obtain ⟨later, found, rfl⟩ := Option.map_eq_some_iff.mp same
      exact congrArg (reply.status :: ·) (each later found)

theorem statuses_length {packets : List ProtocolLMS64C} {s : σ} {statuses : List UInt8}
    (answered : d.statuses packets s = some statuses) : statuses.length = packets.length := by
  induction packets generalizing s statuses with
  | nil =>
    cases answered
    rfl
  | cons p rest ih =>
    rw [Board.statuses] at answered
    rcases first : d.answer s p with ⟨_ | reply, s'⟩
    · simp [first] at answered
    · rw [first] at answered
      obtain ⟨later, found, rfl⟩ := Option.map_eq_some_iff.mp answered
      exact congrArg (· + 1) (ih found)

end Board

namespace GenericPacket

theorem packLoop_ne_nil (pkt : GenericPacket) {n : Nat} (some : n ≠ 0) (blockCount : Int)
    (source : List UInt8) : pkt.packLoop n blockCount source ≠ [] := by
  cases n with
  | zero => exact absurd rfl some
  | succ n => exact List.cons_ne_nil _ _

theorem preparePacket_ne_nil {pkt : GenericPacket} {packets : List ProtocolLMS64C}
    (made : pkt.preparePacket = some packets) : packets ≠ [] := by
  obtain ⟨length, size, rest⟩ := Option.bind_eq_some_iff.mp made
  split_ifs at rest with negative
  rw [← Option.some.inj rest]
  apply packLoop_ne_nil
  have unit : (pktLength : Int) = 64 := rfl
  simp only [bufLen, unit] at size
  rw [pktLength]
  split_ifs at size with range none
  · have same := Option.some.inj size
    omega
  · have same := Option.some.inj size
    omega

end GenericPacket

inductive RegisterTransfer where
  | writeRegisters (writes : List (UInt32 × UInt32))
  | readRegisters (addrs data : List UInt32)
  | writeLMS7002MSPI (writeData : List UInt32) (periphID : UInt32)
  | readLMS7002MSPI (writeData readData : List UInt32) (periphID : UInt32)

namespace RegisterTransfer

variable {σ : Type} (d : Board σ)

def returned (s : σ) : RegisterTransfer → Option Int
  | writeRegisters writes => (LMS64C.writeRegisters d writes s).map (·.1)
  | readRegisters addrs data => (LMS64C.readRegisters d addrs data s).map (·.1)
  | writeLMS7002MSPI writeData periphID =>
    (LMS64C.writeLMS7002MSPI d writeData periphID s).map (·.1)
  | readLMS7002MSPI writeData readData periphID =>
    (LMS64C.readLMS7002MSPI d writeData readData periphID s).map (·.1)

def asks : RegisterTransfer → GenericPacket
  | writeRegisters writes =>
    request CMD_BRDSPI_WR 0 (writes.flatMap fun w => wideBytes w.1 ++ wideBytes w.2)
  | readRegisters addrs _ => request CMD_BRDSPI_RD 0 (addrs.flatMap wideBytes)
  | writeLMS7002MSPI writeData periphID => request CMD_LMS7002_WR periphID
      (writeData.flatMap fun w => wordBytes (wordAddress w) ++ wordBytes (wordData w))
  | readLMS7002MSPI writeData _ periphID => request CMD_LMS7002_RD periphID
      (writeData.flatMap fun w => wordBytes (wordAddress w))

variable {d}

theorem returned_eq (t : RegisterTransfer) (s : σ) :
    t.returned d s = (transferPacket d t.asks s).map fun r => convertStatus r.1 r.2.1 := by
  cases t with
  | writeRegisters writes =>
    simp only [returned, LMS64C.writeRegisters, writeRecords, asks, Option.map_map]
    rfl
  | readRegisters addrs data =>
    simp only [returned, LMS64C.readRegisters, readRecords, asks, Option.map_map]
    rfl
  | writeLMS7002MSPI writeData periphID =>
    simp only [returned, LMS64C.writeLMS7002MSPI, writeRecords, asks, Option.map_map]
    rfl
  | readLMS7002MSPI writeData readData periphID =>
    simp only [returned, LMS64C.readLMS7002MSPI, readRecords, asks, Option.map_map]
    rfl

theorem convertStatus_zero {status : Int} {pkt : GenericPacket} :
    convertStatus status pkt = 0 ↔ status = 0 ∧ pkt.status = STATUS_COMPLETED_CMD := by
  unfold convertStatus
  split_ifs with failed completed unknown
  · simp [failed]
  · simpa [completed] using failed
  · simp [completed, EPROTONOSUPPORT]
  · simp [completed, EPROTO]

theorem returned_zero {t : RegisterTransfer} {packets : List ProtocolLMS64C}
    (made : t.asks.preparePacket = some packets) (s : σ) :
    t.returned d s = some 0 ↔
      ∃ early, d.statuses packets s = some (early ++ [STATUS_COMPLETED_CMD]) := by
  obtain ⟨ends, each⟩ := d.exchange_statuses packets s
  have code : t.returned d s = some 0 ↔ (d.exchange packets s).1 = true ∧
      (t.asks.parsePacket (d.exchange packets s).2.1).status = STATUS_COMPLETED_CMD := by
    simp [returned_eq, transferPacket, made, convertStatus_zero]
  rw [code, ← ends]
  cases answered : d.statuses packets s with
  | none => simp
  | some statuses =>
    have replies := each statuses answered
    have size := d.statuses_length answered
    have last : (t.asks.parsePacket (d.exchange packets s).2.1).status =
        statuses.getLast?.getD t.asks.status := by
      rw [← replies, List.getLast?_map]
      rfl
    rw [last]
    cases statuses using List.reverseRecOn with
    | nil =>
      exact absurd (List.length_eq_zero_iff.mp size.symm) (GenericPacket.preparePacket_ne_nil made)
    | append_singleton early status => simp

/-- The result of a transfer tells of every packet unless the last one covers for the others. -/
theorem errors_reported (d : Board σ) (t : RegisterTransfer) (s : σ) :
    (t.returned d s = some 0 →
      ∃ packets, t.asks.preparePacket = some packets ∧ d.Completes packets s) ↔
    ¬ ∃ packets, t.asks.preparePacket = some packets ∧ d.Masks packets s := by
  constructor
  · intro reported masked
    obtain ⟨packets, made, early, answered, status, mem, other⟩ := masked
    obtain ⟨packets', made', statuses, answered', completed⟩ :=
      reported ((returned_zero made s).mpr ⟨early, answered⟩)
    obtain rfl := Option.some.inj (made.symm.trans made')
    obtain rfl := Option.some.inj (answered.symm.trans answered')
    exact other (completed status (List.mem_append_left _ mem))
  · intro honest zero
    cases made : t.asks.preparePacket with
    | none => simp [returned_eq, transferPacket, made] at zero
    | some packets =>
      obtain ⟨early, answered⟩ := (returned_zero made s).mp zero
      refine ⟨packets, rfl, _, answered, ?_⟩
      intro status mem
      by_contra other
      refine honest ⟨packets, made, early, answered, status, ?_, other⟩
      exact (List.mem_append.mp mem).resolve_right fun h => other (List.mem_singleton.mp h)

/-- The board turns down the first packet and completes the next ones. -/
def grudging : Board Nat where
  answer n p := (some { p with status := if n = 0 then 5 else STATUS_COMPLETED_CMD }, n + 1)

/-- Of fifteen registers the fourteen in the first packet are refused, and all is well. -/
theorem errors_reported_fails : ¬ ∀ (t : RegisterTransfer) (d : Board Nat) (s : Nat),
    t.returned d s = some 0 →
      ∃ packets, t.asks.preparePacket = some packets ∧ d.Completes packets s := by
  intro reported
  obtain ⟨packets, made, statuses, answered, completed⟩ :=
    reported (.writeRegisters (List.replicate 15 (0, 0))) grudging 0 (by decide +kernel)
  have answers : ((writeRegisters (List.replicate 15 (0, 0))).asks.preparePacket.bind
      fun packets => grudging.statuses packets 0) = some [5, STATUS_COMPLETED_CMD] := by
    decide +kernel
  rw [made, Option.bind_some, answered] at answers
  rw [Option.some.inj answers] at completed
  exact absurd (completed 5 List.mem_cons_self) (by decide)

end RegisterTransfer

end Soapy.Lime
