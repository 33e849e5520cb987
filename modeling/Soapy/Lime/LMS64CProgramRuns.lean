import Soapy.Lime.LMS64CProgram

/-! # Programming runs

What is sent and answered while an image is programmed, for any port and any callback.
-/

namespace Soapy.Lime

open Lib LMS64C

inductive Traffic where
  | sent (p : ProtocolLMS64C)
  | received (reply : ProtocolLMS64C)

namespace Traffic

def packets (traffic : List Traffic) : List ProtocolLMS64C :=
  traffic.filterMap fun
    | .sent p => some p
    | .received _ => none

theorem packets_turn (p reply : ProtocolLMS64C) (traffic : List Traffic) :
    packets (.sent p :: .received reply :: traffic) = p :: packets traffic := rfl

/-- A packet that is reported as not completed is the last one, and the result says so. -/
def Stops (traffic : List Traffic) (outcome : Outcome) : Prop :=
  ∀ before reply after, traffic = before ++ .received reply :: after →
    reply.status ≠ STATUS_COMPLETED_CMD →
      after = [] ∧ ∃ code, outcome = .returned code ∧ code ≠ 0

theorem stops_nil (outcome : Outcome) : Stops [] outcome := by
  intro before reply after split
  simp at split

theorem stops_sent (p : ProtocolLMS64C) {traffic : List Traffic} {outcome : Outcome}
    (stops : Stops traffic outcome) : Stops (.sent p :: traffic) outcome := by
  intro before reply after split
  cases before with
  | nil => simp at split
  | cons first before => exact stops before reply after (List.cons.inj split).2

theorem stops_received {reply : ProtocolLMS64C} {traffic : List Traffic} {outcome : Outcome}
    (completed : reply.status = STATUS_COMPLETED_CMD) (stops : Stops traffic outcome) :
    Stops (.received reply :: traffic) outcome := by
  intro before reply' after split refused
  cases before with
  | nil =>
    simp only [List.nil_append, List.cons.injEq, Traffic.received.injEq] at split
    exact absurd (split.1 ▸ completed) refused
  | cons first before => exact stops before reply' after (List.cons.inj split).2 refused

theorem stops_refused (reply : ProtocolLMS64C) {code : Int} (failed : code ≠ 0) :
    Stops [.received reply] (.returned code) := by
  intro before reply' after split _
  refine ⟨?_, code, rfl, failed⟩
  cases before with
  | nil => exact (List.cons.inj split).2.symm
  | cons first before => simp at split

end Traffic

open Traffic

namespace Port

variable {σ : Type} (port : Port σ)

def logged : Port (σ × List Traffic) where
  write s p := ((port.write s.1 p).1, ((port.write s.1 p).2, s.2 ++ [.sent p]))
  read s := ((port.read s.1).1, ((port.read s.1).2,
    s.2 ++ ((port.read s.1).1.map Traffic.received).toList))

/-- The answer to a packet repeats its command. -/
def Echoes : Prop :=
  ∀ s p s' reply s'', port.write s p = (true, s') → port.read s' = (some reply, s'') →
    reply.cmd = p.cmd

def Completes : Prop :=
  ∀ s p, ∃ s' reply s'', port.write s p = (true, s') ∧ port.read s' = (some reply, s'') ∧
    reply.status = STATUS_COMPLETED_CMD

end Port

namespace ProgrammingCallback

variable {σ : Type}

def logged (callback : ProgrammingCallback σ) : ProgrammingCallback (σ × List Traffic) :=
  callback.map fun f sent total message s =>
    ((f sent total message s.1).1, ((f sent total message s.1).2, s.2))

def NeverAborts (callback : ProgrammingCallback σ) : Prop :=
  ∀ sent total message s, (notify callback sent total message s).1 = false

theorem notify_logged (callback : ProgrammingCallback σ) (sent total : Int) (message : Bytes)
    (s : σ) (log : List Traffic) :
    notify callback.logged sent total message (s, log) = ((notify callback sent total message s).1,
      (notify callback sent total message s).2, log) := by
  cases callback with
  | none => rfl
  | some f => rfl

end ProgrammingCallback

namespace LMS64C

variable {σ : Type} (port : Port σ) (callback : ProgrammingCallback σ)

theorem endProgramming_log (abort : Bool) (sent total : Int) (s : σ) (log : List Traffic) :
    (endProgramming callback.logged abort sent total (s, log)).2.2 = log := by
  cases abort with
  | false => simp [endProgramming, ProgrammingCallback.notify_logged]
  | true => simp [endProgramming, ProgrammingCallback.notify_logged]

variable (cmd : UInt8) (prog_mode device : Int) (n : Nat)

theorem programWriteLoop_stops (total : Int) (needs : Bool)
    (n portionNumber : Nat) (data_left : Int) (data_src : Option (List UInt8)) (sent : Int) (s : σ)
    (log : List Traffic) :
    ∃ traffic, (programWriteLoop port.logged callback.logged cmd prog_mode device total needs n
        portionNumber data_left data_src sent (s, log)).2.2 = log ++ traffic ∧
      Stops traffic (programWriteLoop port.logged callback.logged cmd prog_mode device total needs n
        portionNumber data_left data_src sent (s, log)).1 := by
  induction n generalizing portionNumber data_left data_src sent s log with
  | zero => exact ⟨[], by simp [programWriteLoop, endProgramming_log], stops_nil _⟩
  | succ n ih =>
    simp only [programWriteLoop]
    generalize toUInt8 (if data_left > pktSize then pktSize else data_left) = data_cnt
    split
    · exact ⟨[], by simp, stops_nil _⟩
    generalize portion cmd prog_mode device portionNumber data_cnt
      ((data_src.getD []).take data_cnt.toNat) = packet
    rcases wrote : port.write s packet with ⟨_ | _, s'⟩
    · refine ⟨[.sent packet], ?_, stops_sent _ (stops_nil _)⟩
      simp [Port.logged, wrote, ProgrammingCallback.notify_logged]
    rcases back : port.read s' with ⟨_ | reply, s''⟩
    · refine ⟨[.sent packet], ?_, stops_sent _ (stops_nil _)⟩
      simp [Port.logged, wrote, back, ProgrammingCallback.notify_logged]
    simp only [Port.logged, wrote, back, Option.map_some, Option.toList_some,
      ProgrammingCallback.notify_logged, List.append_assoc, List.cons_append, List.nil_append]
    split
    · exact ⟨_, rfl, stops_sent _ (stops_refused _ (by decide))⟩
    rename_i completed
    rw [not_not] at completed
    split
    · exact ⟨_, endProgramming_log _ _ _ _ _ _,
        stops_sent _ (stops_received completed (stops_nil _))⟩
    split
    · exact ⟨_, endProgramming_log _ _ _ _ _ _,
        stops_sent _ (stops_received completed (stops_nil _))⟩
    obtain ⟨traffic, kept, stops⟩ := ih (portionNumber + 1) (data_left - data_cnt.toNat)
      (data_src.map (·.drop data_cnt.toNat)) (sent + data_cnt.toNat)
      (notify callback (sent + data_cnt.toNat) total (ascii "in progress...") s'').2
      (log ++ [.sent packet, .received reply])
    refine ⟨.sent packet :: .received reply :: traffic, ?_,
      stops_sent _ (stops_received completed stops)⟩
    rw [List.append_assoc] at kept
    exact kept

theorem programWrite_stops (isOpen : Bool) (data_src : Option (List UInt8)) (length : Nat)
    (prog_mode device : Int) (s : σ) :
    Stops (programWrite port.logged callback.logged isOpen data_src length prog_mode device
        (s, [])).2.2
      (programWrite port.logged callback.logged isOpen data_src length prog_mode device
        (s, [])).1 := by
  have run (cmd : UInt8) (n : Nat) := programWriteLoop_stops port callback cmd prog_mode device
    (toInt32 length) (needsData prog_mode device) n 0 (toInt32 length) data_src 0 s []
  unfold programWrite
  dsimp only
  split
  · exact stops_nil _
  split
  · exact stops_nil _
  split
  · obtain ⟨traffic, kept, stops⟩ := run CMD_MEMORY_WR _
    rw [kept]
    exact stops
  split
  · obtain ⟨traffic, kept, stops⟩ := run CMD_ALTERA_FPGA_GW_WR _
    rw [kept]
    exact stops
  · simp only [ProgrammingCallback.notify_logged]
    exact stops_nil _

variable {pkt : GenericPacket}

theorem batches_single {packets : List ProtocolLMS64C} {source : List UInt8}
    (batches : pkt.Batches packets source) (number : packets.length = 1) :
    ∃ p, packets = [p] ∧ pkt.Carries p source := by
  cases batches with
  | last carries => exact ⟨_, rfl, carries⟩
  | more carries full batches =>
    cases batches with
    | last => cases number
    | more => cases number

theorem prepare_mcu (cmd : pkt.cmd = CMD_PROG_MCU) (size : pkt.outBuffer.length = 34) :
    ∃ p, pkt.preparePacket = some [p] ∧ p.cmd = CMD_PROG_MCU ∧ p.data = padded pkt.outBuffer := by
  have ratio : byteBlockRatio pkt.cmd = 1 := by
    rw [cmd]
    decide
  have blocks : pkt.blocks = 34 := by rw [GenericPacket.blocks, ratio, size]
  have full : blocksPerPacket pkt.cmd = 56 := by
    rw [cmd]
    decide
  obtain ⟨packets, made, batches, number⟩ := @GenericPacket.preparePacket_fits pkt
    (by rw [ratio]; exact one_dvd _) (by rw [full, blocks]; decide)
  rw [GenericPacket.count, full, blocks] at number
  obtain ⟨p, rfl, carries⟩ := batches_single batches number
  exact ⟨p, made, carries.cmd.trans cmd, carries.data⟩

def Transfers (TransferPacket : GenericPacket → σ × List Traffic →
    Option (Int × GenericPacket × σ × List Traffic)) : Prop :=
  ∀ pkt p s log, pkt.preparePacket = some [p] →
    (∃ code s', TransferPacket pkt (s, log) =
        some (code, { pkt with inBuffer := [] }, s', log ++ [.sent p]) ∧
      ∀ s' reply s'', port.write s p = (true, s') → port.read s' ≠ (some reply, s'')) ∨
    ∃ code s' reply s'', port.write s p = (true, s') ∧ port.read s' = (some reply, s'') ∧
      TransferPacket pkt (s, log) =
        some (code, { pkt with cmd := reply.cmd, status := reply.status, inBuffer := reply.data },
          s'', log ++ [.sent p, .received reply])

theorem transferPacket_transfers : Transfers port (transferPacket port.logged.board) := by
  intro pkt p s log made
  rcases wrote : port.write s p with ⟨_ | _, s'⟩
  · left
    refine ⟨convertStatus (-1) { pkt with inBuffer := [] }, s', ?_, ?_⟩
    · simp [transferPacket, made, Board.exchange, Port.board, Port.logged, wrote,
        GenericPacket.parsePacket]
    · intro s₁ reply s₂ wrote'
      simp at wrote'
  rcases back : port.read s' with ⟨_ | reply, s''⟩
  · left
    refine ⟨convertStatus (-1) { pkt with inBuffer := [] }, s'', ?_, ?_⟩
    · simp [transferPacket, made, Board.exchange, Port.board, Port.logged, wrote, back,
        GenericPacket.parsePacket]
    · intro s₁ reply s₂ wrote' back'
      cases wrote'
      simp [back] at back'
  · right
    refine ⟨convertStatus 0 { pkt with
      cmd := reply.cmd, status := reply.status, inBuffer := reply.data }, s', reply, s'', rfl, back,
      ?_⟩
    simp [transferPacket, made, Board.exchange, Port.board, Port.logged, wrote, back,
      GenericPacket.parsePacket]

variable {port callback}
  {TransferPacket : GenericPacket → σ × List Traffic →
    Option (Int × GenericPacket × σ × List Traffic)}

variable {buffer : List UInt8} (mode : MCU_PROG_MODE) (packetNumber : Nat)

theorem prepare_block {CntEnd : UInt16}
    (cmd : pkt.cmd = CMD_PROG_MCU) (inside : CntEnd.toNat + fifoLen ≤ buffer.length)
    (mode : MCU_PROG_MODE) (packetNumber : Nat) :
    ∃ p, (blockRequest buffer mode CntEnd packetNumber pkt).preparePacket = some [p] ∧
      p.cmd = CMD_PROG_MCU ∧
      p.data = padded (blockRequest buffer mode CntEnd packetNumber pkt).outBuffer := by
  refine prepare_mcu cmd ?_
  simp only [blockRequest, List.length_cons, List.length_take, List.length_drop, fifoLen]
    at inside ⊢
  omega

/-- By induction on the turns; the answers keep the command as it was. -/
theorem programMCULoop_stops (echoes : port.Echoes)
    (transfers : Transfers port TransferPacket) (buffer : List UInt8) (length : Nat)
    (mode : MCU_PROG_MODE) (turns : Nat) (CntEnd : UInt16) (packetNumber : Nat)
    (pkt : GenericPacket) (cmd : pkt.cmd = CMD_PROG_MCU) (terminate : Bool) (s : σ)
    (log : List Traffic) :
    ∃ traffic, (programMCULoop callback.logged TransferPacket buffer length mode turns CntEnd
        packetNumber pkt terminate (s, log)).2.2 = log ++ traffic ∧
      Stops traffic (programMCULoop callback.logged TransferPacket buffer length mode turns CntEnd
        packetNumber pkt terminate (s, log)).1 := by
  induction turns generalizing CntEnd packetNumber pkt terminate s log with
  | zero => exact ⟨[], by simp [programMCULoop], stops_nil _⟩
  | succ turns ih =>
    simp only [programMCULoop]
    split
    · exact ⟨[], by simp, stops_nil _⟩
    split
    · exact ⟨[], by simp, stops_nil _⟩
    rename_i inside
    obtain ⟨p, made, same, -⟩ := prepare_block cmd (not_lt.mp inside) mode packetNumber
    rcases transfers _ p s log made with
      ⟨code, s', moved, -⟩ | ⟨code, s', reply, s'', wrote, back, moved⟩
    · simp only [moved, ProgrammingCallback.notify_logged]
      split
      · exact ⟨_, rfl, stops_sent _ (stops_nil _)⟩
      split
      · exact ⟨_, rfl, stops_sent _ (stops_nil _)⟩
      obtain ⟨traffic, kept, stops⟩ := ih (CntEnd + 32) (packetNumber + 1)
        { blockRequest buffer mode CntEnd packetNumber pkt with inBuffer := [] } cmd
        (notify callback (CntEnd.toNat + fifoLen) (toInt32 length) [] s').1
        (notify callback (CntEnd.toNat + fifoLen) (toInt32 length) [] s').2 (log ++ [.sent p])
      refine ⟨.sent p :: traffic, ?_, stops_sent _ stops⟩
      rw [List.append_assoc] at kept
      exact kept
    · simp only [moved, ProgrammingCallback.notify_logged]
      split
      · exact ⟨_, rfl, stops_sent _ (stops_refused _ (by decide))⟩
      rename_i completed
      rw [not_not] at completed
      split
      · exact ⟨_, rfl, stops_sent _ (stops_received completed (stops_nil _))⟩
      obtain ⟨traffic, kept, stops⟩ := ih (CntEnd + 32) (packetNumber + 1)
        { blockRequest buffer mode CntEnd packetNumber pkt with
          cmd := reply.cmd, status := reply.status, inBuffer := reply.data }
        ((echoes s p s' reply s'' wrote back).trans same)
        (notify callback (CntEnd.toNat + fifoLen) (toInt32 length) [] s'').1
        (notify callback (CntEnd.toNat + fifoLen) (toInt32 length) [] s'').2
        (log ++ [.sent p, .received reply])
      refine ⟨.sent p :: .received reply :: traffic, ?_,
        stops_sent _ (stops_received completed stops)⟩
      rw [List.append_assoc] at kept
      exact kept

def mcuBlock (p : ProtocolLMS64C) : List UInt8 := (p.data.drop 2).take fifoLen

theorem block_turn (completes : port.Completes) (echoes : port.Echoes)
    (transfers : Transfers port TransferPacket) {CntEnd : UInt16} (cmd : pkt.cmd = CMD_PROG_MCU)
    (inside : CntEnd.toNat + fifoLen ≤ buffer.length) (mode : MCU_PROG_MODE) (packetNumber : Nat)
    (s : σ) (log : List Traffic) :
    ∃ p reply code pkt' s', TransferPacket (blockRequest buffer mode CntEnd packetNumber pkt)
        (s, log) = some (code, pkt', s', log ++ [.sent p, .received reply]) ∧
      pkt'.cmd = CMD_PROG_MCU ∧ pkt'.status = STATUS_COMPLETED_CMD ∧
      mcuBlock p = (buffer.drop CntEnd.toNat).take fifoLen := by
  obtain ⟨p, made, same, data⟩ := prepare_block cmd inside mode packetNumber
  obtain ⟨s₁, reply, s₂, wrote, back, completed⟩ := completes s p
  rcases transfers _ p s log made with
    ⟨_, _, _, lost⟩ | ⟨code, s₁', reply', s₂', wrote', back', moved⟩
  · exact absurd back (lost s₁ reply s₂ wrote)
  · cases wrote.symm.trans wrote'
    cases back.symm.trans back'
    refine ⟨p, reply, code, _, s₂, moved, (echoes s p s₁ reply s₂ wrote back).trans same,
      completed, ?_⟩
    have size : ((buffer.drop CntEnd.toNat).take fifoLen).length = fifoLen := by
      rw [List.length_take, List.length_drop]
      omega
    have fits : (blockRequest buffer mode CntEnd packetNumber pkt).outBuffer.length ≤
        maxDataLength := by
      simp only [blockRequest, List.length_cons, size]
      decide
    rw [mcuBlock, data, padded_eq fits]
    simp only [blockRequest, List.cons_append, List.drop_succ_cons, List.drop_zero]
    rw [List.take_left' size]

/-- By induction on the blocks that are left, of an image that the counter can count through. -/
theorem programMCULoop_sends (completes : port.Completes) (echoes : port.Echoes)
    (never : callback.NeverAborts) (transfers : Transfers port TransferPacket) {mode : MCU_PROG_MODE} (plain : mode ≠ .BOOT_SRAM_FROM_EEPROM)
    (left done turns : Nat) (whole : buffer.length = 32 * (done + left))
    (small : buffer.length < 65536) (enough : left < turns) (CntEnd : UInt16)
    (here : CntEnd.toNat = 32 * done) (packetNumber : Nat) (pkt : GenericPacket)
    (cmd : pkt.cmd = CMD_PROG_MCU) (s : σ) (log : List Traffic) :
    ∃ s' traffic, programMCULoop callback.logged TransferPacket buffer buffer.length mode turns
        CntEnd packetNumber pkt false (s, log) = (.returned 0, s', log ++ traffic) ∧
      (packets traffic).length = left ∧
      (packets traffic).flatMap mcuBlock = buffer.drop (32 * done) := by
  induction left generalizing done turns CntEnd packetNumber pkt s log with
  | zero =>
    cases turns with
    | zero => omega
    | succ turns =>
      refine ⟨s, [], ?_, rfl, ?_⟩
      · have past : ¬ CntEnd.toNat < buffer.length := by omega
        simp [programMCULoop, past]
      · rw [List.drop_of_length_le (by omega)]
        rfl
  | succ left ih =>
    cases turns with
    | zero => omega
    | succ turns =>
      have inside : CntEnd.toNat + fifoLen ≤ buffer.length := by
        unfold fifoLen
        omega
      obtain ⟨p, reply, code, pkt', s₁, moved, cmd', completed, block⟩ :=
        block_turn completes echoes transfers cmd inside mode packetNumber s log
      have next : (CntEnd + 32).toNat = 32 * (done + 1) := by
        rw [UInt16.toNat_add]
        have unit : (32 : UInt16).toNat = 32 := rfl
        omega
      have less : CntEnd.toNat < buffer.length := by
        unfold fifoLen at inside
        omega
      obtain ⟨s', traffic, ran, number, rest⟩ := ih (done + 1) turns (by omega)
        (by omega) (CntEnd + 32) next (packetNumber + 1) pkt' cmd'
        (notify callback (CntEnd.toNat + fifoLen) (toInt32 buffer.length) [] s₁).2
        (log ++ [.sent p, .received reply])
      refine ⟨s', .sent p :: .received reply :: traffic, ?_, ?_, ?_⟩
      · rw [programMCULoop, if_neg (by simp [less]), if_neg (not_lt.mpr inside)]
        simp only [moved, ProgrammingCallback.notify_logged, completed, plain, ne_eq,
          not_true_eq_false, if_false]
        rw [never, ran, List.append_assoc]
        rfl
      · rw [packets_turn, List.length_cons, number]
      · rw [packets_turn, List.flatMap_cons, block, rest, here, ← List.take_append_drop fifoLen
          (buffer.drop (32 * done)), List.drop_drop]
        simp [fifoLen, Nat.mul_add]

theorem programMCULoop_never (completes : port.Completes) (echoes : port.Echoes)
    (never : callback.NeverAborts) (transfers : Transfers port TransferPacket) {mode : MCU_PROG_MODE} (plain : mode ≠ .BOOT_SRAM_FROM_EEPROM)
    (other : ¬ (32 ∣ buffer.length ∧ buffer.length < 65536)) (turns : Nat) (CntEnd : UInt16)
    (block : 32 ∣ CntEnd.toNat) (less : CntEnd.toNat < buffer.length) (packetNumber : Nat)
    (pkt : GenericPacket) (cmd : pkt.cmd = CMD_PROG_MCU) (s : σ) (log : List Traffic) (code : Int) :
    (programMCULoop callback.logged TransferPacket buffer buffer.length mode turns CntEnd
      packetNumber pkt false (s, log)).1 ≠ .returned code := by
  induction turns generalizing CntEnd packetNumber pkt s log with
  | zero => simp [programMCULoop]
  | succ turns ih =>
    rw [programMCULoop, if_neg (by simp [less])]
    split
    · simp
    rename_i inside
    rw [not_lt] at inside
    obtain ⟨p, reply, code', pkt', s₁, moved, cmd', completed, -⟩ :=
      block_turn completes echoes transfers cmd inside mode packetNumber s log
    have next : (CntEnd + 32).toNat = (CntEnd.toNat + 32) % 65536 := by
      rw [UInt16.toNat_add]
      rfl
    have range := CntEnd.toNat_lt
    simp only [moved, ProgrammingCallback.notify_logged, completed, ne_eq, not_true_eq_false,
      if_false]
    rw [never]
    unfold fifoLen at inside
    apply ih
    · omega
    · by_cases wraps : CntEnd.toNat + 32 = 65536
      · omega
      · have apart : CntEnd.toNat + 32 ≠ buffer.length := fun same => other (by omega)
        omega
    · exact cmd'

/-- The image goes to the MCU in blocks, none of them from behind its end. -/
def ProgramsMCU (port : Port σ) (callback : ProgrammingCallback σ) (image : List UInt8)
    (mode : MCU_PROG_MODE) (s : σ) : Prop :=
  ∃ turns code s' traffic, programMCU port.logged callback.logged turns image image.length mode
      (s, []) = (.returned code, s', traffic) ∧
    (packets traffic).length = (image.length + 31) / 32 ∧
    image <+: (packets traffic).flatMap mcuBlock

theorem programsMCU_iff (completes : port.Completes) (echoes : port.Echoes)
    (never : callback.NeverAborts) (image : List UInt8) {mode : MCU_PROG_MODE}
    (plain : mode ≠ .BOOT_SRAM_FROM_EEPROM) (s : σ) :
    ProgramsMCU port callback image mode s ↔ 32 ∣ image.length ∧ image.length < 65536 := by
  have begun (turns : Nat) : programMCU port.logged callback.logged turns image image.length mode
      (s, []) = programMCULoop callback.logged (transferPacket port.logged.board) image image.length
        mode turns 0 0 (request CMD_PROG_MCU 0 []) false
        ((notify callback 0 (toInt32 image.length) [] s).2, []) := by
    rw [programMCU, ProgrammingCallback.notify_logged]
    dsimp only
    rw [never]
  constructor
  · intro sent
    obtain ⟨turns, code, s', traffic, ran, -⟩ := sent
    by_contra other
    have less : 0 < image.length := by
      by_contra none
      exact other (by omega)
    rw [begun] at ran
    refine programMCULoop_never completes echoes never (transferPacket_transfers port) plain other
      turns 0 (dvd_zero _) less 0 (request CMD_PROG_MCU 0 []) rfl
      (notify callback 0 (toInt32 image.length) [] s).2 [] code ?_
    rw [ran]
  · intro fits
    obtain ⟨⟨left, whole⟩, small⟩ := fits
    obtain ⟨s', traffic, ran, number, blocks⟩ := programMCULoop_sends completes echoes never
      (transferPacket_transfers port) plain left 0 (left + 1) (by omega) small
      (Nat.lt_succ_self _) 0 rfl 0 (request CMD_PROG_MCU 0 []) rfl
      (notify callback 0 (toInt32 image.length) [] s).2 []
    refine ⟨left + 1, 0, s', traffic, ?_, ?_, ?_⟩
    · rw [begun, ran, List.nil_append]
    · omega
    · rw [blocks]
      exact List.prefix_refl _

def portionNumberOf (p : ProtocolLMS64C) : Nat :=
  (((p.data.getD 1 0).toNat * 256 + (p.data.getD 2 0).toNat) * 256 +
    (p.data.getD 3 0).toNat) * 256 + (p.data.getD 4 0).toNat

def data_cntOf (p : ProtocolLMS64C) : UInt8 := p.data.getD 5 0

def portionBytes (p : ProtocolLMS64C) : List UInt8 := (p.data.drop 24).take (data_cntOf p).toNat

theorem portion_number {number : Nat}
    (small : number < 2 ^ 32) (data_cnt : UInt8) (data : List UInt8) :
    portionNumberOf (portion cmd prog_mode device number data_cnt data) = number := by
  simp only [portionNumberOf, portion, List.cons_append, List.getD_cons_succ, List.getD_cons_zero,
    UInt8.toNat_ofNat', Nat.shiftRight_eq_div_pow]
  omega

variable (number : Nat)

theorem portion_data_cnt (data_cnt : UInt8) (data : List UInt8) :
    data_cntOf (portion cmd prog_mode device number data_cnt data) = data_cnt := rfl

theorem portion_bytes {data_cnt : UInt8}
    {data : List UInt8} (counted : data.length = data_cnt.toNat) (small : data.length ≤ 32) :
    portionBytes (portion cmd prog_mode device number data_cnt data) = data := by
  have body : (portion cmd prog_mode device number data_cnt data).data.drop 24 =
      portionData data := by
    rw [portion, List.drop_left']
    simp [apply_ite List.length]
  rw [portionBytes, body, portion_data_cnt, portionData, List.take_take, List.take_append,
    ← counted, List.take_of_length_le (by simp [pktSize]; omega)]
  simp [pktSize, small]

def Portions (packets : List ProtocolLMS64C) (start : Nat) (image : List UInt8) : Prop :=
  packets.map portionNumberOf = List.range' start packets.length ∧
    ∃ portions last, packets = portions ++ [last] ∧ portions.flatMap portionBytes = image ∧
      (∀ p ∈ portions, data_cntOf p ≠ 0) ∧ data_cntOf last = 0

theorem Portions.cons {p : ProtocolLMS64C} {packets : List ProtocolLMS64C} {start : Nat}
    {image : List UInt8} (numbered : portionNumberOf p = start) (some : data_cntOf p ≠ 0)
    (rest : Portions packets (start + 1) image) :
    Portions (p :: packets) start (portionBytes p ++ image) := by
  obtain ⟨numbers, portions, last, rfl, bytes, counts, none⟩ := rest
  refine ⟨?_, p :: portions, last, rfl, ?_, ?_, none⟩
  · rw [List.map_cons, numbered, numbers, List.length_cons, List.range'_succ]
  · rw [List.flatMap_cons, bytes]
  · intro q mem
    cases mem with
    | head => exact some
    | tail _ mem => exact counts q mem

def portionOf (cmd : UInt8) (prog_mode device : Int) (number : Nat) (left : List UInt8) :
    ProtocolLMS64C :=
  portion cmd prog_mode device number (toUInt8 (left.take pktSize).length) (left.take pktSize)

variable (left : List UInt8)

theorem take_length_le : (left.take pktSize).length ≤ 32 := by
  rw [List.length_take, pktSize]
  omega

theorem portionOf_data_cnt :
    (data_cntOf (portionOf cmd prog_mode device number left)).toNat = (left.take pktSize).length :=
  toUInt8_toNat ((take_length_le left).trans (by decide))

theorem portion_turn (completes : port.Completes) (never : callback.NeverAborts) (cmd : UInt8)
    (prog_mode device total : Int) (n number : Nat) (left : List UInt8) (sent : Int) (s : σ)
    (log : List Traffic) :
    ∃ reply s' sent', programWriteLoop port.logged callback.logged cmd prog_mode device total true
        (n + 1) number left.length (some left) sent (s, log) =
      programWriteLoop port.logged callback.logged cmd prog_mode device total true n (number + 1)
        (left.drop pktSize).length (some (left.drop pktSize)) sent'
        (s', log ++ [.sent (portionOf cmd prog_mode device number left), .received reply]) := by
  have fits : (if (left.length : Int) > pktSize then (pktSize : Int) else left.length) =
      (left.take pktSize).length := by
    rw [List.length_take]
    split <;> omega
  have counted := portionOf_data_cnt cmd prog_mode device number left
  obtain ⟨s₁, reply, s₂, wrote, back, completed⟩ :=
    completes s (portionOf cmd prog_mode device number left)
  have taken : left.take (left.take pktSize).length = left.take pktSize := by
    rw [List.length_take, List.take_eq_take_iff]
    omega
  have dropped : left.drop (left.take pktSize).length = left.drop pktSize := by
    rw [List.length_take]
    rcases le_total pktSize left.length with more | less
    · rw [min_eq_left more]
    · rw [min_eq_right less, List.drop_length, List.drop_of_length_le less]
  have small := take_length_le left
  have short := left.length_take_le pktSize
  refine ⟨reply, (notify callback (sent + (left.take pktSize).length) total
    (ascii "in progress...") s₂).2, sent + (left.take pktSize).length, ?_⟩
  change (toUInt8 (left.take pktSize).length).toNat = _ at counted
  rw [programWriteLoop, fits]
  simp only [counted, taken, dropped, Option.getD_some, Option.map_some]
  rw [if_neg]
  · have write : port.logged.write (s, log) (portion cmd prog_mode device number
        (toUInt8 (left.take pktSize).length) (left.take pktSize)) =
        (true, s₁, log ++ [.sent (portionOf cmd prog_mode device number left)]) := by
      rw [portionOf] at *
      simp only [Port.logged, wrote]
    have read : port.logged.read
        (s₁, log ++ [.sent (portionOf cmd prog_mode device number left)]) =
        (some reply, s₂, log ++ [.sent (portionOf cmd prog_mode device number left),
          .received reply]) := by
      simp [Port.logged, back]
    have rest : (left.length : Int) - (left.take pktSize).length = (left.drop pktSize).length := by
      rw [List.length_take, List.length_drop]
      omega
    simp only [write, read, completed, ProgrammingCallback.notify_logged, rest, ne_eq,
      not_true_eq_false, if_false, Bool.true_eq_false]
    rw [never]
    rfl
  · rintro ⟨-, large | past⟩
    · have unit : pktSize = 32 := rfl
      omega
    · omega

theorem programWriteLoop_sends (completes : port.Completes) (never : callback.NeverAborts)
    (cmd : UInt8) (prog_mode device total : Int) (n number : Nat) (left : List UInt8)
    (whole : n = (left.length + 31) / 32) (small : number + n < 2 ^ 32) (sent : Int) (s : σ)
    (log : List Traffic) :
    ∃ s' traffic, programWriteLoop port.logged callback.logged cmd prog_mode device total true
        (n + 1) number left.length (some left) sent (s, log) =
          (.returned 0, s', log ++ traffic) ∧
      Portions (packets traffic) number left := by
  induction n generalizing number left sent s log with
  | zero =>
    have none : left = [] := List.length_eq_zero_iff.mp (by omega)
    subst none
    obtain ⟨reply, s₁, sent', ran⟩ := portion_turn completes never cmd prog_mode device total 0
      number [] sent s log
    refine ⟨(notify callback sent' total (ascii "programming: completed") s₁).2,
      [.sent (portionOf cmd prog_mode device number []), .received reply], ran.trans ?_, ?_,
      [], _, rfl, rfl, ?_, rfl⟩
    · simp only [programWriteLoop, endProgramming, ProgrammingCallback.notify_logged]
      rfl
    · exact congrArg (· :: []) (portion_number cmd prog_mode device small _ _)
    · intro p mem
      cases mem
  | succ n ih =>
    obtain ⟨reply, s₁, sent', ran⟩ := portion_turn completes never cmd prog_mode device total
      (n + 1) number left sent s log
    have rest : n = ((left.drop pktSize).length + 31) / 32 := by
      rw [List.length_drop, pktSize]
      omega
    obtain ⟨s', traffic, ran', portions⟩ := ih (number + 1) (left.drop pktSize) rest (by omega)
      sent' s₁ (log ++ [.sent (portionOf cmd prog_mode device number left), .received reply])
    refine ⟨s', .sent (portionOf cmd prog_mode device number left) :: .received reply :: traffic,
      ?_, ?_⟩
    · rw [ran, ran', List.append_assoc]
      rfl
    · have counted := portionOf_data_cnt cmd prog_mode device number left
      have bytes : portionBytes (portionOf cmd prog_mode device number left) =
          left.take pktSize :=
        portion_bytes cmd prog_mode device number counted.symm (take_length_le left)
      have some : data_cntOf (portionOf cmd prog_mode device number left) ≠ 0 := by
        intro zero
        rw [zero, List.length_take, pktSize] at counted
        have none : (0 : UInt8).toNat = 0 := rfl
        omega
      have numbered : portionNumberOf (portionOf cmd prog_mode device number left) = number :=
        portion_number cmd prog_mode device (by omega) _ _
      have sent := portions.cons numbered some
      rwa [bytes, List.take_append_drop] at sent

theorem programWrite_sends (completes : port.Completes) (never : callback.NeverAborts)
    {image : List UInt8} (some_bytes : image ≠ []) (small : image.length < 2 ^ 31)
    {prog_mode device : Int} (target : device = HPM ∨ device = FX3 ∨ device = FPGA)
    (needs : needsData prog_mode device = true) (s : σ) :
    ∃ s' traffic, programWrite port.logged callback.logged true (some image) image.length prog_mode
        device (s, []) = (.returned 0, s', traffic) ∧ Portions (packets traffic) 0 image := by
  have length : image.length ≠ 0 := fun none => some_bytes (List.length_eq_zero_iff.mp none)
  have count : (toInt32 (image.length / pktSize +
      (if image.length % pktSize > 0 then 1 else 0) + 1 : Nat)).toNat =
        (image.length + 31) / 32 + 1 := by
    rw [toInt32_small, pktSize]
    · split_ifs <;> omega
    · rw [pktSize]
      split_ifs <;> omega
  have run (cmd : UInt8) := programWriteLoop_sends completes never cmd prog_mode device
    (toInt32 image.length) _ 0 image rfl (by omega) 0 s []
  have total : toInt32 image.length = image.length := toInt32_small small
  rw [programWrite]
  simp only [length, false_and, if_false, needs, count, total, Bool.true_eq_false]
  rw [total] at run
  split_ifs with first second
  · exact run CMD_MEMORY_WR
  · exact run CMD_ALTERA_FPGA_GW_WR
  · rcases target with here | here | here
    · exact absurd (Or.inl here) first
    · exact absurd (Or.inr here) first
    · exact absurd here second

theorem programMCU_stops (echoes : port.Echoes) (turns : Nat) (buffer : List UInt8) (length : Nat)
    (mode : MCU_PROG_MODE) (s : σ) :
    Stops (programMCU port.logged callback.logged turns buffer length mode (s, [])).2.2
      (programMCU port.logged callback.logged turns buffer length mode (s, [])).1 := by
  rw [programMCU, ProgrammingCallback.notify_logged]
  obtain ⟨traffic, kept, stops⟩ := programMCULoop_stops echoes (transferPacket_transfers port)
    buffer length mode turns 0 0 (request CMD_PROG_MCU 0 []) rfl
    (notify callback 0 (toInt32 length) [] s).1 (notify callback 0 (toInt32 length) [] s).2 []
  dsimp only
  rw [kept]
  exact stops

/-- An image is sent whole by `ProgramWrite`, and by `ProgramMCU` where its blocks are whole and
    counted in 16 bits; a refused packet stops both. -/
theorem firmware_sent_whole (completes : port.Completes) (echoes : port.Echoes)
    (never : callback.NeverAborts) (image : List UInt8) (small : image.length < 2 ^ 31) (s : σ) :
    (∀ prog_mode device, image ≠ [] → device = HPM ∨ device = FX3 ∨ device = FPGA →
      needsData prog_mode device = true →
      ∃ s' traffic, programWrite port.logged callback.logged true (some image) image.length
        prog_mode device (s, []) = (.returned 0, s', traffic) ∧
          Portions (packets traffic) 0 image) ∧
    (∀ mode, mode ≠ .BOOT_SRAM_FROM_EEPROM →
      (ProgramsMCU port callback image mode s ↔ 32 ∣ image.length ∧ image.length < 65536)) ∧
    ∀ (any : Port σ) (callback : ProgrammingCallback σ),
      (∀ isOpen data_src prog_mode device, Stops
        (programWrite any.logged callback.logged isOpen data_src image.length prog_mode device
          (s, [])).2.2
        (programWrite any.logged callback.logged isOpen data_src image.length prog_mode device
          (s, [])).1) ∧
      (any.Echoes → ∀ turns mode, Stops
        (programMCU any.logged callback.logged turns image image.length mode (s, [])).2.2
        (programMCU any.logged callback.logged turns image image.length mode (s, [])).1) := by
  refine ⟨?_, ?_, ?_⟩
  · intro prog_mode device some_bytes target needs
    exact programWrite_sends completes never some_bytes small target needs s
  · intro mode plain
    exact programsMCU_iff completes echoes never image plain s
  · intro any callback
    constructor
    · intro isOpen data_src prog_mode device
      exact programWrite_stops any callback isOpen data_src image.length prog_mode device s
    · intro echoes turns mode
      exact programMCU_stops echoes turns image image.length mode s

def diligent : Port (Option ProtocolLMS64C) where
  write _ p := (true, some p)
  read s := (s.map fun p => { p with status := STATUS_COMPLETED_CMD }, s)

theorem diligent_completes : diligent.Completes :=
  fun _ _ => ⟨_, _, _, rfl, rfl, rfl⟩

theorem diligent_echoes : diligent.Echoes := by
  intro s p s' reply s'' wrote back
  cases wrote
  cases back
  rfl

theorem firmware_sent_whole_block :
    ProgramsMCU diligent none (List.replicate 32 7) .SRAM none := by
  have whole := @firmware_sent_whole _ diligent none diligent_completes diligent_echoes
    (fun _ _ _ _ => rfl) (List.replicate 32 7) (by simp) none
  exact (whole.2.1 .SRAM (by decide)).mpr (by simp)

/-- Of an image of one byte another 31 bytes are read. -/
theorem firmware_sent_fails : ¬ ∀ image : List UInt8, image.length < 2 ^ 31 →
    ProgramsMCU diligent none image .SRAM none := by
  intro whole
  have one := (programsMCU_iff diligent_completes diligent_echoes (fun _ _ _ _ => rfl) [0]
    (by decide) none).mp (whole [0] (by simp))
  simp at one

end LMS64C

end Soapy.Lime
