import Soapy.Lib.Bytes
import Soapy.Lime.LMS64CBatches

/-! # Programming over LMS64C

A firmware image is sent in portions of 32 bytes. A run has no result where the image is read past
its end, or a packet written past its.
-/

namespace Soapy.Lime

open Lib LMS64C

namespace LMS64C

def CMD_ALTERA_FPGA_GW_WR : UInt8 := 0x53
def CMD_MEMORY_WR : UInt8 := 0x8C

def EIO : Int := 5

def ENOTSUP : Int := 95

def ECONNABORTED : Int := 103

def ENOTCONN : Int := 107

/-- `ProgramWriteTarget`. -/
def HPM : Int := 0
def FX3 : Int := 1
def FPGA : Int := 2

def statusText : List Bytes :=
  [ascii "Undefined/Failure", ascii "Completed", ascii "Unknown command", ascii "Busy",
    ascii "Too many blocks", ascii "Error", ascii "Wrong order", ascii "Resource denied"]

def status2string (status : UInt8) : Bytes :=
  statusText.getD status.toNat (ascii "Unknown status")

end LMS64C

/-- A control port: `Write` and `Read` of a packet, which fail where they move less than one. -/
structure Port (σ : Type) where
  write : σ → ProtocolLMS64C → Bool × σ
  read : σ → Option ProtocolLMS64C × σ

/-- `ProgrammingCallback`, from the bytes sent, the bytes in total and a message to whether it
    aborts. -/
abbrev ProgrammingCallback (σ : Type) := Option (Int → Int → Bytes → σ → Bool × σ)

inductive Outcome where
  | returned (code : Int)
  | undefined
  | running
  deriving DecidableEq

inductive MCU_PROG_MODE where
  | RESET
  | EEPROM_AND_SRAM
  | SRAM
  | BOOT_SRAM_FROM_EEPROM
  deriving DecidableEq

def MCU_PROG_MODE.code : MCU_PROG_MODE → UInt8
  | .RESET => 0
  | .EEPROM_AND_SRAM => 1
  | .SRAM => 2
  | .BOOT_SRAM_FROM_EEPROM => 3

namespace Port

variable {σ : Type}

def board (port : Port σ) : Board σ where
  answer s p :=
    match port.write s p with
    | (false, s) => (none, s)
    | (true, s) => port.read s

end Port

namespace LMS64C

variable {σ : Type} (port : Port σ) (callback : ProgrammingCallback σ)

def notify (sent total : Int) (message : Bytes) (s : σ) : Bool × σ :=
  match callback with
  | none => (false, s)
  | some callback => callback sent total message s

def pktSize : Nat := 32

def portionData (data : List UInt8) : List UInt8 := (data ++ List.replicate pktSize 0).take pktSize

/-- `ctrbuf`. -/
def portion (cmd : UInt8) (prog_mode device : Int) (portionNumber : Nat) (data_cnt : UInt8)
    (data : List UInt8) : ProtocolLMS64C where
  cmd := cmd
  status := 0
  blockCount := 56
  periphID := 0
  data := [toUInt8 prog_mode, UInt8.ofNat (portionNumber >>> 24),
      UInt8.ofNat (portionNumber >>> 16), UInt8.ofNat (portionNumber >>> 8),
      UInt8.ofNat portionNumber, data_cnt] ++
    (if cmd = CMD_MEMORY_WR then [0, 0, 0, 0, toUInt8 (device >>> 8), toUInt8 device]
      else List.replicate 6 0) ++
    List.replicate 12 0 ++ portionData data
  sized := by
    split <;> simp [portionData, pktSize, maxDataLength]

/-- The end of `ProgramWrite`, after its loop. -/
def endProgramming (abortProgramming : Bool) (bytesSent total : Int) (s : σ) : Outcome × σ :=
  if abortProgramming then
    let (_, s) := notify callback bytesSent total (ascii "programming: aborted by user") s
    (.returned ECONNABORTED, s)
  else
    let (_, s) := notify callback bytesSent total (ascii "programming: completed") s
    (.returned 0, s)

/-- The loop of `ProgramWrite`, with the number of portions that are left. -/
def programWriteLoop (cmd : UInt8) (prog_mode device : Int) (total : Int) (needsData : Bool) :
    Nat → Nat → Int → Option (List UInt8) → Int → σ → Outcome × σ
  | 0, _, _, _, bytesSent, s => endProgramming callback false bytesSent total s
  | n + 1, portionNumber, data_left, data_src, bytesSent, s =>
    let data_cnt := toUInt8 (if data_left > pktSize then pktSize else data_left)
    -- `memcpy` from the image into the packet
    if data_src.isSome ∧ (pktSize < data_cnt.toNat ∨ (data_src.getD []).length < data_cnt.toNat)
    then (.undefined, s)
    else
      let data := (data_src.getD []).take data_cnt.toNat
      let data_src := data_src.map (·.drop data_cnt.toNat)
      match port.write s (portion cmd prog_mode device portionNumber data_cnt data) with
      | (false, s) =>
        let (_, s) := notify callback bytesSent total
          (ascii "Programming failed! Write operation failed") s
        (.returned EIO, s)
      | (true, s) =>
        match port.read s with
        | (none, s) =>
          let (_, s) := notify callback bytesSent total
            (ascii "Programming failed! Read operation failed") s
          (.returned EIO, s)
        | (some reply, s) =>
          let data_left := data_left - data_cnt.toNat
          let bytesSent := bytesSent + data_cnt.toNat
          if reply.status ≠ STATUS_COMPLETED_CMD then
            let (_, s) := notify callback bytesSent total
              (ascii "Programming failed! " ++ status2string reply.status) s
            (.returned EPROTO, s)
          else if needsData = false then endProgramming callback false total total s
          else
            let (abortProgramming, s) :=
              notify callback bytesSent total (ascii "in progress...") s
            if abortProgramming then endProgramming callback true bytesSent total s
            else programWriteLoop cmd prog_mode device total needsData n (portionNumber + 1)
              data_left data_src bytesSent s

/-- Only one packet is needed to initiate a bitstream from flash, or to erase. -/
def needsData (prog_mode device : Int) : Bool :=
  if device = FX3 ∧ (prog_mode = 0 ∨ prog_mode = 1) then false
  else if device = FPGA ∧ prog_mode = 2 then false
  else true

def programWrite (isOpen : Bool) (data_src : Option (List UInt8)) (length : Nat)
    (prog_mode device : Int) (s : σ) : Outcome × σ :=
  let needsData := needsData prog_mode device
  let total := toInt32 length
  if length = 0 ∧ needsData then (.returned EIO, s)
  else if isOpen = false then (.returned ENOTCONN, s)
  else
    let portionsCount :=
      toInt32 (length / pktSize + (if length % pktSize > 0 then 1 else 0) + 1 : Nat)
    if device = HPM ∨ device = FX3 then
      programWriteLoop port callback CMD_MEMORY_WR prog_mode device total needsData
        portionsCount.toNat 0 total data_src 0 s
    else if device = FPGA then
      programWriteLoop port callback CMD_ALTERA_FPGA_GW_WR prog_mode device total needsData
        portionsCount.toNat 0 total data_src 0 s
    else
      let (_, s) := notify callback 0 total
        (ascii "Programming failed! Target device not supported") s
      (.returned ENOTSUP, s)

def fifoLen : Nat := 32

def blockRequest (buffer : List UInt8) (mode : MCU_PROG_MODE) (CntEnd : UInt16)
    (packetNumber : Nat) (pkt : GenericPacket) : GenericPacket :=
  { pkt with
    outBuffer := mode.code :: UInt8.ofNat packetNumber :: (buffer.drop CntEnd.toNat).take fifoLen }

/-- The loop of `ProgramMCU`, for so many turns, over `TransferPacket`. The counter has 16 bits. -/
def programMCULoop (TransferPacket : GenericPacket → σ → Option (Int × GenericPacket × σ))
    (buffer : List UInt8) (length : Nat) (mode : MCU_PROG_MODE) :
    Nat → UInt16 → Nat → GenericPacket → Bool → σ → Outcome × σ
  | 0, _, _, _, _, s => (.running, s)
  | turns + 1, CntEnd, packetNumber, pkt, terminate, s =>
    if ¬ (CntEnd.toNat < length ∧ terminate = false) then (.returned 0, s)
    else if buffer.length < CntEnd.toNat + fifoLen then (.undefined, s)
    else
      match TransferPacket (blockRequest buffer mode CntEnd packetNumber pkt) s with
      | none => (.undefined, s)
      | some (_, pkt, s) =>
        let (terminate, s) := notify callback (CntEnd.toNat + fifoLen) (toInt32 length) [] s
        if pkt.status ≠ STATUS_COMPLETED_CMD then (.returned (-1), s)
        else if mode = .BOOT_SRAM_FROM_EEPROM then
          -- only the first packet is sent
          let (_, s) := notify callback 1 1 [] s
          (.returned 0, s)
        else programMCULoop TransferPacket buffer length mode turns (CntEnd + 32)
          (packetNumber + 1) pkt terminate s

def programMCU (turns : Nat) (buffer : List UInt8) (length : Nat) (mode : MCU_PROG_MODE) (s : σ) :
    Outcome × σ :=
  let (terminate, s) := notify callback 0 (toInt32 length) [] s
  programMCULoop callback (transferPacket port.board) buffer length mode turns 0 0
    (request CMD_PROG_MCU 0 []) terminate s

end LMS64C

end Soapy.Lime
