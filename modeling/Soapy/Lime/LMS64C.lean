import Soapy.Lib.Records
import Soapy.Lime.Fifo
import Soapy.Lime.LMS7002M

/-! # LMS64C packets

A request is cut into packets of 64 bytes, each answered by a packet of 64 bytes. The
number of packets and of blocks are C `int`s: where the arithmetic leaves their range,
or the buffer would get a negative size, there is no result.
-/

namespace Soapy.Lime

namespace LMS64C

def pktLength : Nat := 64

def maxDataLength : Nat := 56

def CMD_GET_INFO : UInt8 := 0x00
def CMD_SI5356_WR : UInt8 := 0x11
def CMD_SI5356_RD : UInt8 := 0x12
def CMD_SI5351_WR : UInt8 := 0x13
def CMD_SI5351_RD : UInt8 := 0x14
def CMD_LMS7002_WR : UInt8 := 0x21
def CMD_LMS7002_RD : UInt8 := 0x22
def CMD_PROG_MCU : UInt8 := 0x2C
def CMD_ADF4002_WR : UInt8 := 0x31
def CMD_BRDSPI_WR : UInt8 := 0x55
def CMD_BRDSPI_RD : UInt8 := 0x56
def CMD_BRDSPI8_RD : UInt8 := 0x58
def CMD_ANALOG_VAL_WR : UInt8 := 0x61
def CMD_ANALOG_VAL_RD : UInt8 := 0x62

def STATUS_UNDEFINED : UInt8 := 0
def STATUS_COMPLETED_CMD : UInt8 := 1
def STATUS_UNKNOWN_CMD : UInt8 := 2

def INT_MAX : Int := 2147483647

def EPROTO : Int := 71

def EPROTONOSUPPORT : Int := 93

end LMS64C

open LMS64C

structure GenericPacket where
  cmd : UInt8
  status : UInt8
  periphID : UInt32
  outBuffer : List UInt8
  inBuffer : List UInt8

structure ProtocolLMS64C where
  cmd : UInt8
  status : UInt8
  blockCount : UInt8
  periphID : UInt8
  data : List UInt8
  sized : data.length = maxDataLength

namespace ProtocolLMS64C

/-- The packet on the line, with its four reserved bytes. -/
def bytes (p : ProtocolLMS64C) : List UInt8 :=
  [p.cmd, p.status, p.blockCount, p.periphID, 0, 0, 0, 0] ++ p.data

theorem bytes_length (p : ProtocolLMS64C) : p.bytes.length = pktLength := by
  rw [bytes, List.length_append, p.sized]
  rfl

end ProtocolLMS64C

/-- Zeros up to the size of a packet's data, which nothing exceeds. -/
def padded (payload : List UInt8) : List UInt8 :=
  (payload ++ List.replicate maxDataLength 0).take maxDataLength

theorem padded_length (payload : List UInt8) : (padded payload).length = maxDataLength := by
  simp [padded]

namespace LMS64C

def byteBlockRatio (cmd : UInt8) : Nat :=
  if cmd = CMD_PROG_MCU ∨ cmd = CMD_GET_INFO ∨ cmd = CMD_SI5351_RD ∨ cmd = CMD_SI5356_RD then 1
  else if cmd = CMD_SI5351_WR ∨ cmd = CMD_SI5356_WR then 2
  else if cmd = CMD_LMS7002_RD ∨ cmd = CMD_BRDSPI_RD ∨ cmd = CMD_BRDSPI8_RD then 2
  else if cmd = CMD_ADF4002_WR then 3
  else if cmd = CMD_LMS7002_WR ∨ cmd = CMD_BRDSPI_WR ∨ cmd = CMD_ANALOG_VAL_WR then 4
  else 1

/-- What `PreparePacket` makes of `maxDataLength`: the replies to some reads are longer than
    the requests. -/
def dataLength (cmd : UInt8) : Nat :=
  let length := if cmd = CMD_LMS7002_RD ∨ cmd = CMD_BRDSPI_RD then maxDataLength / 2 else maxDataLength
  if cmd = CMD_ANALOG_VAL_RD then length / 4 else length

def blocksPerPacket (cmd : UInt8) : Nat := dataLength cmd / byteBlockRatio cmd

/-- A signed `int` as `unsigned char`. -/
def toUInt8 (n : Int) : UInt8 := UInt8.ofNat (n % 256).toNat

end LMS64C

namespace GenericPacket

/-- The loop of `PreparePacket`: the packets from `source` on. -/
def packLoop (pkt : GenericPacket) : Nat → Int → List UInt8 → List ProtocolLMS64C
  | 0, _, _ => []
  | n + 1, blockCount, source =>
    let full := blocksPerPacket pkt.cmd
    let bytesToPack := full * byteBlockRatio pkt.cmd
    { cmd := pkt.cmd
      status := pkt.status
      blockCount := if blockCount > full then UInt8.ofNat full else toUInt8 blockCount
      periphID := pkt.periphID.toUInt8
      data := padded (source.take bytesToPack)
      sized := padded_length _ } ::
    pkt.packLoop n (if blockCount > full then blockCount - full else blockCount)
      (source.drop bytesToPack)

/-- `blockCount` before the loop: a `size_t` becomes an `int`. -/
def blockCount (pkt : GenericPacket) : Int :=
  toInt32 (pkt.outBuffer.length / byteBlockRatio pkt.cmd : Nat)

def packetsFor (full blockCount : Int) : Int :=
  blockCount.tdiv full + if blockCount.tmod full ≠ 0 then 1 else 0

/-- `bufLen`, where the arithmetic stays in range. -/
def bufLen (packets : Int) : Option Int :=
  let bufLen := packets * pktLength
  if bufLen < -INT_MAX - 1 ∨ INT_MAX < bufLen then none
  else if bufLen = 0 then some pktLength
  else some bufLen

def preparePacket (pkt : GenericPacket) : Option (List ProtocolLMS64C) :=
  (bufLen (packetsFor (blocksPerPacket pkt.cmd) pkt.blockCount)).bind fun bufLen =>
    -- `new` throws
    if bufLen < 0 then none
    else some (pkt.packLoop (bufLen.toNat / pktLength) pkt.blockCount pkt.outBuffer)

def parsePacket (pkt : GenericPacket) (replies : List ProtocolLMS64C) : GenericPacket :=
  { pkt with
    cmd := (replies.getLast?.map (·.cmd)).getD pkt.cmd
    status := (replies.getLast?.map (·.status)).getD pkt.status
    inBuffer := replies.flatMap (·.data) }

end GenericPacket

/-- What is at the other end. There is no answer where `Write` or `Read` moves less than a
    packet. -/
structure Board (σ : Type) where
  answer : σ → ProtocolLMS64C → Option ProtocolLMS64C × σ

namespace Board

variable {σ : Type}

/-- The loop of `TransferPacket`. -/
def exchange (d : Board σ) : List ProtocolLMS64C → σ → Bool × List ProtocolLMS64C × σ
  | [], s => (true, [], s)
  | p :: rest, s =>
    match d.answer s p with
    | (none, s) => (false, [], s)
    | (some reply, s) =>
      let (ok, replies, s) := d.exchange rest s
      (ok, reply :: replies, s)

end Board

namespace LMS64C

variable {σ : Type}

def convertStatus (status : Int) (pkt : GenericPacket) : Int :=
  if status ≠ 0 then -1
  else if pkt.status = STATUS_COMPLETED_CMD then 0
  else if pkt.status = STATUS_UNKNOWN_CMD then EPROTONOSUPPORT
  else EPROTO

def transferPacket (d : Board σ) (pkt : GenericPacket) (s : σ) : Option (Int × GenericPacket × σ) :=
  pkt.preparePacket.map fun packets =>
    let (ok, replies, s) := d.exchange packets s
    let pkt := pkt.parsePacket replies
    (convertStatus (if ok then 0 else -1) pkt, pkt, s)

/-- A request with the defaults of `GenericPacket`. -/
def request (cmd : UInt8) (periphID : UInt32) (outBuffer : List UInt8) : GenericPacket :=
  { cmd := cmd
    status := STATUS_UNDEFINED
    periphID := periphID
    outBuffer := outBuffer
    inBuffer := [] }

/-- `addr >> 8` and `addr & 0xFF` as bytes. -/
def wordBytes (word : UInt16) : List UInt8 := [(word >>> 8).toUInt8, (word &&& 0xFF).toUInt8]

/-- The same of a wider word, of which `push_back` takes the low byte. -/
def wideBytes (word : UInt32) : List UInt8 := [(word >>> 8).toUInt8, (word &&& 0xFF).toUInt8]

def ofBytes (hi lo : UInt8) : UInt32 := (hi.toUInt32 <<< 8) ||| lo.toUInt32

def writeRecords (d : Board σ) (cmd : UInt8) (periphID : UInt32) (outBuffer : List UInt8) (s : σ) :
    Option (Int × σ) :=
  (transferPacket d (request cmd periphID outBuffer) s).map fun (status, pkt, s) =>
    (convertStatus status pkt, s)

/-- A request for reads. What is not read stays as it was in `data`. -/
def readRecords (d : Board σ) (cmd : UInt8) (periphID : UInt32) (outBuffer : List UInt8)
    (size : Nat) (data : List UInt32) (s : σ) : Option (Int × List UInt32 × σ) :=
  (transferPacket d (request cmd periphID outBuffer) s).map fun (status, pkt, s) =>
    let numRead := min (pkt.inBuffer.length / 4) size
    let values := (List.range numRead).map fun i =>
      ofBytes (pkt.inBuffer.getD (4 * i + 2) 0) (pkt.inBuffer.getD (4 * i + 3) 0)
    (convertStatus status pkt, values ++ data.drop numRead, s)

def writeLMS7002MSPI (d : Board σ) (writeData : List UInt32) (periphID : UInt32) (s : σ) :
    Option (Int × σ) :=
  let outBuffer := writeData.flatMap fun w => wordBytes (wordAddress w) ++ wordBytes (wordData w)
  writeRecords d CMD_LMS7002_WR periphID outBuffer s

def readLMS7002MSPI (d : Board σ) (writeData readData : List UInt32) (periphID : UInt32) (s : σ) :
    Option (Int × List UInt32 × σ) :=
  let outBuffer := writeData.flatMap fun w => wordBytes (wordAddress w)
  readRecords d CMD_LMS7002_RD periphID outBuffer writeData.length readData s

def writeRegisters (d : Board σ) (writes : List (UInt32 × UInt32)) (s : σ) : Option (Int × σ) :=
  let outBuffer := writes.flatMap fun w => wideBytes w.1 ++ wideBytes w.2
  writeRecords d CMD_BRDSPI_WR 0 outBuffer s

def readRegisters (d : Board σ) (addrs data : List UInt32) (s : σ) :
    Option (Int × List UInt32 × σ) :=
  readRecords d CMD_BRDSPI_RD 0 (addrs.flatMap wideBytes) addrs.length data s

end LMS64C

namespace ProtocolLMS64C

/-- As many addresses as there are, at most `k`. -/
def addressesIn : Nat → List UInt8 → List UInt16
  | k + 1, hi :: lo :: rest => (LMS64C.ofBytes hi lo).toUInt16 :: addressesIn k rest
  | _, _ => []

def recordsIn : Nat → List UInt8 → List (UInt16 × UInt16)
  | k + 1, ah :: al :: vh :: vl :: rest =>
    ((LMS64C.ofBytes ah al).toUInt16, (LMS64C.ofBytes vh vl).toUInt16) :: recordsIn k rest
  | _, _ => []

def addresses (p : ProtocolLMS64C) : List UInt16 := addressesIn p.blockCount.toNat p.data

def records (p : ProtocolLMS64C) : List (UInt16 × UInt16) := recordsIn p.blockCount.toNat p.data

end ProtocolLMS64C

/-- A board that answers each address of a read packet by a record of address and value, in
    order, and applies the records of a write packet, in order. -/
structure Board.Serves {σ : Type} (d : Board σ) (value : σ → UInt16 → UInt16)
    (applied : σ → List (UInt16 × UInt16)) (readCmd writeCmd : UInt8) : Prop where
  reads : ∀ s p, p.cmd = readCmd → p.blockCount ≤ 14 → ∃ reply s',
    d.answer s p = (some reply, s') ∧ reply.status = STATUS_COMPLETED_CMD ∧ value s' = value s ∧
      (p.addresses.flatMap fun a => wordBytes a ++ wordBytes (value s a)) <+: reply.data
  writes : ∀ s p, p.cmd = writeCmd → p.blockCount ≤ 14 → ∃ reply s',
    d.answer s p = (some reply, s') ∧ reply.status = STATUS_COMPLETED_CMD ∧
      applied s' = applied s ++ p.records

end Soapy.Lime
