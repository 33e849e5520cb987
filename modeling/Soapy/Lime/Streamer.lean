import Soapy.Lime.Fifo
import Soapy.Lib.Runs

/-! # Stream channels and their threads

Two receive and two transmit channels share two threads, one stream size, one link
format and the registers of the FPGA. The calls of the user set channels up, start, stop
and close them; `UpdateThreads` brings the threads in line.

Sample rates, batch sizes and the alignment of the receivers are left out. The alignment
writes register 0x0007 too, but `UpdateThreads` writes it again after that.
-/

namespace Soapy.Lime

inductive StreamDataFormat where
  | FMT_INT16
  | FMT_INT12
  | FMT_FLOAT32
  deriving DecidableEq

open StreamDataFormat

def samples12InPkt : Nat := 1360

def samples16InPkt : Nat := 1020

structure StreamConfig where
  isTx : Bool
  channelID : UInt8
  bufferLength : Nat
  linkFormat : StreamDataFormat

/-- The sizes of a `RingFIFO`. -/
structure FifoSize where
  mPktSize : Nat
  mBufferSize : Nat

namespace FifoSize

def new : FifoSize := ⟨0, 0⟩

/-- `Resize` without a buffer size. -/
def resize (f : FifoSize) (pktSize : Nat) : FifoSize :=
  ⟨pktSize, f.mPktSize * f.mBufferSize / pktSize⟩

end FifoSize

structure StreamChannel where
  linkFormat : StreamDataFormat
  mActive : Bool
  used : Bool
  fifo : Option FifoSize

namespace StreamChannel

def new : StreamChannel where
  linkFormat := FMT_INT16
  mActive := false
  used := false
  fifo := none

def setup (c : StreamChannel) (config : StreamConfig) : StreamChannel :=
  let bufferLength : Int :=
    if config.bufferLength = 0 then 1024 * 4 * 1024 else toInt32 config.bufferLength
  let pktSize := if config.linkFormat ≠ FMT_INT12 then samples16InPkt else samples12InPkt
  let bufferLength : Int := if bufferLength < 4 * pktSize then 4 * pktSize else bufferLength
  { c with
    used := true
    linkFormat := config.linkFormat
    fifo := some ⟨pktSize, bufferLength.toNat / pktSize⟩ }

def wide (c : StreamChannel) : Bool := c.used && c.linkFormat ≠ FMT_INT12

/-- A channel that a thread has something to do for. -/
def live (c : StreamChannel) : Bool := c.used && c.mActive

end StreamChannel

/-- The value at the true argument is for transmission, at the false one for reception. -/
structure Streamer where
  mStreams : Bool → Fin 2 → StreamChannel
  /-- A running thread, by the samples per packet that it has computed at its start. -/
  thread : Bool → Option Nat
  streamSize : Nat
  dataLinkFormat : StreamDataFormat
  /-- What was last written to FPGA register 0x0007. -/
  register7 : UInt16

namespace Streamer

def new (dataLinkFormat : StreamDataFormat) (register7 : UInt16) : Streamer where
  mStreams := fun _ _ => .new
  thread := fun _ => none
  streamSize := 1
  dataLinkFormat := dataLinkFormat
  register7 := register7

def mRxStreams (s : Streamer) : Fin 2 → StreamChannel := s.mStreams false

def mTxStreams (s : Streamer) : Fin 2 → StreamChannel := s.mStreams true

def rxThread (s : Streamer) : Option Nat := s.thread false

def txThread (s : Streamer) : Option Nat := s.thread true

def setStream (s : Streamer) (isTx : Bool) (ch : Fin 2) (c : StreamChannel) : Streamer :=
  { s with mStreams := Function.update s.mStreams isTx (Function.update (s.mStreams isTx) ch c) }

/-- The channel index is used in one direction at least. -/
def usedAt (s : Streamer) (ch : Fin 2) : Bool := (s.mTxStreams ch).used || (s.mRxStreams ch).used

def running (s : Streamer) : Bool := s.txThread.isSome || s.rxThread.isSome

/-- The packets are not compressed: some channel is wide. -/
def wide (s : Streamer) : Bool :=
  (s.mRxStreams 0).wide || (s.mRxStreams 1).wide || (s.mTxStreams 0).wide || (s.mTxStreams 1).wide

def resizeChannelBuffers (s : Streamer) : Streamer :=
  let pktSize := (if s.wide then samples16InPkt else samples12InPkt) / s.streamSize
  { s with
    mStreams := fun isTx ch =>
      let c := s.mStreams isTx ch
      if c.used then { c with fifo := c.fifo.map (·.resize pktSize) } else c }

def channelEnables (s : Streamer) : UInt16 :=
  (if s.usedAt 0 then 1 else 0) + 2 * if s.usedAt 1 then 1 else 0

/-- What is done on the first start. -/
def configure (s : Streamer) : Streamer :=
  let s := s.resizeChannelBuffers
  { s with
    dataLinkFormat := if s.wide then FMT_INT16 else FMT_INT12
    register7 := s.channelEnables }

/-- What the loops compute at their start. -/
def samplesInPacket (s : Streamer) : Nat :=
  (if s.dataLinkFormat = FMT_INT12 then samples12InPkt else samples16InPkt) / s.streamSize

/-- Some channel of the direction needs its thread. -/
def need (s : Streamer) (isTx : Bool) : Bool :=
  (s.mStreams isTx 0).live || (s.mStreams isTx 1).live

def stopThreads (s : Streamer) (need : Bool → Bool) : Streamer :=
  { s with thread := fun isTx => if need isTx then s.thread isTx else none }

def startThreads (s : Streamer) (need : Bool → Bool) : Streamer :=
  { s with
    thread := fun isTx =>
      if need isTx then some ((s.thread isTx).getD s.samplesInPacket) else s.thread isTx }

def updateThreads (s : Streamer) (stopAll : Bool) : Streamer :=
  let need (isTx : Bool) : Bool := !stopAll && s.need isTx
  let s := s.stopThreads need
  let s := if (need true || need false) && !s.running then s.configure else s
  s.startThreads need

def index (config : StreamConfig) : Fin 2 := if config.channelID &&& 1 = 0 then 0 else 1

def interrupts (s : Streamer) (config : StreamConfig) : Bool := s.running && !s.usedAt (index config)

def makeWay (s : Streamer) (config : StreamConfig) : Streamer :=
  if s.interrupts config then s.updateThreads true else s

def enroll (s : Streamer) (config : StreamConfig) : Streamer :=
  let ch := index config
  let s := s.setStream config.isTx ch ((s.mStreams config.isTx ch).setup config)
  { s with streamSize := (s.usedAt 0).toNat + (s.usedAt 1).toNat }

/-- The call returns a null pointer, or the channel. -/
def setupStream (s : Streamer) (config : StreamConfig) : Bool × Streamer :=
  if (s.mStreams config.isTx (index config)).used then (false, s)
  else if s.running && config.linkFormat ≠ (s.makeWay config).dataLinkFormat then
    (false, s.makeWay config)
  else (true, (s.makeWay config).enroll config)

def start (s : Streamer) (isTx : Bool) (ch : Fin 2) : Option Streamer :=
  let c := s.mStreams isTx ch
  c.fifo.map fun _ => (s.setStream isTx ch { c with mActive := true }).updateThreads false

def stop (s : Streamer) (isTx : Bool) (ch : Fin 2) : Streamer :=
  let c := s.mStreams isTx ch
  (s.setStream isTx ch { c with mActive := false }).updateThreads false

/-- The FIFO is deleted and the channel is free again. -/
def release (s : Streamer) (isTx : Bool) (ch : Fin 2) : Streamer :=
  s.setStream isTx ch { s.mStreams isTx ch with fifo := none, used := false }

def close (s : Streamer) (isTx : Bool) (ch : Fin 2) : Streamer :=
  if (s.mStreams isTx ch).mActive then (s.stop isTx ch).release isTx ch else s.release isTx ch

end Streamer

end Soapy.Lime
