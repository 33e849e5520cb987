import Soapy.Lime.FpgaPackets

/-! # The transmit loop

A round of the loop visits the two transmit channels and makes a packet for the FPGA of
what it found there. Rounds go on until the transfer buffer is full or a burst ends, and
the buffer is sent. Between any two visits writers fill the FIFOs, and channels are set
up, started, stopped and closed: what a visit finds is arbitrary.

The ring of transfer buffers is left out. A buffer is filled again only after its
transfer has finished.
-/

namespace Soapy.Lime

open Lib

/-- What the loop finds at a channel. -/
inductive Visit (P : Nat) where
  | unused
  | inactive
  | popped (packet : SamplesPacket Complex16 P)
  | timeout

structure TransmitLoop (t : TxSetup) (B : Fin 2 → Nat) where
  fifo : (ch : Fin 2) → RingFIFO Complex16 t.maxSamplesBatch (B ch)
  packets : Fin 2 → SamplesPacket Complex16 t.maxSamplesBatch
  /-- The visits of the round so far, of channel 0 first. -/
  visits : List (Visit t.maxSamplesBatch)
  has_samples : Bool
  payloadSize : Nat
  /-- The buffer is being filled. -/
  filling : Bool
  transfer : TxTransfer
  /-- The packets that `pop_packet` has taken out of a FIFO. -/
  popped : Fin 2 → List (SamplesPacket Complex16 t.maxSamplesBatch)
  sent : List TxTransfer

/-- `memset` from sample `n` on. -/
def SamplesPacket.clearFrom {P : Nat} (p : SamplesPacket Complex16 P) (n : Nat) :
    SamplesPacket Complex16 P :=
  { p with samples := fun k => if k.val < n then p.samples k else .zero }

namespace TransmitLoop

variable {t : TxSetup} {B : Fin 2 → Nat}

def start (f : (ch : Fin 2) → RingFIFO Complex16 t.maxSamplesBatch (B ch))
    (uninitialised : Fin 2 → Buffer Complex16 t.maxSamplesBatch) : TransmitLoop t B where
  fifo := f
  packets := fun ind => ⟨0, 0, 0, uninitialised ind⟩
  visits := []
  has_samples := false
  payloadSize := dataSize
  filling := true
  transfer := .empty
  popped := fun _ => []
  sent := []

def setPacket (s : TransmitLoop t B) (ind : Fin 2)
    (packet : SamplesPacket Complex16 t.maxSamplesBatch) : TransmitLoop t B :=
  { s with packets := Function.update s.packets ind packet }

def setFifo (s : TransmitLoop t B) (ch : Fin 2)
    (f : RingFIFO Complex16 t.maxSamplesBatch (B ch)) : TransmitLoop t B :=
  { s with fifo := Function.update s.fifo ch f }

def visit (s : TransmitLoop t B) (v : Visit t.maxSamplesBatch) : TransmitLoop t B :=
  { s with visits := s.visits ++ [v] }

/-- What follows `pop_packet`. -/
def account (s : TransmitLoop t B) (ind : Fin 2) : TransmitLoop t B :=
  let samplesPopped := (s.packets ind).last
  if samplesPopped = t.maxSamplesBatch then { s with has_samples := true }
  else if (s.packets ind).flags &&& END_BURST = 0 then s
  else
    { s.setPacket ind ((s.packets ind).clearFrom samplesPopped) with
      payloadSize := t.shortPayload samplesPopped
      has_samples := true }

def silence (s : TransmitLoop t B) (ch : Fin 2) : TransmitLoop t B :=
  (s.setPacket (t.ind ch) ((s.packets (t.ind ch)).clearFrom 0)).visit .inactive

variable [∀ ch, NeZero (B ch)]

/-- `pop_packet` takes a packet. -/
def pop (s : TransmitLoop t B) (ch : Fin 2) : TransmitLoop t B :=
  let result := (s.fifo ch).popPacket (s.packets (t.ind ch))
  let s := ((s.setFifo ch result.1).setPacket (t.ind ch) result.2).visit (.popped result.2)
  { s with popped := Function.update s.popped ch (s.popped ch ++ [result.2]) }

/-- The time of `pop_packet` is up. -/
def popNothing (s : TransmitLoop t B) (ch : Fin 2) : TransmitLoop t B :=
  let result := (s.fifo ch).popNothing (s.packets (t.ind ch))
  ((s.setFifo ch result.1).setPacket (t.ind ch) result.2).visit .timeout

def take (s : TransmitLoop t B) (ch : Fin 2) : TransmitLoop t B := (s.pop ch).account (t.ind ch)

def expire (s : TransmitLoop t B) (ch : Fin 2) : TransmitLoop t B :=
  (s.popNothing ch).account (t.ind ch)

def made (s : TransmitLoop t B) : FPGA_DataPacket :=
  .make ((s.packets 0).flags &&& SYNC_TIMESTAMP = 0) s.payloadSize (s.packets 0).timestamp
    (samples2FPGAPacketPayload (fun c => (s.packets c).samples) t.mimo t.packed)

/-- A packet goes into the buffer, and another round follows unless it is full or the burst ends. -/
def form (s : TransmitLoop t B) : TransmitLoop t B :=
  let end_burst := (s.packets 0).flags &&& END_BURST ≠ 0
  { s with
    visits := []
    has_samples := false
    payloadSize := dataSize
    filling := s.transfer.pkt.length + 1 < t.packetsToBatch && !end_burst
    transfer := ⟨s.transfer.pkt ++ [s.made], s.transfer.bytesToSend + (16 + s.payloadSize)⟩ }

def send (s : TransmitLoop t B) : TransmitLoop t B :=
  { s with
    visits := []
    has_samples := false
    payloadSize := dataSize
    filling := true
    transfer := .empty
    sent := if s.transfer.pkt.length = 0 then s.sent else s.sent ++ [s.transfer] }

inductive Action where
  | write (ch : Fin 2)
  | clear (ch : Fin 2)
  | unused
  | inactive
  | take
  | timeout
  | form
  | send

structure Comes (s : TransmitLoop t B) (ch : Fin 2) : Prop where
  filling : s.filling = true
  next : s.visits.length = ch

inductive Step (s : TransmitLoop t B) : Action → TransmitLoop t B → Prop
  /-- A turn of some writer's loop in `push_samples`. -/
  | write (ch : Fin 2) (call : Samples Complex16) (samplesTaken n : Nat)
      (f : RingFIFO Complex16 t.maxSamplesBatch (B ch))
      (count : call.buffer.length < 2 ^ 32) (more : samplesTaken < call.buffer.length)
      (room : (s.fifo ch).mElementsFilled < B ch)
      (turn : (s.fifo ch).pushTurn call samplesTaken = some (f, n)) :
      Step s (.write ch) (s.setFifo ch f)
  /-- The channel is started. -/
  | clear (ch : Fin 2) : Step s (.clear ch) (s.setFifo ch (s.fifo ch).clear)
  | unused (ch : Fin 2) (comes : s.Comes ch) : Step s .unused (s.visit .unused)
  | inactive (ch : Fin 2) (comes : s.Comes ch) : Step s .inactive (s.silence ch)
  | take (ch : Fin 2) (comes : s.Comes ch) (filled : 0 < (s.fifo ch).mElementsFilled) :
      Step s .take (s.take ch)
  | timeout (ch : Fin 2) (comes : s.Comes ch) : Step s .timeout (s.expire ch)
  | form (filling : s.filling = true) (visited : s.visits.length = 2)
      (some : s.has_samples = true) : Step s .form s.form
  | send (ended : s.filling = true → s.visits.length = 2 ∧ s.has_samples = false) :
      Step s .send s.send

end TransmitLoop

end Soapy.Lime
