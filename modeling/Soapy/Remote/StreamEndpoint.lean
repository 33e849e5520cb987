import Soapy.Lib.HandleRing
import Soapy.Lib.Memory
import Soapy.Remote.Unpacker

/-! # SoapyStreamEndpoint

One end of a stream: eight buffers that are handed out and taken back, the
datagram header, and the sequence counters of the flow control. The status
socket is left out.

The stream socket is what its calls do: the results of the `recv` calls to come,
and for a `send` call how much of what it is offered it takes. A buffer is the
memory from its first byte on, and every write into one is noted in `writes`, so
that the layout can be held against the size of the buffer.
-/

namespace Soapy.Remote

open Lib

/-- `SOAPY_REMOTE_ENDPOINT_NUM_BUFFS`. -/
def numBuffs : Nat := 8

instance : NeZero numBuffs := ⟨by decide⟩

abbrev BuffHandle := Fin numBuffs

abbrev BuffPointer := BuffHandle × Nat

/-- `SOAPY_SDR_TIMEOUT`. -/
def streamTimeout : Int32 := -1

/-- `SOAPY_SDR_STREAM_ERROR`. -/
def streamError : Int32 := -2

/-- `HEADER_SIZE`. -/
def streamHeaderSize : Nat := 24

/-- `PROTO_HEADER_SIZE`: IPv6 and UDP. -/
def protoHeaderSize : UInt64 := 48

structure StreamDatagramHeader where
  bytes : UInt32
  sequence : UInt32
  elems : UInt32
  flags : Int32
  time : Int64
  deriving DecidableEq

namespace StreamDatagramHeader

def encode (h : StreamDatagramHeader) : Bytes :=
  toBE 4 h.bytes.toNat ++ (toBE 4 h.sequence.toNat ++ (toBE 4 h.elems.toNat ++
    (toBE 4 h.flags.toBitVec.toNat ++ toBE 8 h.time.toBitVec.toNat)))

def decode (bs : Bytes) : StreamDatagramHeader where
  bytes := UInt32.ofNat (ofBE (bs.take 4))
  sequence := UInt32.ofNat (ofBE ((bs.drop 4).take 4))
  elems := UInt32.ofNat (ofBE ((bs.drop 8).take 4))
  flags := Int32.ofBitVec (BitVec.ofNat 32 (ofBE ((bs.drop 12).take 4)))
  time := Int64.ofBitVec (BitVec.ofNat 64 (ofBE ((bs.drop 16).take 8)))

@[simp] theorem encode_length (h : StreamDatagramHeader) : h.encode.length = streamHeaderSize := by
  simp [encode, toBE_length, streamHeaderSize]

theorem decode_encode (h : StreamDatagramHeader) (rest : Bytes) :
    decode (h.encode ++ rest) = h := by
  have word (v : UInt32) : UInt32.ofNat (ofBE (toBE 4 v.toNat)) = v := by
    rw [ofBE_toBE 4 _ v.toNat_lt, UInt32.ofNat_toNat]
  have flags : Int32.ofBitVec (BitVec.ofNat 32 (ofBE (toBE 4 h.flags.toBitVec.toNat))) = h.flags := by
    rw [ofBE_toBE 4 _ h.flags.toBitVec.isLt, BitVec.ofNat_toNat, BitVec.setWidth_eq,
      Int32.ofBitVec_toBitVec]
  have time : Int64.ofBitVec (BitVec.ofNat 64 (ofBE (toBE 8 h.time.toBitVec.toNat))) = h.time := by
    rw [ofBE_toBE 8 _ h.time.toBitVec.isLt, BitVec.ofNat_toNat, BitVec.setWidth_eq,
      Int64.ofBitVec_toBitVec]
  have first (n v : Nat) (more : Bytes) : (toBE n v ++ more).take n = toBE n v :=
    List.take_left' (toBE_length n v)
  have next (v m : Nat) (more : Bytes) : (toBE 4 v ++ more).drop (4 + m) = more.drop m := by
    rw [← List.drop_drop, List.drop_left' (toBE_length 4 v)]
  simp [encode, decode, first, next _ 0, next _ 4, next _ 8, next _ 12, word, flags, time]

theorem decode_take (bs : Bytes) {n : Nat} (whole : streamHeaderSize ≤ n) :
    decode (bs.take n) = decode bs := by
  have field (skip size : Nat) (inside : skip + size ≤ n) :
      ((bs.take n).drop skip).take size = (bs.drop skip).take size := by
    rw [List.drop_take, List.take_take, Nat.min_eq_left (by omega)]
  unfold streamHeaderSize at whole
  have bytes := field 0 4 (by omega)
  rw [List.drop_zero, List.drop_zero] at bytes
  simp only [decode, bytes, field 4 4 (by omega), field 8 4 (by omega), field 12 4 (by omega),
    field 16 8 (by omega)]

end StreamDatagramHeader

/-- The constructor's arguments that are kept. -/
structure EndpointConfig where
  datagramMode : Bool
  numChans : UInt64
  elemSize : UInt64
  mtu : UInt64

namespace EndpointConfig

def xferSize (c : EndpointConfig) : UInt64 := c.mtu - protoHeaderSize

def buffSize (c : EndpointConfig) : UInt64 :=
  (c.xferSize - UInt64.ofNat streamHeaderSize) / c.numChans / c.elemSize

/-- `offsetBytes`: where `buffs[i]` points into the buffer. -/
def channelOffset (c : EndpointConfig) (i : UInt64) : UInt64 :=
  UInt64.ofNat streamHeaderSize + i * c.buffSize * c.elemSize

/-- The length that `recv` asks the socket for when it is given the whole buffer:
    it goes through an int, and a negative int becomes a very large `size_t`. -/
def recvLength (c : EndpointConfig) : Nat :=
  (Unpack.toSize c.xferSize.toUInt32.toInt32).toNat

/-- `releaseSend`: the number of bytes to send for a count of elements or a code.
    Only the last channel can be shortened. -/
def sendBytes (c : EndpointConfig) (numElemsOrErr : Int32) : UInt64 :=
  let totalElems := (c.numChans - 1) * c.buffSize + Unpack.toSize numElemsOrErr
  UInt64.ofNat streamHeaderSize + if numElemsOrErr < 0 then 0 else totalElems * c.elemSize

end EndpointConfig

structure Endpoint where
  config : EndpointConfig
  buff : BuffHandle → Memory
  ring : HandleRing numBuffs
  lastSendSequence : UInt64
  lastRecvSequence : UInt64
  maxInFlightSeqs : UInt64
  receiveInitial : Bool
  triggerAckWindow : UInt64
  /-- Offset and length of every write into a buffer so far. -/
  writes : List (Nat × Nat)

/-- The results of the `recv` calls to come: a failure, or the bytes found: a
    datagram, or a piece of the stream; nothing at all at the end of the stream. -/
abbrev Arrivals := List (Option Bytes)

/-- `recv` of at most `len` bytes; it blocks when nothing arrives. What does not
    fit is lost from a datagram and stays in a stream. -/
def recvSome (datagramMode : Bool) (len : Nat) : Arrivals → Option (Option Bytes × Arrivals)
  | [] => none
  | none :: rest => some (none, rest)
  | some found :: rest =>
    if datagramMode || found.length ≤ len then some (some (found.take len), rest)
    else some (some (found.take len), some (found.drop len) :: rest)

/-- `recv` with `MSG_WAITALL` on a stream. The end of the stream cuts it short; so
    does a failure, which then is the result of the next call. -/
def recvAll : Nat → Arrivals → Option (Option Bytes × Arrivals)
  | _, [] => none
  | _, none :: rest => some (none, rest)
  | len, some found :: rest =>
    if found.isEmpty then some (some [], rest)
    else if found.length < len then
      match recvAll (len - found.length) rest with
      | none => none
      | some (some more, rest) => some (some (found ++ more), rest)
      | some (none, rest) => some (some found, none :: rest)
    else recvSome false len (some found :: rest)

namespace Endpoint

/-- `_buffData[h].buff`, as it is read through a header pointer. -/
def header (e : Endpoint) (h : BuffHandle) : StreamDatagramHeader :=
  .decode ((e.buff h).load 0 streamHeaderSize)

def store (e : Endpoint) (h : BuffHandle) (offset : Nat) (bs : Bytes) : Endpoint :=
  { e with
    buff := Function.update e.buff h ((e.buff h).store offset bs)
    writes := e.writes ++ [(offset, bs.length)] }

def getAddrs (e : Endpoint) (h : BuffHandle) : List BuffPointer :=
  (List.range e.config.numChans.toNat).map fun i =>
    (h, (e.config.channelOffset (UInt64.ofNat i)).toNat)

@[simp] theorem getAddrs_length (e : Endpoint) (h : BuffHandle) :
    (e.getAddrs h).length = e.config.numChans.toNat := by
  rw [getAddrs, List.length_map, List.length_range]

/-- The flow control ACK, and the state after it. -/
def sendACK (e : Endpoint) : StreamDatagramHeader × Endpoint :=
  (⟨UInt32.ofNat streamHeaderSize, e.lastRecvSequence.toUInt32, e.maxInFlightSeqs.toUInt32, 0, 0⟩,
    { e with lastSendSequence := e.lastRecvSequence })

/-- `header` is what the local holds after `recv`: the record received, or what
    was on the stack before. -/
def recvACK (e : Endpoint) (header : StreamDatagramHeader) : Endpoint :=
  { e with
    receiveInitial := true
    lastRecvSequence := header.sequence.toUInt64
    maxInFlightSeqs := header.elems.toUInt64 }

/-- What the constructor leaves behind for both directions. -/
def fresh (config : EndpointConfig) : Endpoint where
  config := config
  buff := fun _ _ => 0
  ring := .init
  lastSendSequence := 0
  lastRecvSequence := 0
  maxInFlightSeqs := 0
  receiveInitial := false
  triggerAckWindow := 0
  writes := []

def makeSend (config : EndpointConfig) : Endpoint := fresh config

/-- The constructor with `isRecv`: it computes the window and sends a gratuitous
    ACK to set the sender's. -/
def makeRecv (config : EndpointConfig) (actualWindow : Int32) :
    StreamDatagramHeader × Endpoint :=
  let maxInFlightSeqs := Unpack.toSize actualWindow / config.mtu
  sendACK { fresh config with
    maxInFlightSeqs := maxInFlightSeqs
    triggerAckWindow := maxInFlightSeqs / UInt64.ofNat numBuffs }

/-- `waitRecv` up to the select: a gratuitous ACK until something is received. -/
def waitRecv (e : Endpoint) : Option StreamDatagramHeader × Endpoint :=
  if e.receiveInitial then (none, e) else (some e.sendACK.1, e.sendACK.2)

/-- The loop that receives the rest of a stream record. At the end of the stream
    `recv` yields nothing for ever, and the loop does not return. -/
def recvRest (h : BuffHandle) (bytes : Nat) :
    Nat → Nat → Endpoint → Arrivals → Option (Bool × Endpoint × Arrivals)
  | fuel, bytesRecvd, e, arrivals =>
    if bytes ≤ bytesRecvd then some (true, e, arrivals)
    else
      match fuel with
      | 0 => none
      | fuel + 1 =>
        match recvSome false (min socketBuffMax (bytes - bytesRecvd)) arrivals with
        | none => none
        | some (none, rest) => some (false, e, rest)
        | some (some found, rest) =>
          if found.isEmpty then none
          else recvRest h bytes fuel (bytesRecvd + found.length)
            (e.store h bytesRecvd found) rest

def filled (e : Endpoint) (h : BuffHandle) (found : Bytes) (writes : List (Nat × Nat)) : Endpoint :=
  { e with
    buff := Function.update e.buff h ((e.buff h).store 0 found)
    receiveInitial := true
    writes := e.writes ++ writes }

def checkHeader (e : Endpoint) (h : BuffHandle) (bytesRecvd : Nat) (arrivals : Arrivals) :
    Option (Bool × Endpoint × Arrivals) :=
  let bytes := (e.header h).bytes.toNat
  if e.config.datagramMode && bytesRecvd < bytes then some (false, e, arrivals)
  else recvRest h bytes bytes bytesRecvd e arrivals

/-- The part of `acquireRecv` that fills the buffer, and whether it succeeds. -/
def receive (e : Endpoint) (h : BuffHandle) (arrivals : Arrivals) :
    Option (Bool × Endpoint × Arrivals) :=
  let first := if e.config.datagramMode then recvSome true e.config.recvLength arrivals
    else recvAll streamHeaderSize arrivals
  match first with
  | none => none
  | some (none, rest) => some (false, e, rest)
  | some (some found, rest) =>
    (e.filled h found [(0, found.length)]).checkHeader h found.length rest

/-- What `acquireRecv` gives back: its return value, the output parameters where
    it sets them, and the ACK it sends. -/
structure Acquired where
  ret : Int32
  outputs : Option (BuffHandle × Int32 × Int64)
  ack : Option StreamDatagramHeader
  deriving DecidableEq

def ackDue (e : Endpoint) : Bool :=
  e.triggerAckWindow ≤ (e.lastRecvSequence - e.lastSendSequence).toUInt32.toUInt64

/-- Update flow control for a received sequence. -/
def trackSequence (e : Endpoint) (sequence : UInt32) : Option StreamDatagramHeader × Endpoint :=
  let e := { e with lastRecvSequence := (sequence + 1).toUInt64 }
  if e.ackDue then (some e.sendACK.1, e.sendACK.2) else (none, e)

/-- The part of `acquireRecv` from `numElemsOrErr` on. -/
def accept (e : Endpoint) (h : BuffHandle) : Acquired × Endpoint :=
  let header := e.header h
  let numElemsOrErr := header.elems.toInt32
  let (ack, e) := e.trackSequence header.sequence
  let e := if 0 ≤ numElemsOrErr then { e with ring := e.ring.acquire } else e
  (⟨numElemsOrErr, some (h, header.flags, header.time), ack⟩, e)

def acquireRecv (e : Endpoint) (arrivals : Arrivals) : Option (Acquired × Endpoint × Arrivals) :=
  if e.ring.full then some (⟨streamError, none, none⟩, e, arrivals)
  else
    match e.receive e.ring.nextHandleAcquire arrivals with
    | none => none
    | some (false, e, rest) => some (⟨streamError, none, none⟩, e, rest)
    | some (true, e', rest) =>
      some ((e'.accept e.ring.nextHandleAcquire).1, (e'.accept e.ring.nextHandleAcquire).2, rest)

def releaseRecv (e : Endpoint) (h : BuffHandle) : Endpoint := { e with ring := e.ring.release h }

/-- The condition that keeps `waitSend` in its loop. -/
def mustWait (e : Endpoint) : Bool :=
  !e.receiveInitial ||
    e.maxInFlightSeqs ≤ (e.lastSendSequence - e.lastRecvSequence).toUInt32.toUInt64

/-- `waitSend`. Each time the select of the loop reports something, all that has
    arrived is received; without a batch it times out. -/
def waitSend (e : Endpoint) : List (List StreamDatagramHeader) → Bool × Endpoint
  | [] => (!e.mustWait, e)
  | batch :: rest => if e.mustWait then waitSend (batch.foldl recvACK e) rest else (true, e)

/-- The return value, and the handle where there is one. -/
def acquireSend (e : Endpoint) : (Int32 × Option BuffHandle) × Endpoint :=
  if e.ring.full then ((streamError, none), e)
  else ((e.config.buffSize.toUInt32.toInt32, some e.ring.nextHandleAcquire),
    { e with ring := e.ring.acquire })

/-- The loop of `releaseSend`, as what each `send` call puts on the socket. A datagram goes out as
    it is offered; a stream takes at least one byte. -/
def sendChunks (datagramMode : Bool) (grants : Grants) : Nat → Bytes → List Bytes
  | 0, _ => []
  | fuel + 1, rest =>
    if rest.isEmpty then []
    else
      match grants rest.length with
      | none => []
      | some n =>
        let toSend := min socketBuffMax rest.length
        let ret := if datagramMode then toSend else max 1 (min n toSend)
        rest.take ret :: sendChunks datagramMode grants fuel (rest.drop ret)

/-- The header that `releaseSend` loads. -/
def sendHeader (e : Endpoint) (numElemsOrErr flags : Int32) (timeNs : Int64) :
    StreamDatagramHeader where
  bytes := (e.config.sendBytes numElemsOrErr).toUInt32
  sequence := e.lastSendSequence.toUInt32
  elems := numElemsOrErr.toUInt32
  flags := flags
  time := timeNs

/-- What the `send` calls put on the socket, and the state after. -/
def releaseSend (e : Endpoint) (grants : Grants) (h : BuffHandle) (numElemsOrErr flags : Int32)
    (timeNs : Int64) : List Bytes × Endpoint :=
  let loaded := e.store h 0 (e.sendHeader numElemsOrErr flags timeNs).encode
  let bytes := (e.config.sendBytes numElemsOrErr).toNat
  (sendChunks e.config.datagramMode grants bytes ((loaded.buff h).load 0 bytes),
    { loaded with
      lastSendSequence := e.lastSendSequence + 1
      ring := e.ring.release h })

end Endpoint

end Soapy.Remote
