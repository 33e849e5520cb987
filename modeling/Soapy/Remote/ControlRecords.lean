import Soapy.Lib.Records
import Soapy.Remote.StreamEndpoint

/-! # Control records over a stream

The flow control ACKs and the stream status are records of the size of the datagram header. They
are received with one `recv` call each, which may return a part of a record; the header is then
what was received over what was on the stack before.
-/

namespace Soapy.Remote

open Lib

/-- The local header of a call, when `recv` returned the bytes `found`. -/
def localHeader (stack found : Bytes) : StreamDatagramHeader :=
  .decode (found ++ stack.drop found.length)

/-- What `readStatus` gives back: its return value, and the output parameters (channel mask, flags,
    time) where it sets them. -/
structure StatusRead where
  ret : Int32
  outputs : Option (UInt64 × Int32 × Int64)
deriving DecidableEq

/-- `recv` fails, or returns some bytes. -/
def readStatus (stack : Bytes) : Option Bytes → StatusRead
  | none => ⟨streamError, none⟩
  | some found =>
    let header := localHeader stack found
    if found.length < header.bytes.toNat then ⟨streamError, none⟩
    else ⟨header.elems.toInt32, some (header.sequence.toUInt64, header.flags, header.time)⟩

/-- The arguments of `writeStatus`. -/
structure Status where
  code : Int32
  chanMask : UInt64
  flags : Int32
  timeNs : Int64

/-- The header that `writeStatus` sends. -/
def Status.writeStatus (s : Status) : StreamDatagramHeader :=
  ⟨UInt32.ofNat streamHeaderSize, s.chanMask.toUInt32, s.code.toUInt32, s.flags, s.timeNs⟩

def Status.read (s : Status) : StatusRead := ⟨s.code, some (s.chanMask, s.flags, s.timeNs)⟩

/-- A `recv` call for a record: what was on the stack, and the bytes that it returns. -/
structure RecvCall where
  stack : Bytes
  found : Bytes

/-- The sequence and the window that the calls of `recvACK` apply, one after the other. -/
def Endpoint.recvACKs : Endpoint → List RecvCall → List (UInt64 × UInt64)
  | _, [] => []
  | e, c :: cs =>
    let e := e.recvACK (localHeader c.stack c.found)
    (e.lastRecvSequence, e.maxInFlightSeqs) :: e.recvACKs cs

def readStatuses (cs : List RecvCall) : List StatusRead :=
  cs.map fun c => readStatus c.stack (some c.found)

structure Transports (headers : List StreamDatagramHeader) (cs : List RecvCall) : Prop where
  some_bytes : ∀ c ∈ cs, 0 < c.found.length
  asked : ∀ c ∈ cs, c.found.length ≤ streamHeaderSize
  bytes : (cs.map RecvCall.found).flatten = (headers.map StreamDatagramHeader.encode).flatten

def Whole (cs : List RecvCall) : Prop := ∀ c ∈ cs, c.found.length = streamHeaderSize

section Transport

variable {headers : List StreamDatagramHeader} {cs : List RecvCall}

theorem localHeader_encode (stack : Bytes) (h : StreamDatagramHeader) :
    localHeader stack h.encode = h :=
  StreamDatagramHeader.decode_encode h _

theorem encoded_size (headers : List StreamDatagramHeader) :
    ∀ r ∈ headers.map StreamDatagramHeader.encode, r.length = streamHeaderSize := by
  intro r mem
  obtain ⟨h, -, rfl⟩ := List.mem_map.mp mem
  exact h.encode_length

theorem Transports.whole_iff (t : Transports headers cs) :
    Whole cs ↔ cs.length = headers.length := by
  have small : ∀ p ∈ cs.map RecvCall.found, p.length ≤ streamHeaderSize := by
    intro p mem
    obtain ⟨c, here, rfl⟩ := List.mem_map.mp mem
    exact t.asked c here
  have whole := Records.whole_iff (by decide) (encoded_size headers) small t.bytes
  rw [List.length_map, List.length_map] at whole
  rw [← whole]
  simp [Whole, forall_apply_eq_imp_iff₂]

theorem Transports.found (t : Transports headers cs) (whole : Whole cs) :
    cs.map RecvCall.found = headers.map StreamDatagramHeader.encode := by
  apply Records.eq_of_whole (m := streamHeaderSize) (by decide) (encoded_size headers) _ t.bytes
  intro p mem
  obtain ⟨c, here, rfl⟩ := List.mem_map.mp mem
  exact whole c here

theorem Transports.seen (t : Transports headers cs) (whole : Whole cs) :
    cs.map (fun c => localHeader c.stack c.found) = headers := by
  have found := t.found whole
  clear t whole
  induction cs generalizing headers with
  | nil =>
    cases headers with
    | nil => rfl
    | cons h headers => cases found
  | cons c cs ih =>
    cases headers with
    | nil => cases found
    | cons h headers =>
      obtain ⟨first, rest⟩ := List.cons.inj found
      rw [List.map_cons, ih rest, first, localHeader_encode]

end Transport

/-- What a call of `recvACK` takes from a header. -/
def StreamDatagramHeader.applied (h : StreamDatagramHeader) : UInt64 × UInt64 :=
  (h.sequence.toUInt64, h.elems.toUInt64)

theorem recvACKs_eq (e : Endpoint) (cs : List RecvCall) :
    e.recvACKs cs = cs.map fun c => (localHeader c.stack c.found).applied := by
  induction cs generalizing e with
  | nil => rfl
  | cons c cs ih => exact congrArg _ (ih _)

theorem acks_applied_iff (e : Endpoint) {senders : List Endpoint} {cs : List RecvCall}
    (t : Transports (senders.map fun s => s.sendACK.1) cs) :
    e.recvACKs cs = senders.map (fun s => s.sendACK.1.applied) ↔ Whole cs := by
  rw [recvACKs_eq]
  constructor
  · intro same
    have count := congrArg List.length same
    rw [List.length_map, List.length_map] at count
    rw [t.whole_iff, List.length_map]
    exact count
  · intro whole
    have headers := congrArg (List.map StreamDatagramHeader.applied) (t.seen whole)
    rw [List.map_map, List.map_map] at headers
    exact headers

theorem readStatus_encode (stack : Bytes) (s : Status) :
    readStatus stack (some s.writeStatus.encode) =
      ⟨s.code, some (s.chanMask.toUInt32.toUInt64, s.flags, s.timeNs)⟩ := by
  have bytes : s.writeStatus.bytes.toNat = streamHeaderSize := rfl
  have whole : ¬ s.writeStatus.encode.length < s.writeStatus.bytes.toNat := by
    rw [StreamDatagramHeader.encode_length, bytes]
    exact Nat.lt_irrefl _
  simp only [readStatus, localHeader_encode, if_neg whole]
  simp only [Status.writeStatus, Int32.toInt32_toUInt32]

theorem mask_kept (mask : UInt64) : mask.toUInt32.toUInt64 = mask ↔ mask.toNat < 2 ^ 32 := by
  rw [← UInt64.toNat_inj, UInt32.toNat_toUInt64, UInt64.toNat_toUInt32, Nat.mod_eq_iff_lt (by decide)]

theorem statuses_received {sent : List Status} {cs : List RecvCall}
    (found : cs.map RecvCall.found = sent.map fun s => s.writeStatus.encode) :
    readStatuses cs = sent.map fun s =>
      ⟨s.code, some (s.chanMask.toUInt32.toUInt64, s.flags, s.timeNs)⟩ := by
  induction cs generalizing sent with
  | nil =>
    cases sent with
    | nil => rfl
    | cons s sent => cases found
  | cons c cs ih =>
    cases sent with
    | nil => cases found
    | cons s sent =>
      obtain ⟨first, rest⟩ := List.cons.inj found
      have later := ih rest
      unfold readStatuses at later ⊢
      rw [List.map_cons, later, first, readStatus_encode, List.map_cons]

theorem statuses_read_iff {sent : List Status} {cs : List RecvCall}
    (t : Transports (sent.map Status.writeStatus) cs) :
    readStatuses cs = sent.map Status.read ↔
      Whole cs ∧ ∀ s ∈ sent, s.chanMask.toNat < 2 ^ 32 := by
  have received (whole : Whole cs) : readStatuses cs = sent.map fun s =>
      ⟨s.code, some (s.chanMask.toUInt32.toUInt64, s.flags, s.timeNs)⟩ := by
    apply statuses_received
    rw [t.found whole, List.map_map]
    rfl
  have read_iff (s : Status) : (⟨s.code, some (s.chanMask.toUInt32.toUInt64, s.flags, s.timeNs)⟩ :
      StatusRead) = s.read ↔ s.chanMask.toNat < 2 ^ 32 := by
    simp only [Status.read, StatusRead.mk.injEq, Option.some.injEq, Prod.mk.injEq, true_and,
      and_true, mask_kept]
  constructor
  · intro same
    have whole : Whole cs := by
      rw [t.whole_iff]
      have count := congrArg List.length same
      unfold readStatuses at count
      rw [List.length_map, List.length_map] at count
      rw [List.length_map]
      exact count
    rw [received whole] at same
    refine ⟨whole, ?_⟩
    intro s mem
    exact (read_iff s).mp (List.map_inj_left.mp same s mem)
  · intro meets
    rw [received meets.1]
    exact List.map_congr_left fun s mem => (read_iff s).mpr (meets.2 s mem)

/-- What is read of the control records is what was sent, if and only if every call returns a whole
    record and the channel masks have 32 bits. -/
theorem control_records_read (e : Endpoint) {senders : List Endpoint} {acks : List RecvCall}
    {sent : List Status} {reads : List RecvCall}
    (acked : Transports (senders.map fun s => s.sendACK.1) acks)
    (written : Transports (sent.map Status.writeStatus) reads) :
    (e.recvACKs acks = senders.map (fun s => s.sendACK.1.applied) ↔ Whole acks) ∧
    (readStatuses reads = sent.map Status.read ↔
      Whole reads ∧ ∀ s ∈ sent, s.chanMask.toNat < 2 ^ 32) :=
  ⟨acks_applied_iff e acked, statuses_read_iff written⟩

section OneRecord

def oneChannel : Endpoint := .makeSend ⟨false, 1, 4, 1500⟩

def underflow : Status := ⟨-2, 1, 0, 0⟩

theorem transports_one (h : StreamDatagramHeader) : Transports [h] [⟨[], h.encode⟩] where
  some_bytes := by simp [streamHeaderSize]
  asked := by simp
  bytes := rfl

theorem one_record_read :
    (oneChannel.recvACKs [⟨[], oneChannel.sendACK.1.encode⟩] = [oneChannel.sendACK.1.applied] ↔
      Whole [⟨[], oneChannel.sendACK.1.encode⟩]) ∧
    (readStatuses [⟨[], underflow.writeStatus.encode⟩] = [underflow.read] ↔
      Whole [⟨[], underflow.writeStatus.encode⟩] ∧ ∀ s ∈ [underflow], s.chanMask.toNat < 2 ^ 32) :=
  @control_records_read oneChannel [oneChannel] _ [underflow] _ (transports_one _)
    (transports_one _)

/-- An ACK that comes in two parts is applied twice. -/
theorem ack_split :
    ¬ ∀ (e : Endpoint) (senders : List Endpoint) (cs : List RecvCall),
      Transports (senders.map fun s => s.sendACK.1) cs →
      e.recvACKs cs = senders.map fun s => s.sendACK.1.applied := by
  intro holds
  have parts : Transports ([oneChannel].map fun s => s.sendACK.1)
      [⟨[], oneChannel.sendACK.1.encode.take 4⟩, ⟨[], oneChannel.sendACK.1.encode.drop 4⟩] := by
    refine ⟨?_, ?_, ?_⟩
    · simp [streamHeaderSize]
    · simp [streamHeaderSize]
    · simp
  have same := holds oneChannel _ _ parts
  cases congrArg List.length same

end OneRecord

end Soapy.Remote
