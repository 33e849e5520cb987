import Soapy.Lib.Bytes
import Soapy.Lib.Records
import Soapy.Lime.Streamer

/-! # Packets for the FPGA

The samples of one or two channels are laid out sample by sample in the payload of a
packet, in three bytes each when they are packed and in four otherwise. A packet that
is not full tells its payload size, which is rounded up.
-/

namespace Soapy.Lime

open Lib

structure Complex16 where
  i : Int16
  q : Int16
  deriving DecidableEq

namespace Complex16

def zero : Complex16 := ⟨0, 0⟩

/-- A value of C++ that is stored in a `uint8_t`. -/
def byte (v : Int16) : UInt8 := v.toUInt16.toUInt8

def packedBytes (s : Complex16) : Bytes :=
  [byte s.i, byte ((s.i >>> 8 &&& (0x0F : Int16)) ||| s.q <<< 4), byte (s.q >>> 4)]

/-- The memory of the structure. -/
def rawBytes (s : Complex16) : Bytes :=
  [byte s.i, byte (s.i >>> 8), byte s.q, byte (s.q >>> 8)]

end Complex16

/-- `sizeof(FPGA_DataPacket::data)`. -/
def dataSize : Nat := 4080

structure FPGA_DataPacket where
  reserved : Fin 8 → UInt8
  counter : UInt64
  data : Bytes

variable {n : Nat}

namespace FPGA_DataPacket

def bytes (p : FPGA_DataPacket) : Bytes :=
  List.ofFn p.reserved ++ (toBE 8 p.counter.toNat).reverse ++ p.data

def payloadSize (p : FPGA_DataPacket) : Nat := (p.reserved 1).toNat + 256 * (p.reserved 2).toNat

def payload (p : FPGA_DataPacket) : Bytes := p.data.take p.payloadSize

def ignoreTimestamp (p : FPGA_DataPacket) : Bool := p.reserved 0 &&& 0x10 ≠ 0

def counted (p : FPGA_DataPacket) : Bytes := p.bytes.take (16 + p.payloadSize)

/-- The header as the transmit loop writes it. -/
def make (ignoreTimestamp : Bool) (payloadSize : Nat) (counter : UInt64) (data : Bytes) :
    FPGA_DataPacket where
  reserved
    | 0 => (if ignoreTimestamp then (1 : UInt8) else 0) <<< (4 : UInt8)
    | 1 => UInt8.ofNat (payloadSize &&& 0xFF)
    | 2 => UInt8.ofNat ((payloadSize >>> 8) &&& 0xFF)
    | _ => 0
  counter := counter
  data := data

theorem make_payloadSize (small : n < 2 ^ 16) (ignoreTimestamp : Bool) (counter : UInt64)
    (data : Bytes) : (make ignoreTimestamp n counter data).payloadSize = n := by
  have low : n &&& 0xFF = n % 256 := Nat.and_two_pow_sub_one_eq_mod n 8
  have high : (n >>> 8) &&& 0xFF = n / 256 % 256 := by
    rw [Nat.and_two_pow_sub_one_eq_mod (n >>> 8) 8, Nat.shiftRight_eq_div_pow]
  simp only [payloadSize, make, low, high, UInt8.toNat_ofNat']
  omega

theorem make_ignoreTimestamp (ignore : Bool) (n : Nat) (counter : UInt64) (data : Bytes) :
    (make ignore n counter data).ignoreTimestamp = ignore := by
  cases ignore with
  | false => simp [FPGA_DataPacket.ignoreTimestamp, make]
  | true =>
    simp only [FPGA_DataPacket.ignoreTimestamp, make]
    decide

theorem bytes_length (p : FPGA_DataPacket) : p.bytes.length = 16 + p.data.length := by
  simp only [bytes, List.length_append, List.length_ofFn, List.length_reverse, toBE_length]

end FPGA_DataPacket

/-- What the transmit loop hands over: packets at full distance in the buffer, and the
    number of its bytes that are sent. -/
structure TxTransfer where
  pkt : List FPGA_DataPacket
  bytesToSend : Nat

namespace TxTransfer

def empty : TxTransfer := ⟨[], 0⟩

def buffer (tr : TxTransfer) : Bytes := tr.pkt.flatMap FPGA_DataPacket.bytes

structure Contiguous (tr : TxTransfer) : Prop where
  count : tr.bytesToSend = (tr.pkt.map fun p => 16 + p.payloadSize).sum
  sent : tr.buffer.take tr.bytesToSend = tr.pkt.flatMap FPGA_DataPacket.counted

def add (tr : TxTransfer) (p : FPGA_DataPacket) : TxTransfer :=
  ⟨tr.pkt ++ [p], tr.bytesToSend + (16 + p.payloadSize)⟩

theorem Contiguous.empty : TxTransfer.empty.Contiguous := ⟨rfl, rfl⟩

theorem counted_full {p : FPGA_DataPacket} (full : p.payloadSize = p.data.length) :
    p.counted = p.bytes := by
  rw [FPGA_DataPacket.counted, full, ← FPGA_DataPacket.bytes_length, List.take_length]

theorem Contiguous.add {tr : TxTransfer} (contiguous : tr.Contiguous)
    (full : ∀ p ∈ tr.pkt, p.payloadSize = p.data.length) (p : FPGA_DataPacket) :
    (tr.add p).Contiguous := by
  have counted : tr.pkt.flatMap FPGA_DataPacket.counted = tr.buffer :=
    List.flatMap_congr fun p member => counted_full (full p member)
  have length : tr.bytesToSend = tr.buffer.length := by
    have summed : (tr.pkt.map fun p => 16 + p.payloadSize) = tr.pkt.map (·.bytes.length) := by
      apply List.map_congr_left
      intro p member
      rw [full p member, FPGA_DataPacket.bytes_length]
    rw [contiguous.count, summed, buffer, List.length_flatMap]
  constructor
  · simp [TxTransfer.add, contiguous.count]
  · have longer : (tr.add p).buffer = tr.buffer ++ p.bytes := by
      simp [TxTransfer.add, buffer]
    have more : (tr.add p).pkt.flatMap FPGA_DataPacket.counted = tr.buffer ++ p.counted := by
      rw [← counted]
      simp [TxTransfer.add]
    rw [longer, more, FPGA_DataPacket.counted, TxTransfer.add, length, List.take_length_add_append]

end TxTransfer

/-- `Samples2FPGAPacketPayload`: the bytes that it writes. -/
def samples2FPGAPacketPayload {samplesCount : Nat} (samples : Fin 2 → Buffer Complex16 samplesCount)
    (mimo compressed : Bool) : Bytes :=
  if compressed then
    (List.finRange samplesCount).flatMap fun src =>
      (samples 0 src).packedBytes ++ if mimo then (samples 1 src).packedBytes else []
  else if mimo then
    (List.finRange samplesCount).flatMap fun src =>
      (samples 0 src).rawBytes ++ (samples 1 src).rawBytes
  else (List.ofFn (samples 0)).flatMap Complex16.rawBytes

/-- What the transmit loop fixes at its start. -/
structure TxSetup where
  packed : Bool
  mimo : Bool
  packetsToBatch : Nat

namespace TxSetup

variable (t : TxSetup)

def chCount : Nat := if t.mimo then 2 else 1

def maxSamplesBatch : Nat := (if t.packed then samples12InPkt else samples16InPkt) / t.chCount

/-- The unit of the payload size. -/
def q : Nat := if t.packed then 48 else 16

def shortPayload (samplesPopped : Nat) : Nat :=
  let payloadSize := samplesPopped * dataSize / t.maxSamplesBatch
  (1 + (payloadSize - 1) / t.q) * t.q

def ind (ch : Fin 2) : Fin 2 := if t.mimo then ch else 0

/-- The bytes of a sample. -/
def width : Nat := if t.packed then 3 else 4

def encode (s : Complex16) : Bytes := if t.packed then s.packedBytes else s.rawBytes

/-- Where sample `k` of a channel's place begins. -/
def offset (place : Fin 2) (k : Nat) : Nat := (k * t.chCount + place) * t.width

/-- The sample `k` of all places. -/
def frame {n : Nat} (samples : Fin 2 → Buffer Complex16 n) (k : Fin n) : Bytes :=
  t.encode (samples 0 k) ++ if t.mimo then t.encode (samples 1 k) else []

variable {t}

theorem encode_length (s : Complex16) : (t.encode s).length = t.width := by
  unfold encode width
  cases t.packed <;> rfl

variable (samples : Fin 2 → Buffer Complex16 n) (k : Fin n)

theorem frame_length :
    (t.frame samples k).length = t.chCount * t.width := by
  unfold frame chCount
  cases t.mimo with
  | true =>
    simp only [if_true, List.length_append, encode_length]
    omega
  | false => simp [encode_length]

theorem payload_eq :
    samples2FPGAPacketPayload samples t.mimo t.packed =
      (List.finRange n).flatMap (t.frame samples) := by
  unfold samples2FPGAPacketPayload
  cases packed : t.packed with
  | true =>
    rw [if_pos rfl]
    congr 1
    funext k
    simp [frame, encode, packed]
  | false =>
    rw [if_neg Bool.false_ne_true]
    cases mimo : t.mimo with
    | true =>
      rw [if_pos rfl]
      congr 1
      funext k
      simp [frame, encode, packed, mimo]
    | false =>
      rw [if_neg Bool.false_ne_true, List.ofFn_eq_map, List.flatMap_map]
      congr 1
      funext k
      simp [frame, encode, packed, mimo]

theorem frame_room : t.maxSamplesBatch * (t.chCount * t.width) = dataSize := by
  unfold maxSamplesBatch chCount width
  cases t.packed <;> cases t.mimo <;> rfl

theorem payload_length (samples : Fin 2 → Buffer Complex16 t.maxSamplesBatch) :
    (samples2FPGAPacketPayload samples t.mimo t.packed).length = dataSize := by
  rw [payload_eq, Records.flatMap_length (frame_length samples), List.length_finRange, Nat.mul_comm]
  exact frame_room

theorem frame_slot {place : Fin 2} (inside : place.val < t.chCount) (rest : Bytes) :
    ((t.frame samples k ++ rest).drop (place * t.width)).take t.width = t.encode (samples place k) := by
  have first : (t.encode (samples 0 k)).length = t.width := encode_length _
  unfold frame
  cases place using Fin.cases with
  | zero =>
    rw [Fin.val_zero, Nat.zero_mul, List.drop_zero, List.append_assoc, ← first, List.take_left]
  | succ i =>
    have one : i = 0 := Subsingleton.elim i 0
    subst one
    unfold chCount at inside
    cases mimo : t.mimo with
    | false =>
      rw [mimo] at inside
      exact absurd inside (by decide)
    | true =>
      have second : (t.encode (samples 1 k)).length = t.width := encode_length _
      change List.take _ (List.drop (1 * t.width) _) = t.encode (samples 1 k)
      rw [if_pos rfl, Nat.one_mul, List.append_assoc]
      nth_rewrite 2 [← first]
      rw [List.drop_left, ← second, List.take_left]

theorem payload_slot {place : Fin 2} (inside : place.val < t.chCount) :
    ((samples2FPGAPacketPayload samples t.mimo t.packed).drop (t.offset place k)).take t.width =
      t.encode (samples place k) := by
  have apart : t.offset place k = t.chCount * t.width * k + place * t.width := by
    unfold offset
    ring
  have next : (List.finRange n).drop k = k :: (List.finRange n).drop (k + 1) := by
    rw [List.drop_eq_getElem_cons (by simp), List.getElem_finRange]
    rfl
  rw [payload_eq, apart, ← List.drop_drop, Records.drop_flatMap (frame_length samples), next,
    List.flatMap_cons]
  exact frame_slot samples k inside _

theorem shortPayload_spec (positive : 0 < n) (most : n ≤ t.maxSamplesBatch) :
    n * (t.chCount * t.width) ≤ t.shortPayload n ∧ t.shortPayload n ≤ dataSize ∧
      t.q ∣ t.shortPayload n := by
  obtain ⟨packed, mimo, _⟩ := t
  refine ⟨?_, ?_, Dvd.intro_left _ rfl⟩
  · unfold shortPayload
    cases packed <;> cases mimo <;>
      simp [maxSamplesBatch, chCount, width, q, dataSize, samples12InPkt, samples16InPkt] <;> omega
  · unfold shortPayload
    cases packed <;> cases mimo <;>
      simp [maxSamplesBatch, chCount, q, dataSize, samples12InPkt, samples16InPkt] at most ⊢ <;> omega

theorem q_dvd_dataSize : t.q ∣ dataSize := by
  unfold q
  cases t.packed <;> decide

end TxSetup

end Soapy.Lime
