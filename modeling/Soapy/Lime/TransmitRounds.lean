import Soapy.Lime.TransmitFifo
import Soapy.Lime.TransmitLoop

/-! # Rounds of the transmit loop

When the packets that a round pops agree, the FPGA gets all of their samples, each in its
place, and no sample twice.
-/

namespace Soapy.Lime

open Lib

section

variable {α : Type} {P B : Nat}

/-- A packet as `push_samples` leaves it in the ring. -/
structure SamplesPacket.Complete (p : SamplesPacket α P) : Prop where
  some : 0 < p.last
  most : p.last ≤ P
  complete : p.last = P ∨ p.flags &&& END_BURST ≠ 0

namespace RingFIFO

structure Supplied [NeZero B] (f : RingFIFO α P B) : Prop where
  filling : f.Filling
  complete : ∀ p ∈ f.queue, p.Complete

variable [NeZero B] {f f' : RingFIFO α P B} {call : Samples α} {n m : Nat}

theorem Supplied.clear (f : RingFIFO α P B) (positive : 0 < P) : f.clear.Supplied :=
  ⟨.clear f positive, by simp⟩

/-- A turn that copies has fewer than `2 ^ 31` samples to go. -/
theorem small_of_pushTurn (filling : f.Filling) (count : call.buffer.length < 2 ^ 32)
    (turn : f.pushTurn call n = some (f', m)) (more : n < call.buffer.length) :
    call.buffer.length - n < 2 ^ 31 := by
  by_contra long
  have last := filling.last
  have wrapped : toInt32 (call.buffer.length - n) < 0 := by
    simp only [toInt32, Int.bmod_def]
    omega
  have fits : ¬ f.exceeds call n := by
    rw [exceeds_def]
    omega
  have negative : f.pieceLength call n < 0 := by
    rw [pieceLength, if_neg fits]
    exact wrapped
  have stuck : f.pushTurn call n = none := by
    simp only [pushTurn]
    rw [if_pos (Or.inl negative)]
  rw [stuck] at turn
  cases turn

theorem Supplied.pushTurn (supplied : f.Supplied) (count : call.buffer.length < 2 ^ 32)
    (more : n < call.buffer.length) (room : f.mElementsFilled < B)
    (turn : f.pushTurn call n = some (f', m)) : f'.Supplied := by
  have small := small_of_pushTurn supplied.filling count turn more
  obtain ⟨cnt, g, taken, positive, inside, _, filling, cases⟩ :=
    supplied.filling.pushTurn room more small
  obtain ⟨rfl, _⟩ := Prod.mk.inj (Option.some.inj (taken.symm.trans turn))
  refine ⟨filling, ?_⟩
  cases cases with
  | inl partly =>
    rw [partly.1]
    exact supplied.complete
  | inr whole =>
    obtain ⟨queue, _, complete⟩ := whole
    rw [queue]
    intro p member
    cases List.mem_append.mp member with
    | inl old => exact supplied.complete p old
    | inr last =>
      rw [List.mem_singleton.mp last]
      exact ⟨Nat.add_pos_right _ positive, inside, complete⟩

theorem Supplied.popPacket (supplied : f.Supplied) (filled : 0 < f.mElementsFilled)
    (packet : SamplesPacket α P) :
    (f.popPacket packet).1.Supplied ∧ (f.popPacket packet).2.Complete := by
  obtain ⟨_, queue⟩ := supplied.filling.ring.popPacket filled packet
  have complete := supplied.complete
  rw [queue, List.forall_mem_cons] at complete
  exact ⟨⟨supplied.filling.popPacket filled packet, complete.2⟩, complete.1⟩

theorem Supplied.popNothing (supplied : f.Supplied) (packet : SamplesPacket α P) :
    (f.popNothing packet).1.Supplied :=
  ⟨supplied.filling.popNothing packet, supplied.complete⟩

end RingFIFO

end

namespace Visit

variable {P : Nat}

def packet : Visit P → Option (SamplesPacket Complex16 P)
  | .popped p => some p
  | .unused | .inactive | .timeout => none

/-- The visit leaves the samples in the place of the channel as they were. -/
def Keeps : Visit P → Prop
  | .unused | .timeout => True
  | .inactive | .popped _ => False

def Left (v : Visit P) (samples : Buffer Complex16 P) : Prop :=
  match v with
  | .popped p => ∀ k, samples k = if k.val < p.last then p.samples k else .zero
  | .inactive => ∀ k, samples k = .zero
  | .unused | .timeout => True

end Visit

namespace TxSetup

variable (t : TxSetup)

def sizeAfter (size : Nat) : Visit t.maxSamplesBatch → Nat
  | .popped p => if p.last = t.maxSamplesBatch then size else t.shortPayload p.last
  | .unused | .inactive | .timeout => size

def roundPayload (visits : List (Visit t.maxSamplesBatch)) : Nat :=
  visits.foldl t.sizeAfter dataSize

/-- No later visit changes the samples in the place of the channel. -/
def Undisturbed (visits : List (Visit t.maxSamplesBatch)) (ch : Fin 2) : Prop :=
  ∀ (ch' : Fin 2) v, ch < ch' → t.ind ch' = t.ind ch → visits[ch'.val]? = some v → v.Keeps

def slot (p : FPGA_DataPacket) (place : Fin 2) (k : Nat) : Bytes :=
  (p.data.drop (t.offset place k)).take t.width

/-- The packet conveys what the round has popped: the header is that of the packets, all of
    their samples are in the payload, and the rest is silence. -/
structure Conveys (uninitialised : Fin 2 → Buffer Complex16 t.maxSamplesBatch)
    (p : FPGA_DataPacket) (round : Fin 2 → Option (SamplesPacket Complex16 t.maxSamplesBatch)) :
    Prop where
  counter : ∀ ch packet, round ch = some packet → p.counter = packet.timestamp
  ignoreTimestamp : ∀ ch packet, round ch = some packet →
    (p.ignoreTimestamp = true ↔ packet.flags &&& SYNC_TIMESTAMP = 0)
  carried : ∀ ch packet, round ch = some packet → ∀ k : Fin t.maxSamplesBatch, k.val < packet.last →
    (p.payload.drop (t.offset (t.ind ch) k)).take t.width = t.encode (packet.samples k)
  silent : ∀ place : Fin 2, place.val < t.chCount → ∀ k : Fin t.maxSamplesBatch,
    (∀ ch packet, round ch = some packet → t.ind ch = place → packet.last ≤ k) →
      t.slot p place k = t.encode .zero ∨ t.slot p place k = t.encode (uninitialised place k)

end TxSetup

namespace TransmitLoop

variable {t : TxSetup} {B : Fin 2 → Nat}
  {uninitialised : Fin 2 → Buffer Complex16 t.maxSamplesBatch}

def formed (s : TransmitLoop t B) : List FPGA_DataPacket :=
  s.sent.flatMap TxTransfer.pkt ++ s.transfer.pkt

def round (s : TransmitLoop t B) (ch : Fin 2) : Option (SamplesPacket Complex16 t.maxSamplesBatch) :=
  s.visits[ch.val]?.bind Visit.packet

/-- The packets that were popped are conveyed, in order and once, except those of the round
    that is under way. -/
structure Contract (uninitialised : Fin 2 → Buffer Complex16 t.maxSamplesBatch)
    (s : TransmitLoop t B) : Prop where
  rounds : ∃ rounds : List (Fin 2 → Option (SamplesPacket Complex16 t.maxSamplesBatch)),
    List.Forall₂ (t.Conveys uninitialised) s.formed rounds ∧
      ∀ ch, s.popped ch = rounds.filterMap (· ch) ++ (s.round ch).toList
  sizes : ∀ p ∈ s.formed, p.payloadSize ≤ dataSize ∧ t.q ∣ p.payloadSize
  sent : ∀ transfer ∈ s.sent, transfer.Contiguous
  current : s.transfer.Contiguous

structure Agreed (uninitialised : Fin 2 → Buffer Complex16 t.maxSamplesBatch)
    (s : TransmitLoop t B) : Prop where
  undisturbed : ∀ ch packet, s.round ch = some packet → t.Undisturbed s.visits ch
  /-- Nothing that was popped earlier is left where the round brings nothing. -/
  silent : ∀ place : Fin 2, place.val < t.chCount →
    (∀ (ch : Fin 2) v, t.ind ch = place → s.visits[ch.val]? = some v → v.Keeps) →
      ∀ k, (s.packets place).samples k = .zero ∨
        (s.packets place).samples k = uninitialised place k
  timestamp : ∀ ch packet, s.round ch = some packet → packet.timestamp = (s.packets 0).timestamp
  sync : ∀ ch packet, s.round ch = some packet →
    (packet.flags &&& SYNC_TIMESTAMP = 0 ↔ (s.packets 0).flags &&& SYNC_TIMESTAMP = 0)
  room : ∀ ch packet, s.round ch = some packet →
    packet.last * (t.chCount * t.width) ≤ t.roundPayload s.visits
  full : ∀ p ∈ s.transfer.pkt, p.payloadSize = dataSize

/-- A packet is made for the FPGA only when the packets of the round agree. -/
def Allowed (uninitialised : Fin 2 → Buffer Complex16 t.maxSamplesBatch) (s : TransmitLoop t B) :
    Action → Prop
  | .form => s.Agreed uninitialised
  | .write _ | .clear _ | .unused | .inactive | .take | .timeout | .send => True

end TransmitLoop

end Soapy.Lime
