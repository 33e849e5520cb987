import Soapy.Lib.Buffer
import Soapy.Lib.RingQueue

/-! # RingFIFO

The ring of sample packets between a stream channel and the loop that talks to the
hardware. Each function here is what one of its methods does between taking the lock
and giving it up, or one turn of the method's loop.

The samples are of any type. The sizes `P` of a packet and `B` of the ring are those
of the last `Resize`. A timestamp is a `uint64_t` and wraps.
-/

namespace Soapy.Lime

open Lib
open Lib.HandleRing (slot)
open Lib.RingQueue (stored)

scoped instance one_neZero : NeZero 1 := ⟨by decide⟩

scoped instance two_neZero : NeZero 2 := ⟨by decide⟩

structure SamplesPacket (α : Type) (P : Nat) where
  timestamp : UInt64
  /-- End index of samples. -/
  last : Nat
  flags : UInt32
  samples : Buffer α P

def SYNC_TIMESTAMP : UInt32 := 1

def END_BURST : UInt32 := 2

structure RingFIFO (α : Type) (P B : Nat) where
  mBuffer : Fin B → SamplesPacket α P
  mHead : Fin B
  mTail : Fin B
  mFirst : Nat
  mLast : Nat
  mElementsFilled : Nat
  mOverflow : UInt32
  mUnderflow : UInt32

/-- The arguments of `push_samples`. -/
structure Samples (α : Type) where
  buffer : List α
  timestamp : UInt64
  flags : UInt32

structure BufferInfo where
  size : UInt32
  itemsFilled : UInt32
  overflow : UInt32
  underflow : UInt32

variable {α : Type} {P B : Nat} [NeZero B]

/-- `uint32_t` to `int`. -/
def toInt32 (n : Int) : Int := Int.bmod n (2 ^ 32)

theorem toInt32_small {n : Nat} (small : n < 2 ^ 31) : toInt32 n = n := by
  simp only [toInt32, Int.bmod_def]
  omega

namespace SamplesPacket

/-- The first `last` samples. -/
def contents (p : SamplesPacket α P) : List α := p.samples.read 0 p.last

def movedFrom (p target : SamplesPacket α P) : SamplesPacket α P :=
  { p with samples := target.samples }

end SamplesPacket

namespace RingFIFO

def clear (f : RingFIFO α P B) : RingFIFO α P B :=
  { f with
    mHead := 0
    mTail := 0
    mFirst := 0
    mLast := 0
    mElementsFilled := 0
    mOverflow := 0
    mUnderflow := 0 }

def getInfo (f : RingFIFO α P B) : BufferInfo × RingFIFO α P B :=
  (⟨UInt32.ofNat (B * P), UInt32.ofNat (f.mElementsFilled * P), f.mOverflow, f.mUnderflow⟩,
    { f with mOverflow := 0, mUnderflow := 0 })

/-- The oldest packet leaves the ring. -/
def dequeue (f : RingFIFO α P B) : RingFIFO α P B :=
  { f with
    mHead := slot f.mHead 1
    mFirst := 0
    mElementsFilled := f.mElementsFilled - 1 }

/-- Without a free slot, `push_packet` drops the oldest packet. -/
def makeRoom (f : RingFIFO α P B) : RingFIFO α P B :=
  if B ≤ f.mElementsFilled then { f.dequeue with mOverflow := f.mOverflow + 1 } else f

/-- `push_packet`, and what becomes of its argument. -/
def pushPacket (f : RingFIFO α P B) (packet : SamplesPacket α P) :
    RingFIFO α P B × SamplesPacket α P :=
  let f := f.makeRoom
  ({ f with
      mBuffer := Function.update f.mBuffer f.mTail packet
      mTail := slot f.mTail 1
      mElementsFilled := f.mElementsFilled + 1 },
    packet.movedFrom (f.mBuffer f.mTail))

/-- `pop_packet` when there is a packet. -/
def popPacket (f : RingFIFO α P B) (packet : SamplesPacket α P) :
    RingFIFO α P B × SamplesPacket α P :=
  ({ f with
      mBuffer := Function.update f.mBuffer f.mHead ((f.mBuffer f.mHead).movedFrom packet)
      mHead := slot f.mHead 1
      mElementsFilled := f.mElementsFilled - 1 },
    f.mBuffer f.mHead)

/-- `pop_packet` after the time is up. -/
def popNothing (f : RingFIFO α P B) (packet : SamplesPacket α P) :
    RingFIFO α P B × SamplesPacket α P :=
  ({ f with mUnderflow := f.mUnderflow + 1 }, { packet with last := 0, flags := 0 })

/-- What is left of the call does not fit into the packet. -/
def exceeds (f : RingFIFO α P B) (call : Samples α) (samplesTaken : Nat) : Prop :=
  (P : Int) - f.mLast < toInt32 (call.buffer.length - samplesTaken)

instance (f : RingFIFO α P B) (call : Samples α) (samplesTaken : Nat) :
    Decidable (f.exceeds call samplesTaken) :=
  inferInstanceAs (Decidable ((P : Int) - f.mLast < _))

omit [NeZero B] in
theorem exceeds_def (f : RingFIFO α P B) (call : Samples α) (samplesTaken : Nat) :
    f.exceeds call samplesTaken ↔
      (P : Int) - f.mLast < toInt32 (call.buffer.length - samplesTaken) := Iff.rfl

/-- `cnt`. -/
def pieceLength (f : RingFIFO α P B) (call : Samples α) (samplesTaken : Nat) : Int :=
  if f.exceeds call samplesTaken then P - f.mLast
  else toInt32 (call.buffer.length - samplesTaken)

/-- The packet at the tail with the next `cnt` samples of the call. -/
def extend (f : RingFIFO α P B) (call : Samples α) (samplesTaken cnt : Nat) : SamplesPacket α P where
  timestamp := call.timestamp + UInt64.ofNat samplesTaken - UInt64.ofNat f.mLast
  last := f.mLast + cnt
  flags := if f.exceeds call samplesTaken then call.flags &&& SYNC_TIMESTAMP else call.flags
  samples := (f.mBuffer f.mTail).samples.write f.mLast ((call.buffer.drop samplesTaken).take cnt)

def withTail (f : RingFIFO α P B) (packet : SamplesPacket α P) : RingFIFO α P B :=
  { f with mBuffer := Function.update f.mBuffer f.mTail packet, mLast := packet.last }

/-- The packet at the tail is complete. -/
def close (f : RingFIFO α P B) : RingFIFO α P B :=
  { f with
    mTail := slot f.mTail 1
    mElementsFilled := f.mElementsFilled + 1
    mLast := 0 }

/-- One turn; `none` when `memcpy` would pass the end of a buffer. -/
def pushTurn (f : RingFIFO α P B) (call : Samples α) (samplesTaken : Nat) :
    Option (RingFIFO α P B × Nat) :=
  let cnt := f.pieceLength call samplesTaken
  if cnt < 0 ∨ P < f.mLast + cnt ∨ call.buffer.length < samplesTaken + cnt then none
  else
    let packet := f.extend call samplesTaken cnt.toNat
    some (
      if packet.last = P ∨ packet.flags &&& END_BURST ≠ 0 then (f.withTail packet).close
      else f.withTail packet,
      samplesTaken + cnt.toNat)

/-- One turn of the inner loop of `pop_samples`: the samples that are copied, or `none`
    when `memcpy` would pass the end of a buffer. -/
def popTurn (f : RingFIFO α P B) (samplesCount samplesFilled : Nat) :
    Option (RingFIFO α P B × List α) :=
  let remaining := toInt32 (samplesCount - samplesFilled)
  let head := f.mBuffer f.mHead
  let cntbuf := toInt32 (head.last - f.mFirst)
  let cnt := if cntbuf < remaining then cntbuf else remaining
  if cnt < 0 ∨ P < f.mFirst + cnt ∨ samplesCount < samplesFilled + cnt then none
  else
    some (
      if cntbuf = cnt then f.dequeue else { f with mFirst := f.mFirst + cnt.toNat },
      head.samples.read f.mFirst cnt.toNat)

variable {f : RingFIFO α P B}

/-- The complete packets, oldest first. -/
def queue (f : RingFIFO α P B) : List (SamplesPacket α P) :=
  stored f.mBuffer f.mHead f.mElementsFilled

/-- The indices agree. -/
structure Ring (f : RingFIFO α P B) : Prop where
  tail : f.mTail = slot f.mHead f.mElementsFilled
  filled : f.mElementsFilled ≤ B

theorem Ring.clear (f : RingFIFO α P B) : f.clear.Ring where
  tail := (HandleRing.slot_zero _).symm
  filled := Nat.zero_le _

@[simp] theorem queue_clear (f : RingFIFO α P B) : f.clear.queue = [] := rfl

@[simp] theorem queue_length (f : RingFIFO α P B) : f.queue.length = f.mElementsFilled :=
  RingQueue.stored_length

theorem Ring.popPacket (ring : f.Ring) (some : 0 < f.mElementsFilled) (packet : SamplesPacket α P) :
    (f.popPacket packet).1.Ring ∧
      f.queue = (f.popPacket packet).2 :: (f.popPacket packet).1.queue := by
  obtain ⟨n, filled⟩ := Nat.exists_eq_succ_of_ne_zero (ne_of_gt some)
  have bound := ring.filled
  constructor
  · constructor
    · simp only [RingFIFO.popPacket, HandleRing.slot_slot, ring.tail, filled]
      congr 1
      omega
    · simp only [RingFIFO.popPacket]
      omega
  · have untouched := RingQueue.stored_update_head f.mBuffer f.mHead
      (n := n) (by omega) ((f.mBuffer f.mHead).movedFrom packet)
    simp only [queue, RingFIFO.popPacket, filled, Nat.succ_eq_add_one, Nat.add_sub_cancel,
      untouched]
    rfl

theorem Ring.dequeue (ring : f.Ring) (some : 0 < f.mElementsFilled) :
    f.dequeue.Ring ∧ f.queue = f.mBuffer f.mHead :: f.dequeue.queue := by
  obtain ⟨n, filled⟩ := Nat.exists_eq_succ_of_ne_zero (ne_of_gt some)
  have bound := ring.filled
  constructor
  · constructor
    · simp only [RingFIFO.dequeue, HandleRing.slot_slot, ring.tail, filled]
      congr 1
      omega
    · simp only [RingFIFO.dequeue]
      omega
  · simp only [queue, RingFIFO.dequeue, filled, Nat.succ_eq_add_one, Nat.add_sub_cancel]
    rfl

theorem Ring.put (ring : f.Ring) (room : f.mElementsFilled < B) (packet : SamplesPacket α P) :
    stored (Function.update f.mBuffer f.mTail packet) f.mHead (f.mElementsFilled + 1) =
      f.queue ++ [packet] := by
  rw [ring.tail]
  exact RingQueue.stored_push f.mBuffer f.mHead room packet

end RingFIFO

end Soapy.Lime
