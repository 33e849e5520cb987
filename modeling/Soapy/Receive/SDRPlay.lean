import Soapy.Lib.RingQueue
import Soapy.Lib.Runs
import Soapy.Lib.SampleLog

/-! # The ring of an SDRplay stream

The callback fills the buffer at the tail until the next samples would reach the decimated
length, and drops samples when the ring is full. The reader empties the buffer that it acquired
over several calls. The callback, the acquiring and the releasing of a buffer hold the mutex of
the stream, but not while the reader waits.
-/

namespace Soapy.Receive.SDRPlay

open Lib HandleRing

variable {n : Nat} [NeZero n] {α : Type}

def elementsPerSample : Nat := 2

/-- The format of a stream. -/
structure Config where
  bufferElems : Nat
  shortsPerWord : Nat
  positive : 0 < shortsPerWord

def Config.shorts (c : Config) (numSamples : Nat) : Nat :=
  numSamples * elementsPerSample * c.shortsPerWord

/-- The length that the threshold is taken from, and the capacity that is reserved. -/
def Config.bufferLength (c : Config) : Nat := c.bufferElems * elementsPerSample * c.shortsPerWord

def Config.size (c : Config) (b : Block α) : Nat := c.shorts b.data.length

/-- Where the reader is: in front of the drain in `acquireReadBuffer`, of the wait there, of the
    copy behind it, and of the release. -/
inductive Place where
  | idle
  | acquires (numElems : Nat)
  | waits (numElems : Nat)
  | copies (numElems : Nat)
  | releases
deriving DecidableEq

/-- Behind the fields of the stream: the acquired buffer, the complete ones that were not given
    back, whether one of these was filled, what arrived, and what the reader saw of it. -/
structure State (n : Nat) (α : Type) where
  buffs : Fin n → Block α
  head : Fin n
  tail : Fin n
  count : Nat
  overflowEvent : Bool
  reset : Bool
  nElems : Nat
  currentHandle : Fin n
  currentBuff : Nat
  place : Place
  acquired : Option (Fin n)
  unread : Fin n → Bool
  misfilled : Bool
  arrived : List α
  log : List (Seen α)

/-- Behind `activateStream`. -/
def State.start : State n α :=
  { buffs := fun _ => ⟨0, []⟩
    head := 0
    tail := 0
    count := 0
    overflowEvent := false
    reset := true
    nElems := 0
    currentHandle := 0
    currentBuff := 0
    place := .idle
    acquired := none
    unread := fun _ => false
    misfilled := false
    arrived := []
    log := [] }

/-- The samples are dropped. -/
def State.loses (s : State n α) (data : List α) : State n α :=
  { s with overflowEvent := true, arrived := s.arrived ++ data }

/-- The tail moves on. The buffer that it leaves holds the last samples that arrived. -/
def State.completes (s : State n α) : State n α :=
  { s with
    buffs := Function.update s.buffs s.tail
      ⟨s.arrived.length - (s.buffs s.tail).data.length, (s.buffs s.tail).data⟩
    tail := slot s.tail 1
    count := s.count + 1
    unread := Function.update s.unread s.tail true }

def State.fills (s : State n α) (data : List α) : State n α :=
  { s with
    buffs := Function.update s.buffs s.tail
      ⟨(s.buffs s.tail).start, (s.buffs s.tail).data ++ data⟩
    misfilled := s.misfilled || s.unread s.tail && data.length ≠ 0
    arrived := s.arrived ++ data }

def State.rx_callback (c : Config) (decimationFactor : Nat) (s : State n α) (data : List α) :
    State n α :=
  if s.count = n then s.loses data
  else if c.size (s.buffs s.tail) + c.shorts data.length ≥ c.bufferLength / decimationFactor then
    if s.completes.count = n ∧ c.shorts data.length >
        c.bufferLength - c.size (s.completes.buffs s.completes.tail) then
      s.completes.loses data
    else s.completes.fills data
  else s.fills data

/-- `acquireReadBuffer` empties the ring. -/
def State.drain (s : State n α) : State n α :=
  { s with
    buffs := fun i => ⟨(s.buffs i).start, []⟩
    head := 0
    tail := 0
    count := 0
    overflowEvent := false
    unread := fun _ => false
    log := s.log ++ [.gap] }

inductive Act (α : Type) where
  | arrive (decimationFactor : Nat) (data : List α)
  | request_reset
  | readStream (numElems : Nat)
  | drain_reset
  | return_overflow
  | wait
  | timeout
  | acquire
  | copy
  | release

/-- Samples are passed on one by one, so copying them stands for their conversion, too. -/
inductive Step (c : Config) : State n α → Act α → State n α → Prop where
  /-- The samples fit an empty buffer. -/
  | arrive {s decimationFactor data} : c.shorts data.length ≤ c.bufferLength →
      Step c s (.arrive decimationFactor data) (s.rx_callback c decimationFactor data)
  | request_reset {s} : Step c s .request_reset { s with reset := true }
  | readStream {s numElems} : s.place = .idle →
      Step c s (.readStream numElems)
        { s with place := if s.nElems = 0 then .acquires numElems else .copies numElems }
  | drain_reset {s numElems} : s.place = .acquires numElems → s.reset = true →
      Step c s .drain_reset { s.drain with reset := false, place := .waits numElems }
  | return_overflow {s numElems} : s.place = .acquires numElems → s.reset = false →
      s.overflowEvent = true → Step c s .return_overflow { s.drain with place := .idle }
  | wait {s numElems} : s.place = .acquires numElems → s.reset = false → s.overflowEvent = false →
      s.count = 0 → Step c s .wait { s with place := .waits numElems }
  | timeout {s numElems} : s.place = .waits numElems → s.count = 0 →
      Step c s .timeout { s with place := .idle }
  | acquire {s numElems} : (s.place = .acquires numElems ∧ s.reset = false ∧
        s.overflowEvent = false) ∨ s.place = .waits numElems → s.count ≠ 0 →
      Step c s .acquire
        { s with
          place := .copies numElems
          head := slot s.head 1
          nElems := c.size (s.buffs s.head) / (elementsPerSample * c.shortsPerWord)
          currentHandle := s.head
          currentBuff := 0
          acquired := some s.head }
  | copy {s numElems} : s.place = .copies numElems →
      Step c s .copy
        { s with
          place := if s.nElems - min s.nElems numElems ≠ 0 then .idle else .releases
          nElems := s.nElems - min s.nElems numElems
          currentBuff := s.currentBuff + min s.nElems numElems
          log := s.log ++ [.samples
            (((s.buffs s.currentHandle).drop s.currentBuff).take (min s.nElems numElems))] }
  | release {s} : s.place = .releases →
      Step c s .release
        { s with
          place := .idle
          buffs := Function.update s.buffs s.currentHandle
            ⟨(s.buffs s.currentHandle).start, []⟩
          count := s.count - 1
          acquired := none
          unread := Function.update s.unread s.currentHandle false }

/-- What a run must keep to: samples that complete the last free buffer do not fit the oldest one,
    which the tail then is at. -/
def Meets (c : Config) (s : State n α) : Act α → Prop
  | .arrive decimationFactor data => s.count + 1 = n →
      c.size (s.buffs s.tail) + c.shorts data.length ≥ c.bufferLength / decimationFactor →
      data.length ≠ 0 →
      c.shorts data.length > c.bufferLength - c.size (s.buffs (slot s.tail 1))
  | _ => True

end Soapy.Receive.SDRPlay
