import Soapy.Lib.RingQueue
import Soapy.Lib.Runs

/-! # The receive queue of libairspy

The callback of a completed transfer swaps its buffer for the one in the slot at the head of the
queue, and drops the transfer when the queue is full. The consumer thread takes the buffer at the
tail and gives it to the user's callback. Each section under `consumer_mp` is one step. The
conversion of a block is left out: a block stands for what it is converted to.
-/

namespace Soapy.Receive.Airspy

open Lib HandleRing

abbrev RAW_BUFFER_COUNT : Nat := 8

scoped instance eight_neZero : NeZero 8 := ⟨by decide⟩

inductive SampleType where
  | float32_iq
  | float32_real
  | int16_iq
  | int16_real
  | uint16_real
  | raw
deriving DecidableEq

def buffer_size (packing_enabled : Bool) : Nat := if packing_enabled then 6144 * 24 else 262144

/-- `transfer.sample_count`. -/
def sample_count (packing_enabled : Bool) (sample_type : SampleType) : Nat :=
  let sample_count :=
    if packing_enabled then buffer_size packing_enabled / 2 * 4 / 3
    else buffer_size packing_enabled / 2
  match sample_type with
  | .float32_iq | .int16_iq => sample_count / 2
  | .float32_real | .int16_real | .uint16_real | .raw => sample_count

theorem sample_count_lt (packing_enabled : Bool) (sample_type : SampleType) :
    sample_count packing_enabled sample_type < 2 ^ 32 := by
  cases packing_enabled <;> cases sample_type <;> decide

/-- `transfer.dropped_samples`, of 64 bits. -/
def dropped_samples (dropped_buffers sample_count : Nat) : Nat :=
  dropped_buffers * sample_count % 2 ^ 64

theorem dropped_samples_eq {d n : Nat} (dropped : d < 2 ^ 32) (few : n < 2 ^ 32) :
    dropped_samples d n = d * n := by
  apply Nat.mod_eq_of_lt
  calc d * n < 2 ^ 32 * 2 ^ 32 := Nat.mul_lt_mul'' dropped few
    _ = 2 ^ 64 := rfl

/-- A completed transfer comes to the queue, or is dropped. -/
inductive Arrival (α : Type) where
  | received (block : α)
  | discarded

section Arrivals

variable {α : Type}

/-- The blocks received behind `d` discarded ones, each with the number of transfers that were
    discarded since the one before. -/
def blocksFrom (d : Nat) : List (Arrival α) → List (α × Nat)
  | [] => []
  | .received x :: l => (x, d) :: blocksFrom 0 l
  | .discarded :: l => blocksFrom (d + 1) l

/-- The number of transfers that were discarded since the last block. -/
def discardedFrom (d : Nat) : List (Arrival α) → Nat
  | [] => d
  | .received _ :: l => discardedFrom 0 l
  | .discarded :: l => discardedFrom (d + 1) l

abbrev blocks (l : List (Arrival α)) : List (α × Nat) := blocksFrom 0 l

theorem blocksFrom_append (d : Nat) (l l' : List (Arrival α)) :
    blocksFrom d (l ++ l') = blocksFrom d l ++ blocksFrom (discardedFrom d l) l' := by
  induction l generalizing d with
  | nil => rfl
  | cons a l ih =>
    cases a with
    | received x => exact congrArg _ (ih 0)
    | discarded => exact ih (d + 1)

theorem discardedFrom_append (d : Nat) (l l' : List (Arrival α)) :
    discardedFrom d (l ++ l') = discardedFrom (discardedFrom d l) l' := by
  induction l generalizing d with
  | nil => rfl
  | cons a l ih =>
    cases a with
    | received x => exact ih 0
    | discarded => exact ih (d + 1)

end Arrivals

/-- Where a transfer is: with the device, in its callback in front of the section under the mutex
    or behind it, or left alone. -/
inductive TransferPlace where
  | submitted
  | enters
  | resubmits
  | idle
deriving DecidableEq

/-- Where the consumer thread is: in front of the section under the mutex, converting the buffer
    it has taken, behind the user's callback, or at its end. -/
inductive Place (Buf : Type) where
  | waits
  | converts (input_samples : Buf) (dropped_buffers : Nat)
  | returns (input_samples : Buf)
  | ended

variable {n : Nat} {Buf α : Type}

def Place.input : Place Buf → Option Buf
  | .converts input _ | .returns input => some input
  | .waits | .ended => none

/-- The buffers of the slots and transfers point to `memory`. `arrivals` are the completed
    transfers, and `delivered` the blocks given to the user's callback, with the number of dropped
    samples. -/
structure State (n : Nat) (Buf α : Type) where
  received_samples_queue : Fin RAW_BUFFER_COUNT → Buf
  dropped_buffers_queue : Fin RAW_BUFFER_COUNT → Nat
  received_samples_queue_head : Fin RAW_BUFFER_COUNT
  received_samples_queue_tail : Fin RAW_BUFFER_COUNT
  received_buffer_count : Nat
  dropped_buffers : Nat
  streaming : Bool
  stop_requested : Bool
  buffer : Fin n → Buf
  transfer : Fin n → TransferPlace
  memory : Buf → α
  place : Place Buf
  arrivals : List (Arrival α)
  delivered : List (α × Nat)

/-- Behind `airspy_start_rx`. -/
def State.start (queue : Fin RAW_BUFFER_COUNT → Buf) (buffer : Fin n → Buf) (memory : Buf → α) :
    State n Buf α where
  received_samples_queue := queue
  dropped_buffers_queue := fun _ => 0
  received_samples_queue_head := 0
  received_samples_queue_tail := 0
  received_buffer_count := 0
  dropped_buffers := 0
  streaming := true
  stop_requested := false
  buffer := buffer
  transfer := fun _ => .submitted
  memory := memory
  place := .waits
  arrivals := []
  delivered := []

/-- The condition of the loops of the threads. -/
def State.runs (s : State n Buf α) : Bool := s.streaming && !s.stop_requested

/-- `airspy_libusb_transfer_callback` under the mutex. -/
def State.transfer_callback (s : State n Buf α) (i : Fin n) : State n Buf α :=
  if s.received_buffer_count < RAW_BUFFER_COUNT then
    { s with
      received_samples_queue :=
        Function.update s.received_samples_queue s.received_samples_queue_head (s.buffer i)
      buffer :=
        Function.update s.buffer i (s.received_samples_queue s.received_samples_queue_head)
      dropped_buffers_queue :=
        Function.update s.dropped_buffers_queue s.received_samples_queue_head s.dropped_buffers
      dropped_buffers := 0
      received_samples_queue_head := slot s.received_samples_queue_head 1
      received_buffer_count := s.received_buffer_count + 1
      transfer := Function.update s.transfer i .resubmits
      arrivals := s.arrivals ++ [.received (s.memory (s.buffer i))] }
  else
    { s with
      dropped_buffers := (s.dropped_buffers + 1) % 2 ^ 32
      transfer := Function.update s.transfer i .resubmits
      arrivals := s.arrivals ++ [.discarded] }

@[simp] theorem transfer_callback_transfer (s : State n Buf α) (i : Fin n) :
    (s.transfer_callback i).transfer = Function.update s.transfer i .resubmits := by
  unfold State.transfer_callback
  split <;> rfl

/-- `consumer_threadproc` under the mutex, from the condition of its loop on. -/
def State.consumer_loop (s : State n Buf α) : State n Buf α :=
  if s.runs = false then { s with place := .ended }
  else if s.received_buffer_count = 0 then { s with place := .waits }
  else
    { s with
      place := .converts (s.received_samples_queue s.received_samples_queue_tail)
        (s.dropped_buffers_queue s.received_samples_queue_tail)
      received_samples_queue_tail := slot s.received_samples_queue_tail 1 }

inductive Act (n : Nat) (α : Type) where
  | fill (i : Fin n) (block : α)
  | enter (i : Fin n)
  | break_off (i : Fin n)
  | receive (i : Fin n)
  | resubmit (i : Fin n) (accepted : Bool)
  | wake
  | callback (stop : Bool)
  | finish
  | stop_rx

/-- The device writes the buffers of the transfers that are with it. The consumer may wake at any
    time, the user may request a stop at any time. -/
inductive Step [DecidableEq Buf] (packing_enabled : Bool) (sample_type : SampleType) :
    State n Buf α → Act n α → State n Buf α → Prop where
  | fill {s i block} : s.transfer i = .submitted → Step packing_enabled sample_type s
      (.fill i block) { s with memory := Function.update s.memory (s.buffer i) block }
  | enter {s i} : s.transfer i = .submitted → Step packing_enabled sample_type s (.enter i)
      { s with transfer := Function.update s.transfer i (if s.runs then .enters else .idle) }
  | break_off {s i} : s.transfer i = .submitted →
      Step packing_enabled sample_type s (.break_off i)
        { s with
          transfer := Function.update s.transfer i .idle
          streaming := if s.runs then false else s.streaming }
  | receive {s i} : s.transfer i = .enters →
      Step packing_enabled sample_type s (.receive i) (s.transfer_callback i)
  | resubmit {s i accepted} : s.transfer i = .resubmits →
      Step packing_enabled sample_type s (.resubmit i accepted)
        { s with
          transfer := Function.update s.transfer i (if accepted then .submitted else .idle)
          streaming := if accepted then s.streaming else false }
  | wake {s} : s.place = .waits → Step packing_enabled sample_type s .wake s.consumer_loop
  | callback {s input dropped stop} : s.place = .converts input dropped →
      Step packing_enabled sample_type s (.callback stop)
        { s with
          place := .returns input
          stop_requested := stop || s.stop_requested
          delivered := s.delivered ++ [(s.memory input,
            dropped_samples dropped (sample_count packing_enabled sample_type))] }
  | finish {s input} : s.place = .returns input →
      Step packing_enabled sample_type s .finish
        (State.consumer_loop { s with received_buffer_count := s.received_buffer_count - 1 })
  | stop_rx {s} : Step packing_enabled sample_type s .stop_rx { s with stop_requested := true }

end Soapy.Receive.Airspy
