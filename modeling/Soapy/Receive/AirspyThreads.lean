import Soapy.Receive.Airspy

/-! # The threads of libairspy

The user's thread calls `airspy_start_rx` and `airspy_stop_rx`, and `airspy_close` at the end. The
consumer thread and the transfer thread, which also runs the callbacks of the transfers, look at
two flags to know when to end. Each read and each write of the flags is a step, and so is each
section under `consumer_mp`. What libusb and pthread answer is part of the step.
-/

namespace Soapy.Receive.Airspy.Threads

open Lib

inductive Kind where
  | consumer
  | transfer
deriving DecidableEq

/-- The consumer is in front of a section under the mutex for the first time, waits, converts, or is
    behind the user's callback. The transfer thread is at the condition of its loop, handles events,
    or is in a callback: in front of the section, behind it, or with a transfer that did not
    complete. -/
inductive Running where
  | begins
  | waits
  | converts
  | returns
  | loops
  | handles
  | receives
  | resubmits
  | fails
deriving DecidableEq

def Running.kind : Running → Kind
  | .begins | .waits | .converts | .returns => .consumer
  | .loops | .handles | .receives | .resubmits | .fails => .transfer

inductive Thread where
  | absent
  | running (at_p : Running)
  | ended (kind : Kind)
  | joined
deriving DecidableEq

def Thread.Joinable (k : Kind) : Thread → Prop
  | .running p => p.kind = k
  | .ended k' => k' = k
  | .absent | .joined => False

/-- Where the user's thread is: in no call; in `airspy_start_rx` in front of the receiver modes, the
    test of the flags, setting `streaming`, the transfers, the reset of the queue and the two
    threads; in `airspy_stop_rx` in front of the test, the request, the cancelling, the two joins,
    the reset of the flags and the receiver mode; or behind `airspy_close`. -/
inductive Place where
  | idle
  | starts
  | sets_rx
  | tests
  | streams
  | prepares
  | resets
  | creates_consumer
  | creates_transfer
  | kills
  | requests
  | cancels
  | joins_transfer
  | joins_consumer
  | clears_request
  | clears_streaming
  | sets_off
  | closed
deriving DecidableEq

inductive Call where
  | start_rx
  | stop_rx
deriving DecidableEq

/-- `returned` is the call that returned last, and whether it succeeded. `bad_join`: a thread was
    joined that was not created, or not since its last join. -/
structure State where
  streaming : Bool
  stop_requested : Bool
  received_buffer_count : Int
  consumer_thread : Option Nat
  transfer_thread : Option Nat
  thread : Nat → Thread
  next : Nat
  place : Place
  closing : Bool
  returned : Option (Call × Bool)
  bad_join : Bool

/-- Behind `airspy_open`. -/
def State.start : State where
  streaming := false
  stop_requested := false
  received_buffer_count := 0
  consumer_thread := none
  transfer_thread := none
  thread := fun _ => .absent
  next := 0
  place := .idle
  closing := false
  returned := none
  bad_join := false

def State.runs (s : State) : Bool := s.streaming && !s.stop_requested

def State.returns (s : State) (call : Call) (success : Bool) : State :=
  { s with place := .idle, returned := some (call, success) }

def State.move (s : State) (i : Nat) (t : Thread) : State :=
  { s with thread := Function.update s.thread i t }

def State.consumer_loop (s : State) (i : Nat) : State :=
  if s.runs = false then s.move i (.ended .consumer)
  else if s.received_buffer_count = 0 then s.move i (.running .waits)
  else s.move i (.running .converts)

/-- `pthread_create`, which succeeds. -/
def State.pthread_create (s : State) (k : Kind) : State :=
  match k with
  | .consumer =>
    { s.move s.next (.running .begins) with consumer_thread := some s.next, next := s.next + 1 }
  | .transfer =>
    { s.move s.next (.running .loops) with transfer_thread := some s.next, next := s.next + 1 }

/-- `pthread_join` returns. Only the join of a thread that runs has to wait. -/
def State.pthread_join (s : State) : Option Nat → State
  | none => { s with bad_join := true }
  | some i =>
    match s.thread i with
    | .ended _ => s.move i .joined
    | .absent | .running _ | .joined => { s with bad_join := true }

@[simp] theorem pthread_join_returned (s : State) (t : Option Nat) :
    (s.pthread_join t).returned = s.returned := by
  unfold State.pthread_join
  split
  · rfl
  · split <;> rfl

def State.Joins (s : State) (t : Option Nat) : Prop :=
  ∀ i, t = some i → ∀ p, s.thread i ≠ .running p

inductive Act where
  | start_rx
  | mode_off (success : Bool)
  | mode_rx (success : Bool)
  | test
  | stream
  | prepare_transfers (success : Bool)
  | reset
  | create_consumer (success : Bool)
  | create_transfer (success : Bool)
  | stop_rx
  | close
  | kill
  | request
  | cancel
  | join_transfer
  | join_consumer
  | clear_request
  | clear_streaming
  | leave (success : Bool)
  | wake (i : Nat)
  | finish (i : Nat)
  | callback (i : Nat) (stop : Bool)
  | loop (i : Nat)
  | complete (i : Nat)
  | break_off (i : Nat)
  | receive (i : Nat)
  | resubmit (i : Nat) (success : Bool)
  | fail (i : Nat)
  | handled (i : Nat) (success : Bool)

inductive Step : State → Act → State → Prop where
  | start_rx {s} : s.place = .idle →
      Step s .start_rx { s with place := .starts, returned := none }
  | mode_off {s success} : s.place = .starts →
      Step s (.mode_off success)
        (if success then { s with place := .sets_rx } else s.returns .start_rx false)
  | mode_rx {s success} : s.place = .sets_rx →
      Step s (.mode_rx success)
        (if success then { s with place := .tests } else s.returns .start_rx false)
  | test {s} : s.place = .tests →
      Step s .test
        (if !s.streaming && !s.stop_requested then { s with place := .streams }
        else s.returns .start_rx false)
  | stream {s} : s.place = .streams →
      Step s .stream { s with streaming := true, place := .prepares }
  | prepare_transfers {s success} : s.place = .prepares →
      Step s (.prepare_transfers success)
        (if success then { s with place := .resets } else s.returns .start_rx false)
  | reset {s} : s.place = .resets →
      Step s .reset { s with received_buffer_count := 0, place := .creates_consumer }
  | create_consumer {s success} : s.place = .creates_consumer →
      Step s (.create_consumer success)
        (if success then { s.pthread_create .consumer with place := .creates_transfer }
        else s.returns .start_rx false)
  | create_transfer {s success} : s.place = .creates_transfer →
      Step s (.create_transfer success)
        (if success then (s.pthread_create .transfer).returns .start_rx true
        else s.returns .start_rx false)
  | stop_rx {s} : s.place = .idle →
      Step s .stop_rx { s with place := .kills, returned := none }
  | close {s} : s.place = .idle →
      Step s .close { s with place := .kills, returned := none, closing := true }
  | kill {s} : s.place = .kills →
      Step s .kill { s with place := if s.streaming then .requests else .sets_off }
  | request {s} : s.place = .requests →
      Step s .request { s with stop_requested := true, place := .cancels }
  | cancel {s} : s.place = .cancels → Step s .cancel { s with place := .joins_transfer }
  | join_transfer {s} : s.place = .joins_transfer → s.Joins s.transfer_thread →
      Step s .join_transfer { s.pthread_join s.transfer_thread with place := .joins_consumer }
  | join_consumer {s} : s.place = .joins_consumer → s.Joins s.consumer_thread →
      Step s .join_consumer { s.pthread_join s.consumer_thread with place := .clears_request }
  | clear_request {s} : s.place = .clears_request →
      Step s .clear_request { s with stop_requested := false, place := .clears_streaming }
  | clear_streaming {s} : s.place = .clears_streaming →
      Step s .clear_streaming { s with streaming := false, place := .sets_off }
  | leave {s success} : s.place = .sets_off →
      Step s (.leave success)
        { s.returns .stop_rx success with place := if s.closing then .closed else .idle }
  | wake {s i p} : s.thread i = .running p → p = .begins ∨ p = .waits →
      Step s (.wake i) (s.consumer_loop i)
  | finish {s i} : s.thread i = .running .returns →
      Step s (.finish i)
        (State.consumer_loop { s with received_buffer_count := s.received_buffer_count - 1 } i)
  | callback {s i stop} : s.thread i = .running .converts →
      Step s (.callback i stop)
        { s.move i (.running .returns) with stop_requested := stop || s.stop_requested }
  | loop {s i} : s.thread i = .running .loops →
      Step s (.loop i) (s.move i (if s.runs then .running .handles else .ended .transfer))
  | complete {s i} : s.thread i = .running .handles →
      Step s (.complete i) (if s.runs then s.move i (.running .receives) else s)
  | break_off {s i} : s.thread i = .running .handles →
      Step s (.break_off i) (if s.runs then s.move i (.running .fails) else s)
  | receive {s i} : s.thread i = .running .receives →
      Step s (.receive i)
        { s.move i (.running .resubmits) with
          received_buffer_count :=
            if s.received_buffer_count < RAW_BUFFER_COUNT then s.received_buffer_count + 1
            else s.received_buffer_count }
  | resubmit {s i success} : s.thread i = .running .resubmits →
      Step s (.resubmit i success)
        { s.move i (.running .handles) with
          streaming := if success then s.streaming else false }
  | fail {s i} : s.thread i = .running .fails →
      Step s (.fail i) { s.move i (.running .handles) with streaming := false }
  | handled {s i success} : s.thread i = .running .handles →
      Step s (.handled i success)
        { s.move i (.running .loops) with streaming := if success then s.streaming else false }

def State.Lives (s : State) (k : Kind) (i : Nat) : Prop := ∃ p, s.thread i = .running p ∧ p.kind = k

/-- At most one thread of each kind, only threads were joined that were there, no thread lives
    behind `airspy_stop_rx` and `airspy_close`, and `airspy_start_rx` can succeed then. -/
structure LifeCycle (Allowed : State → Act → Prop) (s : State) : Prop where
  single : ∀ k i j, s.Lives k i → s.Lives k j → i = j
  joined : s.bad_join = false
  ended : ∀ success, s.returned = some (.stop_rx, success) → ∀ k i, ¬ s.Lives k i
  again : ∀ success, s.returned = some (.stop_rx, success) → s.place = .idle →
    ∃ s', Runs Step Allowed s s' ∧ s'.returned = some (.start_rx, true)

/-- The user's thread is in `kill_io_threads`, behind its test. -/
def Place.killing : Place → Bool
  | .requests | .cancels | .joins_transfer | .joins_consumer | .clears_request
  | .clears_streaming => true
  | .idle | .starts | .sets_rx | .tests | .streams | .prepares | .resets | .creates_consumer
  | .creates_transfer | .kills | .sets_off | .closed => false

/-- The transfers are submitted and the threads created when streaming starts, and nothing fails
    later until `airspy_stop_rx` ends the threads. -/
def Meets (s : State) : Act → Prop
  | .prepare_transfers success | .create_consumer success | .create_transfer success =>
    success = true
  | .resubmit _ success | .handled _ success => success = true ∨ s.place.killing = true
  | .fail _ => s.place.killing = true
  | _ => True

end Soapy.Receive.Airspy.Threads
