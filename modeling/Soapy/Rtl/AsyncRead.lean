import Soapy.Lib.Runs

/-! # Asynchronous reading

One thread is in `rtlsdr_read_async`, which allocates transfers and buffers, submits them
and handles events until the state leaves the loop. Callbacks run in the event handling of
that thread, and `rtlsdr_cancel_async` may be called at any time. What libusb answers is part
of the step.
-/

namespace Soapy.Rtl.AsyncRead

open Lib

/-- `enum rtlsdr_async_status`. -/
inductive Status where
  | inactive
  | canceling
  | running
deriving DecidableEq

/-- `enum libusb_transfer_status`. -/
inductive TransferStatus where
  | completed
  | error
  | timed_out
  | cancelled
  | stall
  | no_device
  | overflow
deriving DecidableEq

/-- A buffer is known by a number; a null pointer is `none`. -/
structure Transfer where
  buffer : Option Nat
  status : TransferStatus
  in_flight : Bool

def libusb_alloc_transfer : Transfer :=
  { buffer := none, status := .completed, in_flight := false }

/-- What must not happen: a null pointer is followed, a transfer is submitted with a null
    buffer or freed in flight, a buffer is freed that is not allocated. -/
inductive Fault where
  | null_pointer
  | null_buffer
  | freed_in_flight
  | freed_twice
deriving DecidableEq

/-- The buffers that are allocated, and the faults so far. -/
structure Heap where
  next : Nat
  live : List Nat
  faults : List Fault

def Heap.malloc (h : Heap) : Nat × Heap :=
  (h.next, { h with next := h.next + 1, live := h.next :: h.live })

def Heap.free (h : Heap) (b : Nat) : Heap :=
  if b ∈ h.live then { h with live := h.live.erase b }
  else { h with faults := h.faults ++ [.freed_twice] }

def Heap.fault (h : Heap) (f : Fault) : Heap := { h with faults := h.faults ++ [f] }

/-- `handles`, `settles` and `drains` are the three calls that handle events: in the loop, behind a
    cancel, which succeeded or not, and behind the last round of cancels. -/
inductive Place where
  | idle
  | entered
  | allocates
  | submits (i : Nat)
  | loops
  | handles
  | checks
  | cancels (i : Nat)
  | settles (i : Nat) (success : Bool)
  | drains
  | leaves
  | freed
  | crashed
deriving DecidableEq

structure State where
  place : Place
  async_status : Status
  async_cancel : Bool
  xfer_buf_num : Nat
  xfer_buf_len : Nat
  xfer : Option (List (Option Transfer))
  xfer_buf : Option (List (Option Nat))
  use_zerocopy : Bool
  dev_lost : Bool
  xfer_errors : Nat
  next_status : Status
  heap : Heap

def State.start : State :=
  { place := .idle
    async_status := .inactive
    async_cancel := false
    xfer_buf_num := 0
    xfer_buf_len := 0
    xfer := none
    xfer_buf := none
    use_zerocopy := false
    dev_lost := false
    xfer_errors := 0
    next_status := .inactive
    heap := { next := 0, live := [], faults := [] } }

def DEFAULT_BUF_NUMBER : Nat := 15

def DEFAULT_BUF_LENGTH : Nat := 16 * 32 * 512

/-- Which allocations succeed, in the order in which they are made. -/
structure Allocs where
  xfer : Bool
  transfer : Nat → Bool
  xfer_buf : Bool
  zerocopy : Nat → Bool
  user : Nat → Bool

/-- Allocates a buffer for each entry from index `i` on, up to the first that fails. -/
def alloc_buffers (success : Nat → Bool) : Nat → List (Option Nat) → Heap →
    List (Option Nat) × Bool × Heap
  | _, [], h => ([], true, h)
  | i, _ :: rest, h =>
    if success i then
      let (b, h) := h.malloc
      let (bs, all, h) := alloc_buffers success (i + 1) rest h
      (some b :: bs, all, h)
    else (none :: rest, false, h)

def free_buffers : List (Option Nat) → Heap → Heap
  | [], h => h
  | none :: rest, h => free_buffers rest h
  | some b :: rest, h => free_buffers rest (h.free b)

/-- The part of `_rtlsdr_alloc_async_buffers` behind the check of `xfer_buf`. Buffers without
    zero-copy are freed again; their pointers stay until they are overwritten. -/
def alloc_xfer_buf (s : State) (a : Allocs) : State :=
  let (bs, all, heap) :=
    alloc_buffers a.zerocopy 0 (List.replicate s.xfer_buf_num none) s.heap
  if all then { s with xfer_buf := some bs, use_zerocopy := true, heap := heap }
  else
    let (bs, _, heap) := alloc_buffers a.user 0 bs (free_buffers bs heap)
    { s with xfer_buf := some bs, use_zerocopy := false, heap := heap }

/-- `rtlsdr_read_async` does not look at what it returns. -/
def alloc_async_buffers (s : State) (a : Allocs) : State :=
  let xfer :=
    match s.xfer with
    | some ts => some ts
    | none =>
      if a.xfer then
        some ((List.range s.xfer_buf_num).map
          (fun i => if a.transfer i then some libusb_alloc_transfer else none))
      else none
  if xfer.isNone then { s with place := .crashed, heap := s.heap.fault .null_pointer }
  else if s.xfer_buf.isSome then { s with xfer := xfer, place := .submits 0 }
  else if a.xfer_buf then alloc_xfer_buf { s with xfer := xfer, place := .submits 0 } a
  else { s with xfer := xfer, place := .crashed, heap := s.heap.fault .null_pointer }

def Transfer.flies : Option Transfer → Bool
  | none => false
  | some t => t.in_flight

def State.transfers (s : State) : List (Option Transfer) := s.xfer.getD []

def State.Landed (s : State) : Prop := ∀ t ∈ s.transfers, Transfer.flies t = false

def free_async_buffers (s : State) : State :=
  let heap := if s.transfers.any Transfer.flies then s.heap.fault .freed_in_flight else s.heap
  { s with
    xfer := none
    xfer_buf := none
    heap := free_buffers (s.xfer_buf.getD []) heap }

def cancel_async (s : State) : State :=
  if s.async_status = .running then { s with async_status := .canceling, async_cancel := true }
  else s

def State.store (s : State) (i : Nat) (t : Transfer) : State :=
  { s with xfer := s.xfer.map (fun ts => ts.set i (some t)) }

/-- The part of `_libusb_callback` for a transfer that neither completed nor was cancelled. -/
def transfer_failed (s : State) (status : TransferStatus) : State :=
  let errors := if status = .error then s.xfer_errors + 1 else s.xfer_errors
  if errors ≥ s.xfer_buf_num ∨ status = .no_device then
    cancel_async { s with xfer_errors := errors, dev_lost := true }
  else { s with xfer_errors := errors }

/-- `_libusb_callback` for transfer `i`, which libusb ends with a status. The callback of the
    caller may cancel, which is a step of its own. -/
def libusb_callback (s : State) (i : Nat) (t : Transfer) (status : TransferStatus)
    (resubmits : Bool) : State :=
  let s := s.store i { t with status := status, in_flight := false }
  match status with
  | .completed =>
    let heap := if t.buffer.isNone then s.heap.fault .null_buffer else s.heap
    { s.store i { t with status := status, in_flight := resubmits } with
      heap := heap
      xfer_errors := 0 }
  | .cancelled => s
  | status => transfer_failed s status

/-- `libusb_fill_bulk_transfer` and `libusb_submit_transfer` for one transfer. -/
def submit (s : State) (i : Nat) (success : Bool) : State :=
  match s.transfers[i]? with
  | some (some t) =>
    let buffer := ((s.xfer_buf.getD [])[i]?).join
    let heap := if buffer.isNone then s.heap.fault .null_buffer else s.heap
    let s := { s.store i { t with buffer := buffer, in_flight := success } with heap := heap }
    if success then { s with place := .submits (i + 1) }
    else { s with async_status := .canceling, place := .loops }
  | _ => { s with place := .crashed, heap := s.heap.fault .null_pointer }

/-- What the event handling of libusb returns: 0, `LIBUSB_ERROR_INTERRUPTED` or another error. -/
inductive Handled where
  | ok
  | interrupted
  | error
deriving DecidableEq

inductive Act where
  | read_async (buf_num buf_len : Nat)
  | begin_async (buf_num buf_len : Nat)
  | alloc (a : Allocs)
  | submit (success : Bool)
  | submitted
  | cancel_async
  | callback (i : Nat) (status : TransferStatus) (resubmits : Bool)
  | enter_loop
  | leave_loop
  | handled (r : Handled)
  | check
  | cancel (success : Bool)
  | cancel_skip
  | settled
  | round_end
  | drained
  | free
  | return_async

/-- The calls in which libusb runs callbacks. -/
def Place.HandlesEvents : Place → Prop
  | .handles | .settles _ _ | .drains => True
  | _ => False

inductive Step : State → Act → State → Prop where
  | read_async {s buf_num buf_len} : s.place = .idle → s.async_status = .inactive →
      Step s (.read_async buf_num buf_len)
        { s with place := .entered, async_status := .running, next_status := .inactive }
  | begin_async {s buf_num buf_len} : s.place = .entered →
      Step s (.begin_async buf_num buf_len)
        { s with
          place := .allocates
          async_cancel := false
          xfer_buf_num := if buf_num > 0 then buf_num else DEFAULT_BUF_NUMBER
          xfer_buf_len := if buf_len > 0 ∧ buf_len % 512 = 0 then buf_len else DEFAULT_BUF_LENGTH }
  | alloc {s a} : s.place = .allocates → Step s (.alloc a) (alloc_async_buffers s a)
  | submit {s i success} : s.place = .submits i → i < s.xfer_buf_num →
      Step s (.submit success) (submit s i success)
  | submitted {s i} : s.place = .submits i → s.xfer_buf_num ≤ i →
      Step s .submitted { s with place := .loops }
  | cancel_async {s} : Step s .cancel_async (cancel_async s)
  | callback {s i t status resubmits} : s.place.HandlesEvents → s.transfers[i]? = some (some t) →
      t.in_flight = true →
      Step s (.callback i status resubmits) (libusb_callback s i t status resubmits)
  | enter_loop {s} : s.place = .loops → s.async_status ≠ .inactive →
      Step s .enter_loop { s with place := .handles }
  | leave_loop {s} : s.place = .loops → s.async_status = .inactive →
      Step s .leave_loop { s with place := .leaves }
  | handled {s r} : s.place = .handles →
      Step s (.handled r)
        { s with
          place :=
            match r with
            | .ok => .checks
            | .interrupted => .loops
            | .error => .leaves }
  | check {s} : s.place = .checks →
      Step s .check
        (if s.async_status = .canceling then
          { s with
            next_status := .inactive
            place := if s.xfer.isSome then .cancels 0 else .leaves }
        else { s with place := .loops })
  | cancel {s i t success} : s.place = .cancels i → s.transfers[i]? = some (some t) →
      t.status ≠ .cancelled → i < s.xfer_buf_num →
      Step s (.cancel success) { s with place := .settles i success }
  | cancel_skip {s i} : s.place = .cancels i → i < s.xfer_buf_num →
      (∀ t, s.transfers[i]? = some (some t) → t.status = .cancelled) →
      Step s .cancel_skip { s with place := .cancels (i + 1) }
  | settled {s i success} : s.place = .settles i success →
      Step s .settled
        { s with
          place := .cancels (i + 1)
          next_status := if success then .canceling else s.next_status }
  | round_end {s i} : s.place = .cancels i → s.xfer_buf_num ≤ i →
      Step s .round_end
        { s with
          place := if s.dev_lost = true ∨ s.next_status = .inactive then .drains else .loops }
  | drained {s} : s.place = .drains → Step s .drained { s with place := .leaves }
  | free {s} : s.place = .leaves → Step s .free { free_async_buffers s with place := .freed }
  | return_async {s} : s.place = .freed →
      Step s .return_async { s with place := .idle, async_status := s.next_status }

end Soapy.Rtl.AsyncRead
