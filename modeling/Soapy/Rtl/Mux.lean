import Soapy.Rtl.MsgBounds

/-! # Many threads on one connection

The threads of a client share one socket. A query goes out under the id of the slot its
thread holds, and whoever holds the receive lock takes the next message off the socket,
for itself or for the slot the message names. One thread may stream data at the same
time, which the server interrupts for the queries of the others.
-/

namespace Soapy.Rtl.Mux

open Lib Soapy.Rtl

abbrev Slot := Fin QR_COUNT

/-- What a query asks for. The number of a synchronous query says which one it is. -/
inductive Ask where
  | query (n : Nat)
  | read_async
  | cancel_async
deriving DecidableEq

structure Query where
  id : Slot
  ask : Ask

variable {T D R : Type}

inductive Answer (D R : Type) where
  | reply (n : Nat) (r : R)
  | started
  | refused
  | data (d : D)

structure Message (D R : Type) where
  id : Slot
  answer : Answer D R

/-- What a thread in `recv_msg` came for. -/
inductive Want where
  | reply (n : Nat)
  | start
  | data

/-- The synchronous query that is through when a thread has what it came for. -/
def Want.query : Want → Option Nat
  | .reply n => some n
  | .start | .data => none

/-- `holds` behind `alloc_qr`, `waits` in front of the receive lock, `receives` in the loop of
    `recv_msg`, `answered` behind it, with its reply in use, `leaves` in front of `free_qr`. The
    reader of a stream is also at the head of its loop, in front of the flush or in it. -/
inductive Mode where
  | idle
  | holds (i : Slot)
  | waits (i : Slot) (want : Want)
  | receives (i : Slot) (want : Want)
  | answered (i : Slot) (want : Want)
  | loops (i : Slot)
  | cancels (i : Slot)
  | flushes (i : Slot)
  | leaves (i : Slot)

def Mode.slot : Mode → Option Slot
  | .idle => none
  | .holds i | .waits i _ | .receives i _ | .answered i _ | .loops i | .cancels i | .flushes i
  | .leaves i => some i

/-- The server's side of a stream: `replied` is `async_replied`. -/
inductive Stream where
  | off
  | on (id : Slot) (replied : Bool)
deriving DecidableEq

/-- Thread `none` is the one that reads a stream. The last five fields record the past: the numbers
    given out, the server's answers, what the threads found behind `recv_msg`, and the data sent and
    given to the callback since the last stream began. -/
structure State (T D R : Type) where
  mode : Option T → Mode
  qr_mask : Slot → Bool
  qr_box : Slot → Bool
  recv_lock : Option (Option T)
  reply : Slot → Option (Message D R)
  is_async_cancel : Bool
  queries : List Query
  replies : List (Message D R)
  stream : Stream
  next : Nat
  served : List (Nat × R)
  found : List (Nat × Option (Message D R))
  sent : List D
  passed : List (Answer D R)

def State.start : State T D R :=
  { mode := fun _ => .idle
    qr_mask := fun _ => false
    qr_box := fun _ => false
    recv_lock := none
    reply := fun _ => none
    is_async_cancel := false
    queries := []
    replies := []
    stream := .off
    next := 0
    served := []
    found := []
    sent := []
    passed := [] }

/-- The steps of the threads: thread, slot and message are those the step is about. -/
inductive Act (T D R : Type) where
  | alloc_qr (h : Option T) (i : Slot)
  | send (t : T)
  | send_fails (h : Option T)
  | recv_box (h : Option T)
  | recv_lock (h : Option T)
  | recv_own (h : Option T) (m : Message D R)
  | recv_other (h : Option T) (m : Message D R)
  | free_qr (h : Option T)
  | serve (r : R)
  | send_read_async
  | refused
  | started
  | cancel_async
  | next_round
  | callback
  | send_cancel
  | flush_lock
  | drop (m : Message D R)
  | flush_end
  | start_stream
  | refuse_stream
  | send_data (d : D)
  | take_cancel
  | stray_cancel

variable [DecidableEq T]

/-- One step. Of `recv_msg` each round of the loop is a step of its own; the header of a
    message for another slot goes through the reply of the receiving thread. -/
inductive Step : State T D R → Act T D R → State T D R → Prop where
  | alloc_qr {s : State T D R} {h i} : s.mode h = .idle → s.qr_mask i = false →
      (∀ j < i, s.qr_mask j = true) →
      Step s (.alloc_qr h i)
        { s with
          mode := Function.update s.mode h (.holds i)
          qr_mask := Function.update s.qr_mask i true }
  | send {s : State T D R} {t i} : s.mode (some t) = .holds i →
      Step s (.send t)
        { s with
          mode := Function.update s.mode (some t) (.waits i (.reply s.next))
          queries := s.queries ++ [⟨i, .query s.next⟩]
          next := s.next + 1 }
  | send_fails {s : State T D R} {h i} : s.mode h = .holds i →
      Step s (.send_fails h) { s with mode := Function.update s.mode h (.leaves i) }
  | recv_box {s : State T D R} {h i want} : s.mode h = .waits i want → s.recv_lock = none →
      s.qr_box i = true →
      Step s (.recv_box h)
        { s with
          mode := Function.update s.mode h (.answered i want)
          qr_box := Function.update s.qr_box i false
          found := s.found ++ want.query.toList.map (fun n => (n, s.reply i)) }
  | recv_lock {s : State T D R} {h i want} : s.mode h = .waits i want → s.recv_lock = none →
      s.qr_box i = false →
      Step s (.recv_lock h)
        { s with
          mode := Function.update s.mode h (.receives i want)
          recv_lock := some h }
  | recv_own {s : State T D R} {h i want m rest} : s.mode h = .receives i want →
      s.replies = m :: rest → m.id = i →
      Step s (.recv_own h m)
        { s with
          mode := Function.update s.mode h (.answered i want)
          recv_lock := none
          reply := Function.update s.reply i (some m)
          replies := rest
          found := s.found ++ want.query.toList.map (fun n => (n, some m)) }
  | recv_other {s : State T D R} {h i want m rest} : s.mode h = .receives i want →
      s.replies = m :: rest → m.id ≠ i →
      Step s (.recv_other h m)
        { s with
          qr_box := Function.update s.qr_box m.id true
          reply := Function.update (Function.update s.reply i none) m.id (some m)
          replies := rest }
  | free_qr {s : State T D R} {h i} :
      (s.mode h = .leaves i ∨ ∃ n, s.mode h = .answered i (.reply n)) →
      Step s (.free_qr h)
        { s with
          mode := Function.update s.mode h .idle
          qr_mask := Function.update s.qr_mask i false }
  | serve {s : State T D R} {i n rest r} : s.queries = ⟨i, .query n⟩ :: rest →
      (∀ j, s.stream ≠ .on j false) →
      Step s (.serve r)
        { s with
          queries := rest
          replies := s.replies ++ [⟨i, .reply n r⟩]
          served := s.served ++ [(n, r)] }
  | send_read_async {s : State T D R} {i} : s.mode none = .holds i →
      Step s .send_read_async
        { s with
          mode := Function.update s.mode none (.waits i .start)
          queries := s.queries ++ [⟨i, .read_async⟩] }
  | refused {s : State T D R} {i m} : s.mode none = .answered i .start → s.reply i = some m →
      m.answer = .refused →
      Step s .refused { s with mode := Function.update s.mode none (.leaves i) }
  | started {s : State T D R} {i m} : s.mode none = .answered i .start → s.reply i = some m →
      (m.answer = .started ∨ ∃ d, m.answer = .data d) →
      Step s .started
        { s with
          mode := Function.update s.mode none (.loops i)
          is_async_cancel := false }
  | cancel_async {s : State T D R} : Step s .cancel_async { s with is_async_cancel := true }
  | next_round {s : State T D R} {i} : s.mode none = .loops i → s.is_async_cancel = false →
      Step s .next_round { s with mode := Function.update s.mode none (.waits i .data) }
  | callback {s : State T D R} {i m} : s.mode none = .answered i .data → s.reply i = some m →
      Step s .callback
        { s with
          mode := Function.update s.mode none (.loops i)
          passed := s.passed ++ [m.answer] }
  | send_cancel {s : State T D R} {i} : s.mode none = .loops i → s.is_async_cancel = true →
      Step s .send_cancel
        { s with
          mode := Function.update s.mode none (.cancels i)
          queries := s.queries ++ [⟨i, .cancel_async⟩] }
  | flush_lock {s : State T D R} {i} : s.mode none = .cancels i → s.recv_lock = none →
      Step s .flush_lock
        { s with
          mode := Function.update s.mode none (.flushes i)
          recv_lock := some none }
  | drop {s : State T D R} {i m rest} : s.mode none = .flushes i → s.replies = m :: rest →
      Step s (.drop m) { s with replies := rest }
  | flush_end {s : State T D R} {i} : s.mode none = .flushes i →
      Step s .flush_end
        { s with
          mode := Function.update s.mode none (.leaves i)
          recv_lock := none }
  | start_stream {s : State T D R} {i rest} : s.queries = ⟨i, .read_async⟩ :: rest →
      s.stream = .off →
      Step s .start_stream
        { s with
          queries := rest
          stream := .on i false
          sent := []
          passed := [] }
  /-- `rtlsdr_read_async` returned without data. -/
  | refuse_stream {s : State T D R} {i} : s.stream = .on i false →
      Step s .refuse_stream { s with replies := s.replies ++ [⟨i, .refused⟩], stream := .off }
  /-- `read_async_cb`: the reply to the query goes in front of the first data. -/
  | send_data {s : State T D R} {i replied d} : s.stream = .on i replied →
      Step s (.send_data d)
        { s with
          replies := s.replies ++ ((if replied then [] else [⟨i, .started⟩]) ++ [⟨i, .data d⟩])
          stream := .on i true
          sent := s.sent ++ [d] }
  | take_cancel {s : State T D R} {i j rest} : s.queries = ⟨j, .cancel_async⟩ :: rest →
      s.stream = .on i true →
      Step s .take_cancel { s with queries := rest, stream := .off }
  | stray_cancel {s : State T D R} {j rest} : s.queries = ⟨j, .cancel_async⟩ :: rest →
      s.stream = .off →
      Step s .stray_cancel { s with queries := rest, replies := s.replies ++ [⟨j, .started⟩] }

/-- What there is of one slot: the queries the server did not take yet, the mailbox bit, the reply,
    the messages on the socket and, where the server streams to the slot, whether it said so. -/
structure View (D R : Type) where
  asked : List Ask
  boxed : Bool
  reply : Option (Message D R)
  arriving : List (Message D R)
  streaming : Option Bool

/-- The messages that were not received yet: the one in the mailbox and those on the socket. -/
def View.pending (v : View D R) : List (Message D R) :=
  (if v.boxed then v.reply.toList else []) ++ v.arriving

def Stream.to (i : Slot) : Stream → Option Bool
  | .off => none
  | .on j replied => if j = i then some replied else none

def State.view (s : State T D R) (i : Slot) : View D R :=
  { asked := (s.queries.filter (fun q => q.id = i)).map Query.ask
    boxed := s.qr_box i
    reply := s.reply i
    arriving := s.replies.filter (fun m => m.id = i)
    streaming := s.stream.to i }

end Soapy.Rtl.Mux
