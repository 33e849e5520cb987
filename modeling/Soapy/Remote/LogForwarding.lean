import Soapy.Lib.Runs
import Soapy.Remote.Codec

/-! # Log forwarding

A log connection carries three requests of its client. START makes the server's
handler subscribe the socket before it sends its VOID reply, STOP makes it
unsubscribe before it sends its VOID reply. While the socket is subscribed any
other thread of the server may send a log message on it. The client takes the
first message that arrives as the reply to START, and every later message that is
`done()` after `recv` as the reply to STOP.

Connection errors are left out: nothing that is sent is lost, and the client does
not give up waiting.
-/

namespace Soapy.Remote

open Lib

structure LogMessage where
  logLevel : Int8
  message : Bytes
  deriving DecidableEq

namespace LogMessage

/-- What `handleLogMessage` packs. -/
def pack (m : LogMessage) : Bytes := packChar m.logLevel ++ packString m.message

/-- What `handlerLoop` unpacks. -/
def unpack : Unpack LogMessage := do
  let logLevel ← Unpack.char
  let message ← Unpack.string
  return ⟨logLevel, message⟩

end LogMessage

/-- `unpackerLogMsg` of `handlerLoop`: nothing when it is done after `recv`, else the
    message to relay. -/
def receiveLog (link : Link) (stream : Bytes) :
    Option (Except Exn (Option LogMessage) × Bytes) :=
  match recv link stream with
  | none => none
  | some (.error e, rest) => some (.error e, rest)
  | some (.ok u, rest) =>
    if u.done then some (.ok none, rest)
    else some ((Program.run Unpacker.exec LogMessage.unpack u).1.map some, rest)

inductive LogRequest where
  | START_LOG_FORWARDING
  | STOP_LOG_FORWARDING
  | HANGUP
  deriving DecidableEq

/-- What the server sends on a log connection. -/
inductive LogReply where
  | void
  | log (m : LogMessage)
  deriving DecidableEq

def LogReply.payload : LogReply → Bytes
  | .void => packType .VOID
  | .log m => m.pack

@[simp] theorem LogReply.payload_void : LogReply.void.payload = packType .VOID := rfl

@[simp] theorem LogReply.payload_log (m : LogMessage) : (LogReply.log m).payload = m.pack := rfl

/-- Where the thread is that calls `activate` and `shutdown`. -/
inductive Acceptor where
  | inactive
  | activating
  /-- `handlerLoop` has been started in its thread. -/
  | active
  /-- `activate` has caught an exception. -/
  | failed
  | stopping
  /-- HANGUP is sent. -/
  | hungUp
  /-- `done = true`, and the thread is to be joined. -/
  | joining
  | joined
  deriving DecidableEq

def Acceptor.stopSent : Acceptor → Bool
  | .stopping | .hungUp | .joining | .joined => true
  | .inactive | .activating | .active | .failed => false

/-- Where `handlerLoop` is. -/
inductive HandlerLoop where
  | notStarted
  /-- About to test `done`. -/
  | testing
  /-- In `selectRecv`. -/
  | polling
  | left
  deriving DecidableEq

structure LogConnection where
  requests : List LogRequest
  handling : Option LogRequest
  /-- The socket is in `subscribers`. -/
  subscribed : Bool
  inbox : List LogReply
  stream : Bytes
  acceptor : Acceptor
  done : Bool
  handlerLoop : HandlerLoop
  /-- The log messages that the server has sent, and those passed to `SoapySDR::log`
      by the client. -/
  forwarded : List LogMessage
  relayed : List LogMessage
  deriving DecidableEq

namespace LogConnection

def init : LogConnection where
  requests := []
  handling := none
  subscribed := false
  inbox := []
  stream := []
  acceptor := .inactive
  done := true
  handlerLoop := .notStarted
  forwarded := []
  relayed := []

/-- `packer()` on the server's side. -/
def send (s : LogConnection) (reply : LogReply) : LogConnection :=
  { s with inbox := s.inbox ++ [reply], stream := s.stream ++ frame reply.payload }

/-- What the cases of `handleOnce` do with the subscription. -/
def handle (s : LogConnection) : LogRequest → LogConnection
  | .START_LOG_FORWARDING => { s with subscribed := true }
  | .STOP_LOG_FORWARDING => { s with subscribed := false }
  | .HANGUP => s

/-- What `handlerLoop` does with what it has received. -/
def relay (s : LogConnection) : Except Exn (Option LogMessage) → LogConnection
  | .ok (some m) => { s with relayed := s.relayed ++ [m], handlerLoop := .testing }
  | .ok none | .error _ => { s with handlerLoop := .left, done := true }

inductive Action where
  | start
  | stop
  | hangup
  | close
  | join
  | started
  | test
  | timeout
  | receive
  | request
  | reply
  | log (m : LogMessage)
  deriving DecidableEq

inductive Step (s : LogConnection) : Action → LogConnection → Prop
  | start (ready : s.acceptor = .inactive) :
      Step s .start
        { s with acceptor := .activating, requests := s.requests ++ [.START_LOG_FORWARDING] }
  /-- `unpackerStart` accepts any message; an exception ends `activate`. -/
  | started (waits : s.acceptor = .activating) (reply : LogReply) (later : List LogReply)
      (arrived : s.inbox = reply :: later) (link : Link) (works : ∀ n, (link.grants n).isSome)
      (result : Except Exn Unpacker) (rest : Bytes) (read : recv link s.stream = some (result, rest)) :
      Step s .started
        { s with
          inbox := later
          stream := rest
          acceptor := if result.isOk then .active else .failed
          done := !result.isOk
          handlerLoop := if result.isOk then .testing else .notStarted }
  | stop (ready : s.acceptor = .active) :
      Step s .stop
        { s with acceptor := .stopping, requests := s.requests ++ [.STOP_LOG_FORWARDING] }
  | hangup (ready : s.acceptor = .stopping) :
      Step s .hangup { s with acceptor := .hungUp, requests := s.requests ++ [.HANGUP] }
  | close (ready : s.acceptor = .hungUp) :
      Step s .close { s with acceptor := .joining, done := true }
  | join (ready : s.acceptor = .joining) (ended : s.handlerLoop = .left) :
      Step s .join { s with acceptor := .joined }
  | test (here : s.handlerLoop = .testing) :
      Step s .test { s with handlerLoop := if s.done then .left else .polling }
  | timeout (here : s.handlerLoop = .polling) :
      Step s .timeout { s with handlerLoop := .testing }
  | receive (here : s.handlerLoop = .polling) (reply : LogReply) (later : List LogReply)
      (arrived : s.inbox = reply :: later) (link : Link) (works : ∀ n, (link.grants n).isSome)
      (result : Except Exn (Option LogMessage)) (rest : Bytes)
      (read : receiveLog link s.stream = some (result, rest)) :
      Step s .receive (relay { s with inbox := later, stream := rest } result)
  | request (r : LogRequest) (later : List LogRequest) (first : s.requests = r :: later)
      (free : s.handling = none) :
      Step s .request (handle { s with requests := later, handling := some r } r)
  | reply (r : LogRequest) (busy : s.handling = some r) :
      Step s .reply (send { s with handling := none } .void)
  | log (m : LogMessage) (subscribed : s.subscribed = true) :
      Step s (.log m) (send { s with forwarded := s.forwarded ++ [m] } (.log m))

def unread (s : LogConnection) : List LogMessage :=
  s.inbox.filterMap fun
    | .void => none
    | .log m => some m

/-- No log message is sent between the subscription and the reply to START, and none too long to
    pack. When `handlerLoop` finds `done` set by `shutdown`, STOP has taken effect and no log
    message is unread. -/
def Undisturbed (s : LogConnection) : Action → Prop
  | .log m => s.handling ≠ some .START_LOG_FORWARDING ∧ TextFits m.message
  | .test => s.done = true → s.subscribed = false ∧ s.unread = []
  | .start | .stop | .hangup | .close | .join | .started | .timeout | .receive | .request
  | .reply => True

structure Contract (s : LogConnection) : Prop where
  /-- What the server has sent was relayed, once and in order, or is still to be read. -/
  forwarded : s.forwarded = s.relayed ++ s.unread
  left : s.handlerLoop = .left →
    s.acceptor.stopSent = true ∧ s.subscribed = false ∧ s.relayed = s.forwarded
  started : s.acceptor ≠ .failed

end LogConnection

variable {m : LogMessage}

theorem LogMessage.frame_small (text : TextFits m.message) :
    (frame m.pack).length < 2 ^ 32 := by
  simp only [TextFits] at text
  simp only [frame_length, LogMessage.pack, packChar, packString, packSize, packInt, packType, headerSize,
    trailerSize, List.length_append, List.length_cons, List.length_nil, toBE_length]
  omega

theorem LogMessage.decodes (text : TextFits m.message) :
    Decodes LogMessage.unpack m.pack m :=
  (Decodes.char m.logLevel).bind (Decodes.string text).map

section Receive

variable {link : Link} (works : ∀ n, (link.grants n).isSome) (later : Bytes)
include works

theorem receiveLog_void : receiveLog link (frame (packType .VOID) ++ later) = some (.ok none, later) := by
  obtain ⟨u, accepted, version, holds, rest⟩ :=
    recv_payload link works later true [] (.inl rfl) (by decide)
  have consumed : u.done = true := Unpacker.done_of_consumed (n := 0) rest holds.bounded
  have read : recv link (frame (packType .VOID) ++ later) = some (.ok u, later) := accepted
  simp [receiveLog, read, consumed]

theorem recv_log (text : TextFits m.message) :
    ∃ u : Unpacker, recv link (frame m.pack ++ later) = some (.ok u, later) ∧ u.Holds m.pack ∧
      u.offset + m.pack.length + trailerSize = u.capacity := by
  have layout : payload false [.char m.logLevel, .string m.message] = m.pack := by
    simp [payload, Value.pack, LogMessage.pack]
  have small := LogMessage.frame_small text
  rw [← layout] at small
  obtain ⟨u, accepted, version, holds, rest⟩ :=
    recv_payload link works later false [.char m.logLevel, .string m.message] (.inr (by simp)) small
  rw [layout] at accepted
  have bytes : List.flatMap (Value.pack SoapyRPCVersion) [.char m.logLevel, .string m.message] =
      m.pack := by
    simp [Value.pack, LogMessage.pack]
  rw [bytes] at holds rest
  exact ⟨u, accepted, holds, rest⟩

theorem receiveLog_log (text : TextFits m.message) :
    receiveLog link (frame m.pack ++ later) = some (.ok (some m), later) := by
  obtain ⟨u, accepted, holds, rest⟩ := recv_log works later text
  have positive : 0 < m.pack.length := by simp [LogMessage.pack, packChar, packType]
  have bounded := holds.bounded
  have waiting : u.done = false := by
    simp only [Unpacker.done, decide_eq_false_iff_not]
    omega
  have relayed := LogMessage.decodes text u holds
  simp [receiveLog, accepted, waiting, relayed, Except.map]

/-- `unpackerStart` takes whatever comes first. -/
theorem recv_reply {r : LogReply} (text : ∀ m, r = .log m → TextFits m.message) :
    ∃ u : Unpacker, recv link (frame r.payload ++ later) = some (.ok u, later) := by
  cases r with
  | void =>
    obtain ⟨u, accepted, _⟩ := recv_payload link works later true [] (.inl rfl) (by decide)
    exact ⟨u, accepted⟩
  | log m =>
    obtain ⟨u, accepted, _⟩ := recv_log works later (text m rfl)
    exact ⟨u, accepted⟩

end Receive

/-- The requests sent after START. -/
def Acceptor.asked : Acceptor → List LogRequest
  | .inactive | .activating | .active | .failed => []
  | .stopping => [.STOP_LOG_FORWARDING]
  | .hungUp | .joining | .joined => [.STOP_LOG_FORWARDING, .HANGUP]

def NoStart (requests : List LogRequest) (handling : Option LogRequest) : Prop :=
  .START_LOG_FORWARDING ∉ requests ∧ handling ≠ some .START_LOG_FORWARDING

theorem NoStart.replied {requests : List LogRequest} {handling : Option LogRequest}
    (noStart : NoStart requests handling) : NoStart requests none :=
  ⟨noStart.1, by simp⟩

theorem NoStart.request {later : List LogRequest} {r : LogRequest}
    {handling : Option LogRequest} (noStart : NoStart (r :: later) handling) :
    r ≠ .START_LOG_FORWARDING ∧ NoStart later (some r) := by
  obtain ⟨requests, _⟩ := noStart
  simp only [List.mem_cons, not_or] at requests
  obtain ⟨first, rest⟩ := requests
  refine ⟨Ne.symm first, rest, ?_⟩
  intro same
  exact first (Option.some.inj same).symm

theorem Acceptor.asked_first {a : Acceptor} {r : LogRequest} {later : List LogRequest}
    (pending : r :: later = a.asked) :
    r = .STOP_LOG_FORWARDING ∧ a.stopSent = true ∧ NoStart later (some r) := by
  cases a with
  | inactive | activating | active | failed => cases pending
  | stopping | hungUp | joining | joined =>
    cases pending
    exact ⟨rfl, rfl, by simp, by simp⟩

namespace LogConnection

/-- How far the two sides are, by the requests and the messages under way. -/
inductive Stage : Acceptor → List LogRequest → Option LogRequest → Bool → List LogReply →
    HandlerLoop → Prop
  | inactive : Stage .inactive [] none false [] .notStarted
  | asked : Stage .activating [.START_LOG_FORWARDING] none false [] .notStarted
  | starting : Stage .activating [] (some .START_LOG_FORWARDING) true [] .notStarted
  | announced (logs : List LogMessage) :
      Stage .activating [] none true (.void :: logs.map .log) .notStarted
  | forwarding {a : Acceptor} {loop : HandlerLoop} (logs : List LogMessage)
      (launched : a = .active ∨ a.stopSent = true) (runs : loop = .testing ∨ loop = .polling) :
      Stage a a.asked none true (logs.map .log) loop
  /-- STOP has taken effect, and the messages sent before it are unread. -/
  | stopping {a : Acceptor} {requests : List LogRequest} {handling : Option LogRequest}
      {loop : HandlerLoop} (logs voids : List LogReply) (asked : a.stopSent = true)
      (noStart : NoStart requests handling)
      (onlyLogs : ∀ r ∈ logs, r ≠ .void) (onlyVoids : ∀ r ∈ voids, r = .void)
      (runs : loop = .testing ∨ loop = .polling) :
      Stage a requests handling false (logs ++ voids) loop
  | ended {a : Acceptor} {requests : List LogRequest} {handling : Option LogRequest}
      {voids : List LogReply} (asked : a.stopSent = true)
      (noStart : NoStart requests handling)
      (onlyVoids : ∀ r ∈ voids, r = .void) :
      Stage a requests handling false voids .left

structure Inv (s : LogConnection) : Prop where
  stream : s.stream = s.inbox.flatMap (fun reply => frame reply.payload)
  texts : ∀ m, .log m ∈ s.inbox → TextFits m.message
  forwarded : s.forwarded = s.relayed ++ s.unread
  stage : Stage s.acceptor s.requests s.handling s.subscribed s.inbox s.handlerLoop

theorem Inv.init : Inv init where
  stream := rfl
  texts m member := by cases member
  forwarded := rfl
  stage := .inactive

variable {s : LogConnection}

theorem Inv.next (inv : s.Inv) {reply : LogReply} {later : List LogReply}
    (arrived : s.inbox = reply :: later) :
    s.stream = frame reply.payload ++ later.flatMap (fun reply => frame reply.payload) ∧
      ∀ m, reply = .log m → TextFits m.message := by
  constructor
  · rw [inv.stream, arrived, List.flatMap_cons]
  · intro m same
    apply inv.texts
    rw [arrived, same]
    exact List.mem_cons_self

theorem Inv.started {s s' : LogConnection} (inv : s.Inv) (step : Step s .started s') : s'.Inv := by
  cases step with
  | started waits reply later arrived link works result rest read =>
    obtain ⟨whole, fits⟩ := inv.next arrived
    obtain ⟨u, accepted⟩ := recv_reply works (later.flatMap fun reply => frame reply.payload) fits
    rw [whole, accepted] at read
    cases read
    obtain ⟨stream, texts, forwarded, stage⟩ := inv
    obtain ⟨requests, handling, subscribed, inbox, bytes, acceptor, done, loop, sent, relayed⟩ := s
    simp only at waits arrived stage
    subst waits arrived
    generalize inbox : reply :: later = replies at stage
    cases stage with
    | announced logs =>
      cases inbox
      refine ⟨rfl, fun m member => texts m (List.mem_cons_of_mem _ member), forwarded, ?_⟩
      exact .forwarding logs (.inl rfl) (.inl rfl)
    | asked | starting => cases inbox
    | forwarding logs launched => simp [Acceptor.stopSent] at launched
    | stopping logs voids asked | ended asked => cases asked

theorem Inv.receive {s s' : LogConnection} (inv : s.Inv) (step : Step s .receive s') : s'.Inv := by
  cases step with
  | receive here reply later arrived link works result rest read =>
    obtain ⟨whole, fits⟩ := inv.next arrived
    obtain ⟨stream, texts, forwarded, stage⟩ := inv
    obtain ⟨requests, handling, subscribed, inbox, bytes, acceptor, done, loop, sent, relayed⟩ := s
    simp only at here arrived stage whole
    subst here arrived
    have textsLater : ∀ m, .log m ∈ later → TextFits m.message :=
      fun m member => texts m (List.mem_cons_of_mem _ member)
    cases reply with
    | void =>
      rw [whole] at read
      simp only [LogReply.payload, receiveLog_void works, Option.some.injEq, Prod.mk.injEq] at read
      obtain ⟨rfl, rfl⟩ := read
      refine ⟨rfl, textsLater, forwarded, ?_⟩
      generalize inbox : LogReply.void :: later = replies at stage
      cases stage with
      | forwarding logs launched runs => cases logs <;> cases inbox
      | stopping logs voids asked noStart onlyLogs onlyVoids runs =>
        cases logs with
        | nil =>
          subst inbox
          exact .ended asked noStart fun r member => onlyVoids r (List.mem_cons_of_mem _ member)
        | cons first logs =>
          cases inbox
          exact absurd rfl (onlyLogs _ List.mem_cons_self)
    | log m =>
      rw [whole] at read
      simp only [LogReply.payload, receiveLog_log works _ (fits m rfl), Option.some.injEq,
        Prod.mk.injEq] at read
      obtain ⟨rfl, rfl⟩ := read
      refine ⟨rfl, textsLater, ?_, ?_⟩
      · simpa [relay, unread] using forwarded
      · generalize inbox : LogReply.log m :: later = replies at stage
        cases stage with
        | forwarding logs launched runs =>
          cases logs with
          | nil => cases inbox
          | cons first logs =>
            cases inbox
            exact .forwarding logs launched (.inl rfl)
        | stopping logs voids asked noStart onlyLogs onlyVoids runs =>
          cases logs with
          | nil =>
            subst inbox
            cases onlyVoids _ List.mem_cons_self
          | cons first logs =>
            cases inbox
            exact .stopping logs voids asked noStart
              (fun r member => onlyLogs r (List.mem_cons_of_mem _ member)) onlyVoids (.inl rfl)

/-- What `activate` and `shutdown` send leaves the server and the loop where they are. -/
theorem Inv.client {s' : LogConnection} {a : Action} (inv : s.Inv) (step : Step s a s')
    (named : a = .start ∨ a = .stop ∨ a = .hangup ∨ a = .close ∨ a = .join) : s'.Inv := by
  obtain ⟨stream, texts, forwarded, stage⟩ := inv
  obtain ⟨requests, handling, subscribed, inbox, bytes, acceptor, done, loop, sent, relayed⟩ := s
  cases step with
  | start ready =>
    simp only at ready stage
    subst ready
    cases stage with
    | inactive => exact ⟨stream, texts, forwarded, .asked⟩
    | forwarding logs launched => simp [Acceptor.stopSent] at launched
    | stopping logs voids asked | ended asked => cases asked
  | stop ready =>
    simp only at ready stage
    subst ready
    cases stage with
    | forwarding logs launched runs =>
      exact ⟨stream, texts, forwarded, .forwarding logs (.inr rfl) runs⟩
    | stopping logs voids asked | ended asked => cases asked
  | hangup ready =>
    simp only at ready stage
    subst ready
    refine ⟨stream, texts, forwarded, ?_⟩
    cases stage with
    | forwarding logs launched runs => exact .forwarding logs (.inr rfl) runs
    | stopping logs voids asked noStart onlyLogs onlyVoids runs =>
      exact .stopping logs voids rfl ⟨by simp [noStart.1], noStart.2⟩ onlyLogs onlyVoids runs
    | ended asked noStart onlyVoids => exact .ended rfl ⟨by simp [noStart.1], noStart.2⟩ onlyVoids
  | close ready =>
    simp only at ready stage
    subst ready
    refine ⟨stream, texts, forwarded, ?_⟩
    cases stage with
    | forwarding logs launched runs => exact .forwarding logs (.inr rfl) runs
    | stopping logs voids asked noStart onlyLogs onlyVoids runs =>
      exact .stopping logs voids rfl noStart onlyLogs onlyVoids runs
    | ended asked noStart onlyVoids => exact .ended rfl noStart onlyVoids
  | join ready ended =>
    simp only at ready ended stage
    subst ready ended
    refine ⟨stream, texts, forwarded, ?_⟩
    cases stage with
    | forwarding logs launched runs => simp at runs
    | stopping logs voids asked noStart onlyLogs onlyVoids runs => simp at runs
    | ended asked noStart onlyVoids => exact .ended rfl noStart onlyVoids
  | _ => simp at named

theorem Inv.poll {s' : LogConnection} {a : Action} (inv : s.Inv) (allowed : s.Undisturbed a)
    (step : Step s a s') (named : a = .test ∨ a = .timeout) : s'.Inv := by
  obtain ⟨stream, texts, forwarded, stage⟩ := inv
  obtain ⟨requests, handling, subscribed, inbox, bytes, acceptor, done, loop, sent, relayed⟩ := s
  cases step with
  | test here =>
    simp only at here stage
    subst here
    refine ⟨stream, texts, forwarded, ?_⟩
    cases done with
    | false =>
      cases stage with
      | forwarding logs launched runs => exact .forwarding logs launched (.inr rfl)
      | stopping logs voids asked noStart onlyLogs onlyVoids runs =>
        exact .stopping logs voids asked noStart onlyLogs onlyVoids (.inr rfl)
    | true =>
      obtain ⟨unsubscribed, empty⟩ := allowed rfl
      cases stage with
      | forwarding logs launched runs => cases unsubscribed
      | stopping logs voids asked noStart onlyLogs onlyVoids runs =>
        refine .ended asked noStart fun r member => ?_
        cases r with
        | void => rfl
        | log m =>
          have kept : m ∈ unread (⟨requests, handling, false, logs ++ voids, bytes, acceptor,
              true, .testing, sent, relayed⟩ : LogConnection) :=
            List.mem_filterMap.mpr ⟨.log m, member, rfl⟩
          simp [empty] at kept
  | timeout here =>
    simp only at here stage
    subst here
    refine ⟨stream, texts, forwarded, ?_⟩
    cases stage with
    | forwarding logs launched runs => exact .forwarding logs launched (.inl rfl)
    | stopping logs voids asked noStart onlyLogs onlyVoids runs =>
      exact .stopping logs voids asked noStart onlyLogs onlyVoids (.inl rfl)
  | _ => simp at named

theorem Inv.request {s s' : LogConnection} (inv : s.Inv) (step : Step s .request s') : s'.Inv := by
  obtain ⟨stream, texts, forwarded, stage⟩ := inv
  obtain ⟨requests, handling, subscribed, inbox, bytes, acceptor, done, loop, sent, relayed⟩ := s
  cases step with
  | request r later first free =>
    simp only at first free stage
    subst first free
    generalize pending : r :: later = requests at stage
    cases stage with
    | inactive | announced logs => cases pending
    | asked =>
      cases pending
      exact ⟨stream, texts, forwarded, .starting⟩
    | forwarding logs launched runs =>
      obtain ⟨rfl, asked, noStart⟩ := Acceptor.asked_first pending
      have behind : LogConnection.Stage acceptor later (some .STOP_LOG_FORWARDING) false
          (logs.map .log ++ []) loop :=
        .stopping _ [] asked noStart (by simp) (by simp) runs
      rw [List.append_nil] at behind
      exact ⟨stream, texts, forwarded, behind⟩
    | stopping logs voids asked noStart onlyLogs onlyVoids runs =>
      subst pending
      obtain ⟨notStart, rest⟩ := noStart.request
      cases r with
      | START_LOG_FORWARDING => exact absurd rfl notStart
      | STOP_LOG_FORWARDING | HANGUP =>
        exact ⟨stream, texts, forwarded, .stopping logs voids asked rest onlyLogs onlyVoids runs⟩
    | ended asked noStart onlyVoids =>
      subst pending
      obtain ⟨notStart, rest⟩ := noStart.request
      cases r with
      | START_LOG_FORWARDING => exact absurd rfl notStart
      | STOP_LOG_FORWARDING | HANGUP =>
        exact ⟨stream, texts, forwarded, .ended asked rest onlyVoids⟩

theorem send_stream (reply : LogReply)
    (stream : s.stream = s.inbox.flatMap (fun reply => frame reply.payload)) :
    (s.send reply).stream = (s.send reply).inbox.flatMap (fun reply => frame reply.payload) := by
  simp [send, stream]

theorem Inv.reply {s s' : LogConnection} (inv : s.Inv) (step : Step s .reply s') : s'.Inv := by
  obtain ⟨stream, texts, forwarded, stage⟩ := inv
  cases step with
  | reply r busy =>
    refine ⟨send_stream (s := { s with handling := none }) .void stream, ?_, ?_, ?_⟩
    · intro m member
      simp only [send, List.mem_append, List.mem_singleton, reduceCtorEq, or_false] at member
      exact texts m member
    · simpa [send, unread] using forwarded
    · obtain ⟨requests, handling, subscribed, inbox, bytes, acceptor, done, loop, sent, relayed⟩ := s
      simp only at busy stage
      subst busy
      cases stage with
      | starting => exact .announced []
      | stopping logs voids asked noStart onlyLogs onlyVoids runs =>
        have behind : LogConnection.Stage acceptor requests none false
            (logs ++ (voids ++ [.void])) loop :=
          .stopping logs _ asked noStart.replied onlyLogs
            (by simpa [or_imp, forall_and] using onlyVoids) runs
        rwa [← List.append_assoc] at behind
      | ended asked noStart onlyVoids =>
        have behind : LogConnection.Stage acceptor requests none false (inbox ++ [.void]) .left :=
          .ended asked noStart.replied (by simpa [or_imp, forall_and] using onlyVoids)
        exact behind

theorem Inv.log {s s' : LogConnection} {m : LogMessage} (inv : s.Inv)
    (allowed : s.Undisturbed (.log m)) (step : Step s (.log m) s') : s'.Inv := by
  obtain ⟨stream, texts, forwarded, stage⟩ := inv
  obtain ⟨replied, fits⟩ := allowed
  cases step with
  | log m on =>
    refine ⟨send_stream (s := { s with forwarded := s.forwarded ++ [m] }) (.log m) stream, ?_, ?_, ?_⟩
    · intro m' member
      simp only [send, List.mem_append, List.mem_singleton, LogReply.log.injEq] at member
      rcases member with old | rfl
      · exact texts m' old
      · exact fits
    · simp [send, unread, forwarded]
    · obtain ⟨requests, handling, subscribed, inbox, bytes, acceptor, done, loop, sent, relayed⟩ := s
      simp only at on stage replied
      subst on
      cases stage with
      | starting => exact absurd rfl replied
      | announced logs =>
        have longer := Stage.announced (logs ++ [m])
        rwa [List.map_append] at longer
      | forwarding logs launched runs =>
        have longer := Stage.forwarding (logs ++ [m]) launched runs
        rwa [List.map_append] at longer

theorem Inv.step {s s' : LogConnection} {a : Action} (inv : s.Inv) (allowed : s.Undisturbed a)
    (step : Step s a s') : s'.Inv := by
  cases a with
  | start | stop | hangup | close | join => exact inv.client step (by simp)
  | started => exact inv.started step
  | test | timeout => exact inv.poll allowed step (by simp)
  | receive => exact inv.receive step
  | request => exact inv.request step
  | reply => exact inv.reply step
  | log m => exact inv.log allowed step

theorem Inv.contract (inv : s.Inv) : s.Contract := by
  obtain ⟨stream, texts, forwarded, stage⟩ := inv
  refine ⟨forwarded, fun left => ?_, fun failed => ?_⟩
  · obtain ⟨requests, handling, subscribed, inbox, bytes, acceptor, done, loop, sent, relayed⟩ := s
    simp only at left stage
    subst left
    cases stage with
    | forwarding logs launched runs => simp at runs
    | stopping logs voids asked noStart onlyLogs onlyVoids runs => simp at runs
    | ended asked noStart onlyVoids =>
      refine ⟨asked, rfl, ?_⟩
      have empty : unread (⟨requests, handling, false, inbox, bytes, acceptor, done, .left, sent,
          relayed⟩ : LogConnection) = [] := by
        simp only [unread, List.filterMap_eq_nil_iff]
        intro r member
        rw [onlyVoids r member]
      rw [empty, List.append_nil] at forwarded
      exact forwarded.symm
  · obtain ⟨requests, handling, subscribed, inbox, bytes, acceptor, done, loop, sent, relayed⟩ := s
    simp only at failed stage
    subst failed
    cases stage with
    | forwarding logs launched => simp [Acceptor.stopSent] at launched
    | stopping logs voids asked | ended asked => cases asked

end LogConnection

open LogConnection in
/-- When no log message slips in before the reply to START and the loop does not give messages up
    for `done`, the client relays every message sent before STOP took effect, once and in order, and
    leaves its loop only after it has sent STOP. -/
theorem log_relayed {s : LogConnection} (run : Runs Step Undisturbed init s) : s.Contract :=
  (run.keeps (fun _ _ _ inv allowed step => inv.step allowed step) Inv.init).contract

namespace LogConnection

def probe : LogMessage := ⟨6, ascii "tuned"⟩

/-- Every interleaving, without connection errors. -/
abbrev Any (_ : LogConnection) (_ : Action) : Prop := True

/-- The loop is running and nothing is under way. -/
def relaying : LogConnection where
  requests := []
  handling := none
  subscribed := true
  inbox := []
  stream := []
  acceptor := .active
  done := false
  handlerLoop := .testing
  forwarded := []
  relayed := []

theorem relaying_reached : Runs Step Undisturbed init relaying := by
  have works : ∀ n, (idealLink.grants n).isSome := fun n => rfl
  obtain ⟨u, accepted⟩ : ∃ u, recv idealLink (init.stream ++ frame LogReply.void.payload) =
      some (.ok u, []) := by
    obtain ⟨u, accepted⟩ := recv_reply works [] (r := .void) (by simp)
    exact ⟨u, by simpa [init] using accepted⟩
  have run : Runs Step Undisturbed init init := .refl
  have launched := run
    |>.tail (.start rfl)
    |>.tail (.request .START_LOG_FORWARDING [] rfl rfl)
    |>.tail (.reply .START_LOG_FORWARDING rfl)
    |>.tail (.started rfl .void [] rfl idealLink works _ _ accepted)
  exact launched

def relayedOnce : LogConnection :=
  { relaying with
    acceptor := .stopping
    subscribed := false
    done := true
    handlerLoop := .left
    forwarded := [probe]
    relayed := [probe] }

theorem relayedOnce_reached : Runs Step Undisturbed init relayedOnce := by
  have works : ∀ n, (idealLink.grants n).isSome := fun n => rfl
  have text : TextFits probe.message := show List.length _ < 2 ^ 31 by decide
  have relayed : receiveLog idealLink (relaying.stream ++ frame (LogReply.log probe).payload) =
      some (.ok (some probe), []) := by
    simpa [relaying] using receiveLog_log works [] text
  have ended : receiveLog idealLink (relaying.stream ++ frame LogReply.void.payload) =
      some (.ok none, []) := by
    simpa [relaying] using receiveLog_void works []
  have left := relaying_reached
    |>.tail (.log probe rfl) ⟨by decide, text⟩
    |>.tail (.test rfl) (by simp [Undisturbed, send, relaying])
    |>.tail (.receive rfl (.log probe) [] rfl idealLink works _ _ relayed)
    |>.tail (.stop rfl)
    |>.tail (.request .STOP_LOG_FORWARDING [] rfl rfl)
    |>.tail (.reply .STOP_LOG_FORWARDING rfl)
    |>.tail (.test rfl) (by simp [Undisturbed, send, relaying, relay, handle])
    |>.tail (.receive rfl .void [] rfl idealLink works _ _ ended)
  exact left

theorem log_relayed_once : relayedOnce.Contract := log_relayed relayedOnce_reached

/-- A message sent between the subscription and the reply to START is taken for the
    reply: it is lost, and the reply ends the loop though STOP was not sent. -/
theorem early_log_ends_loop : ∃ s, Runs Step Any init s ∧ s.handlerLoop = .left ∧
    s.acceptor.stopSent = false ∧ s.forwarded = [probe] ∧ s.unread = [] ∧ s.relayed = [] := by
  have works : ∀ n, (idealLink.grants n).isSome := fun n => rfl
  have text : TextFits probe.message := show List.length _ < 2 ^ 31 by decide
  obtain ⟨u, accepted⟩ : ∃ u, recv idealLink (init.stream ++ frame (LogReply.log probe).payload ++
      frame LogReply.void.payload) = some (.ok u, frame LogReply.void.payload) := by
    obtain ⟨u, accepted⟩ := recv_reply works (frame LogReply.void.payload) (r := .log probe)
      (by intro m same; cases same; exact text)
    exact ⟨u, by simpa [init] using accepted⟩
  have ended : receiveLog idealLink (frame LogReply.void.payload) = some (.ok none, []) := by
    simpa using receiveLog_void works []
  have run : Runs Step Any init init := .refl
  have replied := run
    |>.tail (.start rfl)
    |>.tail (.request .START_LOG_FORWARDING [] rfl rfl)
    |>.tail (.log probe rfl)
    |>.tail (.reply .START_LOG_FORWARDING rfl)
  have launched :=
    replied.tail (.started rfl (.log probe) [.void] rfl idealLink works _ _ accepted)
  have polling := launched.tail (.test rfl)
  have left := polling.tail (.receive rfl .void [] rfl idealLink works _ _ ended)
  exact ⟨_, left, rfl, rfl, rfl, rfl, rfl⟩

/-- A message sent before STOP is given up when the loop sees `done` first. -/
theorem shutdown_loses_log : ∃ s, Runs Step Any init s ∧ s.handlerLoop = .left ∧
    s.forwarded = [probe] ∧ s.relayed = [] := by
  have reached : Runs Step Any init relaying :=
    relaying_reached.mono fun _ _ _ => trivial
  have left := reached
    |>.tail (.log probe rfl)
    |>.tail (.stop rfl)
    |>.tail (.hangup rfl)
    |>.tail (.close rfl)
    |>.tail (.test rfl)
  exact ⟨_, left, rfl, rfl, rfl⟩

/-- Neither half of the contract holds of every interleaving. -/
theorem log_not_relayed :
    (∃ s, Runs Step Any init s ∧ s.handlerLoop = .left ∧ s.acceptor.stopSent = false ∧
      s.forwarded = [probe] ∧ s.unread = [] ∧ s.relayed = []) ∧
    ∃ s, Runs Step Any init s ∧ s.handlerLoop = .left ∧ s.forwarded = [probe] ∧ s.relayed = [] :=
  ⟨early_log_ends_loop, shutdown_loses_log⟩

end LogConnection

end Soapy.Remote
