import Soapy.Remote.Transparency

/-! # Requests and replies of one connection

A call of the client sends a request and then constructs an unpacker for the reply;
in tcp mode `setupStream` reads a reply with the port first, connects to it, and
reads a second one. The server answers the requests in order. Nothing in a reply
says which request it belongs to: a call takes what the connection holds next.

Every reply carries the number of its request as a mark for the proofs. The bytes
that the calls read are those of the frames alone.
-/

namespace Soapy.Remote

open Lib

inductive ClientCall where
  | make
  | unmake
  | hangup
  | device (call : DeviceCall)
  | query (q : StreamQuery)
  | setupStream (datagramMode : Bool)
  | setupStreamBypass
  | closeStream
  | activateStream
  | deactivateStream

namespace ClientCall

abbrev Result : ClientCall → Type
  | .make | .unmake | .hangup | .closeStream => Unit
  | .device call => call.Result
  | .query q => q.Result
  | .setupStream _ => Int32 × Bytes
  | .setupStreamBypass | .activateStream | .deactivateStream => Int32

def unpackResult (remoteRPCVersion : UInt32) : (c : ClientCall) → Unpack c.Result
  | .make | .unmake | .hangup | .closeStream => pure ()
  | .device call => call.unpackResult remoteRPCVersion
  | .query (.getStreamFormats ..) => Unpack.stringList
  | .query (.getNativeStreamFormat ..) => do return (← Unpack.string, ← Unpack.double)
  | .query (.getStreamArgsInfo ..) => Unpack.argInfoList remoteRPCVersion
  | .setupStream _ => do return (← Unpack.int, ← Unpack.string)
  | .setupStreamBypass | .activateStream | .deactivateStream => Unpack.int

/-- In tcp mode the server sends the port to connect to before it accepts. -/
def announcesPort : ClientCall → Bool
  | .setupStream datagramMode => !datagramMode
  | _ => false

end ClientCall

/-- `SoapyRPCUnpacker unpacker(_sock); unpacker & value;` on what has arrived: the
    value or the exception, and the bytes that are left. -/
def awaitValue {α : Type} (link : Link) (stream : Bytes) (unpack : UInt32 → Unpack α) :
    Option (Except Exn α × Bytes) :=
  match recvMessage link stream with
  | none => none
  | some (.error e, rest) => some (.error e, rest)
  | some (.ok u, rest) =>
    some ((Program.run Unpacker.exec (do Unpack.recvTail; unpack u.remoteRPCVersion) u).1, rest)

inductive ReplyKind where
  | port
  | final
  deriving DecidableEq

structure Reply where
  /-- The number of the request that is answered. -/
  request : Nat
  kind : ReplyKind
  payload : Bytes
  deriving DecidableEq

structure Return where
  request : Nat
  call : ClientCall
  port : Option Reply
  reply : Reply
  value : call.Result

inductive Phase where
  | idle
  | awaiting (request : Nat) (call : ClientCall)
  | connecting (request : Nat) (call : ClientCall) (port : Reply)
  | finishing (request : Nat) (call : ClientCall) (port : Reply)

structure Connection where
  phase : Phase
  requests : List (Nat × ClientCall)
  /-- The server has sent the port for the first of them. -/
  accepting : Bool
  inbox : List Reply
  stream : Bytes
  sent : Nat
  returned : List Return

namespace Connection

def init : Connection := ⟨.idle, [], false, [], [], 0, []⟩

def finish (s : Connection) (request : Nat) (call : ClientCall) (port : Option Reply)
    (reply : Reply) (rest : List Reply) (bytes : Bytes) (result : Except Exn call.Result) :
    Connection :=
  { s with
    phase := .idle
    inbox := rest
    stream := bytes
    returned :=
      match result with
      | .ok value => s.returned ++ [⟨request, call, port, reply, value⟩]
      | .error _ => s.returned }

inductive Action where
  | call
  | announce
  | answer
  | receive
  | connect
  /-- The unpacker gives up: the timeout, or the server does not accept a test
      connection. -/
  | giveUp
  /-- `connect FAIL`. -/
  | connectFail
  deriving DecidableEq

def Sendable (payload : Bytes) : Prop := payload ≠ [] ∧ (frame payload).length < 2 ^ 32

instance (payload : Bytes) : Decidable (Sendable payload) := inferInstanceAs (Decidable (_ ∧ _))

inductive Step (s : Connection) : Action → Connection → Prop
  | call (c : ClientCall) (idle : s.phase = .idle) :
      Step s .call
        { s with
          phase := .awaiting s.sent c
          requests := s.requests ++ [(s.sent, c)]
          sent := s.sent + 1 }
  | announce (n : Nat) (c : ClientCall) (later : List (Nat × ClientCall)) (port : Bytes)
      (first : s.requests = (n, c) :: later) (announces : c.announcesPort = true)
      (notYet : s.accepting = false) (text : TextFits port) (sends : Sendable (packString port)) :
      Step s .announce
        { s with
          accepting := true
          inbox := s.inbox ++ [⟨n, .port, packString port⟩]
          stream := s.stream ++ frame (packString port) }
  /-- A tcp setup that fails before the port is sent is answered by the exception
      alone. -/
  | answer (n : Nat) (c : ClientCall) (later : List (Nat × ClientCall)) (payload : Bytes)
      (first : s.requests = (n, c) :: later)
      (ends : c.announcesPort = s.accepting ∨
        ∃ e : Exn, TextFits e.what ∧ payload = packException e)
      (sends : Sendable payload) :
      Step s .answer
        { s with
          requests := later
          accepting := false
          inbox := s.inbox ++ [⟨n, .final, payload⟩]
          stream := s.stream ++ frame payload }
  | receive (n : Nat) (c : ClientCall) (waits : s.phase = .awaiting n c)
      (single : c.announcesPort = false) (reply : Reply) (rest : List Reply)
      (arrived : s.inbox = reply :: rest) (link : Link) (works : ∀ n, (link.grants n).isSome)
      (result : Except Exn c.Result) (bytes : Bytes)
      (read : awaitValue link s.stream c.unpackResult = some (result, bytes)) :
      Step s .receive (s.finish n c none reply rest bytes result)
  | receivePort (n : Nat) (c : ClientCall) (waits : s.phase = .awaiting n c)
      (announces : c.announcesPort = true) (reply : Reply) (rest : List Reply)
      (arrived : s.inbox = reply :: rest) (link : Link) (works : ∀ n, (link.grants n).isSome)
      (result : Except Exn Bytes) (bytes : Bytes)
      (read : awaitValue link s.stream (fun _ => Unpack.string) = some (result, bytes)) :
      Step s .receive
        { s with
          phase := if result.isOk then .connecting n c reply else .idle
          inbox := rest
          stream := bytes }
  | connect (n : Nat) (c : ClientCall) (port : Reply) (ready : s.phase = .connecting n c port) :
      Step s .connect { s with phase := .finishing n c port }
  | connectFail (n : Nat) (c : ClientCall) (port : Reply) (ready : s.phase = .connecting n c port) :
      Step s .connectFail { s with phase := .idle }
  | receiveFinal (n : Nat) (c : ClientCall) (port : Reply) (waits : s.phase = .finishing n c port)
      (reply : Reply) (rest : List Reply) (arrived : s.inbox = reply :: rest) (link : Link)
      (works : ∀ n, (link.grants n).isSome) (result : Except Exn c.Result) (bytes : Bytes)
      (read : awaitValue link s.stream c.unpackResult = some (result, bytes)) :
      Step s .receive (s.finish n c (some port) reply rest bytes result)
  | giveUp (n : Nat) (c : ClientCall)
      (waits : s.phase = .awaiting n c ∨ ∃ port, s.phase = .finishing n c port) :
      Step s .giveUp { s with phase := .idle }

def Runs (Allowed : Action → Prop) : Connection → Connection → Prop :=
  Relation.ReflTransGen (fun s s' => ∃ a, Allowed a ∧ Step s a s')

end Connection

/-- The value is what the server answered to that very request. -/
structure Return.Paired (r : Return) : Prop where
  reply : r.reply.request = r.request ∧ r.reply.kind = .final
  port : ∀ port ∈ r.port, port.request = r.request ∧ port.kind = .port
  value : ∃ link later, awaitValue link (frame r.reply.payload ++ later) r.call.unpackResult =
    some (.ok r.value, later)

variable {link : Link} (later : Bytes)

theorem awaitValue_frame {α : Type} (works : ∀ n, (link.grants n).isSome)
    {payload : Bytes} (sends : Connection.Sendable payload) (later : Bytes)
    (unpack : UInt32 → Unpack α) :
    awaitValue link (frame payload ++ later) unpack =
      some ((Program.run Unpacker.exec (do Unpack.recvTail; unpack SoapyRPCVersion)
        (received link payload)).1, later) := by
  rw [awaitValue, recvMessage_frame link works payload later sends.1 sends.2]
  rfl

theorem awaitValue_port (works : ∀ n, (link.grants n).isSome) {port : Bytes}
    (text : TextFits port) (sends : Connection.Sendable (packString port)) (later : Bytes) :
    awaitValue link (frame (packString port) ++ later) (fun _ => Unpack.string) =
      some (.ok port, later) := by
  have decoded := Decodes.afterRecv SoapyRPCVersion (.string port) (Decodes.string text)
    (received link (packString port)) (received_holds link _ sends.2)
  rw [awaitValue_frame works sends]
  exact congrArg (fun ran => some (Prod.fst ran, later)) decoded

theorem awaitValue_exception {α : Type} (works : ∀ n, (link.grants n).isSome) {e : Exn}
    (text : TextFits e.what) (sends : Connection.Sendable (packException e)) (later : Bytes)
    (unpack : UInt32 → Unpack α) :
    awaitValue link (frame (packException e) ++ later) unpack =
      some (.error (.runtimeError (ascii "RemoteError: " ++ e.what)), later) := by
  have thrown := recvTail_exception (received_holds link _ sends.2) text
  rw [awaitValue_frame works sends, Program.run_bind_error thrown]

namespace Connection

/-- What the client still has to read for a call, before and after the port, with
    the requests that the server still has to finish. -/
inductive Owed (n : Nat) (c : ClientCall) :
    Bool → List Reply → List (Nat × ClientCall) → Bool → Prop
  | asked : Owed n c false [] [(n, c)] false
  | answered {payload : Bytes} (ends : c.announcesPort = false ∨
      ∃ e : Exn, TextFits e.what ∧ payload = packException e) :
      Owed n c false [⟨n, .final, payload⟩] [] false
  | announced {port : Bytes} (announces : c.announcesPort = true) (text : TextFits port) :
      Owed n c false [⟨n, .port, packString port⟩] [(n, c)] true
  | both {port payload : Bytes} (announces : c.announcesPort = true) (text : TextFits port) :
      Owed n c false [⟨n, .port, packString port⟩, ⟨n, .final, payload⟩] [] false
  | accepting : Owed n c true [] [(n, c)] true
  | final {payload : Bytes} : Owed n c true [⟨n, .final, payload⟩] [] false

/-- Between calls nothing is left over; during a call only its own replies are under
    way. -/
def Consistent (s : Connection) : Prop :=
  match s.phase with
  | .idle => s.inbox = [] ∧ s.requests = [] ∧ s.accepting = false
  | .awaiting n c => Owed n c false s.inbox s.requests s.accepting
  | .connecting n c port | .finishing n c port =>
    c.announcesPort = true ∧ port.request = n ∧ port.kind = .port ∧
      Owed n c true s.inbox s.requests s.accepting

structure Inv (s : Connection) : Prop where
  stream : s.stream = s.inbox.flatMap (fun reply => frame reply.payload)
  sendable : ∀ reply ∈ s.inbox, Sendable reply.payload
  consistent : s.Consistent
  paired : ∀ r ∈ s.returned, r.Paired

theorem Inv.init : Inv init where
  stream := rfl
  sendable reply member := by cases member
  consistent := ⟨rfl, rfl, rfl⟩
  paired r member := by cases member

variable {s s' : Connection} {a : Action}

theorem Inv.push (inv : s.Inv) (reply : Reply) (requests : List (Nat × ClientCall))
    (accepting : Bool) (sends : Sendable reply.payload) (consistent : Consistent { s with
      requests := requests
      accepting := accepting
      inbox := s.inbox ++ [reply]
      stream := s.stream ++ frame reply.payload }) :
    Inv { s with
      requests := requests
      accepting := accepting
      inbox := s.inbox ++ [reply]
      stream := s.stream ++ frame reply.payload } where
  stream := by
    rw [List.flatMap_append, ← inv.stream, List.flatMap_singleton]
  sendable r member := by
    rcases List.mem_append.mp member with old | new
    · exact inv.sendable r old
    · rw [List.mem_singleton.mp new]
      exact sends
  consistent := consistent
  paired := inv.paired

variable {n : Nat} {c : ClientCall}

theorem Inv.announce (inv : s.Inv) {later : List (Nat × ClientCall)}
    {port : Bytes} (first : s.requests = (n, c) :: later) (announces : c.announcesPort = true)
    (notYet : s.accepting = false) (text : TextFits port) (sends : Sendable (packString port)) :
    Inv { s with
      accepting := true
      inbox := s.inbox ++ [⟨n, .port, packString port⟩]
      stream := s.stream ++ frame (packString port) } := by
  refine inv.push ⟨n, .port, packString port⟩ s.requests true sends ?_
  have before := inv.consistent
  unfold Consistent at before ⊢
  generalize replies : s.inbox = inbox at before ⊢
  cases phase : s.phase with
  | idle =>
    rw [phase, first] at before
    cases before.2.1
  | awaiting m d =>
    simp only [phase, first, notYet] at before ⊢
    cases before with
    | asked => exact .announced announces text
  | connecting m d p | finishing m d p =>
    simp only [phase, first, notYet] at before
    cases before.2.2.2

theorem Inv.answer (inv : s.Inv) {later : List (Nat × ClientCall)}
    {payload : Bytes} (first : s.requests = (n, c) :: later)
    (ends : c.announcesPort = s.accepting ∨ ∃ e : Exn, TextFits e.what ∧ payload = packException e)
    (sends : Sendable payload) :
    Inv { s with
      requests := later
      accepting := false
      inbox := s.inbox ++ [⟨n, .final, payload⟩]
      stream := s.stream ++ frame payload } := by
  refine inv.push ⟨n, .final, payload⟩ later false sends ?_
  have before := inv.consistent
  unfold Consistent at before ⊢
  generalize replies : s.inbox = inbox at before ⊢
  generalize ported : s.accepting = accepting at before ends
  cases phase : s.phase with
  | idle =>
    rw [phase, first] at before
    cases before.2.1
  | awaiting m d =>
    simp only [phase, first] at before ⊢
    cases before with
    | asked => exact .answered ends
    | announced announces text => exact .both announces text
  | connecting m d p | finishing m d p =>
    simp only [phase, first] at before ⊢
    obtain ⟨announces, same, kind, owed⟩ := before
    cases owed with
    | accepting => exact ⟨announces, same, kind, .final⟩

variable {reply : Reply} {rest : List Reply}

theorem Inv.stream_cons (inv : s.Inv) (arrived : s.inbox = reply :: rest) :
    s.stream = frame reply.payload ++ rest.flatMap (fun reply => frame reply.payload) := by
  rw [inv.stream, arrived, List.flatMap_cons]

theorem Inv.read {α : Type} (inv : s.Inv) {reply : Reply} {rest : List Reply}
    (arrived : s.inbox = reply :: rest) {link : Link} (works : ∀ n, (link.grants n).isSome)
    {unpack : UInt32 → Unpack α} {result : Except Exn α} {bytes : Bytes}
    (read : awaitValue link s.stream unpack = some (result, bytes)) :
    bytes = rest.flatMap (fun reply => frame reply.payload) := by
  have sends : Sendable reply.payload := inv.sendable reply (arrived ▸ List.mem_cons_self)
  rw [inv.stream_cons arrived, awaitValue_frame works sends] at read
  exact (congrArg Prod.snd (Option.some.inj read)).symm

variable {result : Except Exn c.Result} {bytes : Bytes}

theorem Inv.finish (inv : s.Inv) {port : Option Reply}
    (arrived : s.inbox = [reply]) (works : ∀ n, (link.grants n).isSome)
    (read : awaitValue link s.stream c.unpackResult = some (result, bytes))
    (answers : reply.request = n ∧ reply.kind = .final)
    (ports : ∀ p ∈ port, p.request = n ∧ p.kind = .port)
    (served : s.requests = [] ∧ s.accepting = false) :
    Inv (s.finish n c port reply [] bytes result) where
  stream := inv.read arrived works read
  sendable r member := by cases member
  consistent := ⟨rfl, served.1, served.2⟩
  paired := by
    intro r member
    cases result with
    | error e => exact inv.paired r member
    | ok value =>
      rcases List.mem_append.mp member with old | new
      · exact inv.paired r old
      · rw [List.mem_singleton.mp new]
        have rest := inv.read arrived works read
        rw [inv.stream_cons arrived, rest] at read
        exact ⟨answers, ports, link, _, read⟩

theorem Inv.receive (inv : s.Inv) (waits : s.phase = .awaiting n c)
    (single : c.announcesPort = false)
    (arrived : s.inbox = reply :: rest) (works : ∀ n, (link.grants n).isSome)
    (read : awaitValue link s.stream c.unpackResult = some (result, bytes)) :
    Inv (s.finish n c none reply rest bytes result) := by
  have owed := inv.consistent
  simp only [Consistent, waits, arrived] at owed
  generalize left : s.requests = requests at owed
  generalize ported : s.accepting = accepting at owed
  cases owed with
  | answered ends => exact inv.finish arrived works read ⟨rfl, rfl⟩ (by simp) ⟨left, ported⟩
  | announced announces | both announces =>
    rw [single] at announces
    cases announces

theorem Inv.receiveFinal (inv : s.Inv) {port : Reply} (waits : s.phase = .finishing n c port)
    (arrived : s.inbox = reply :: rest) (works : ∀ n, (link.grants n).isSome)
    (read : awaitValue link s.stream c.unpackResult = some (result, bytes)) :
    Inv (s.finish n c (some port) reply rest bytes result) := by
  have before := inv.consistent
  simp only [Consistent, waits, arrived] at before
  obtain ⟨_, same, kind, owed⟩ := before
  generalize left : s.requests = requests at owed
  generalize ported : s.accepting = accepting at owed
  cases owed with
  | final =>
    refine inv.finish arrived works read ⟨rfl, rfl⟩ ?_ ⟨left, ported⟩
    intro p only
    rw [← Option.some.inj only]
    exact ⟨same, kind⟩

theorem Inv.receivePort (inv : s.Inv) (waits : s.phase = .awaiting n c)
    (announces : c.announcesPort = true)
    (arrived : s.inbox = reply :: rest) (works : ∀ n, (link.grants n).isSome)
    {result : Except Exn Bytes}
    (read : awaitValue link s.stream (fun _ => Unpack.string) = some (result, bytes)) :
    Inv { s with
      phase := if result.isOk then .connecting n c reply else .idle
      inbox := rest
      stream := bytes } := by
  have sends : Sendable reply.payload := inv.sendable reply (arrived ▸ List.mem_cons_self)
  refine
    { stream := inv.read arrived works read
      sendable := fun r member => inv.sendable r (arrived ▸ List.mem_cons_of_mem _ member)
      consistent := ?_
      paired := inv.paired }
  rw [inv.stream_cons arrived] at read
  have owed := inv.consistent
  simp only [Consistent, waits, arrived] at owed
  generalize s.requests = requests at owed ⊢
  generalize s.accepting = accepting at owed ⊢
  cases owed with
  | answered ends =>
    obtain ⟨e, text, rfl⟩ := ends.resolve_left (by rw [announces]; decide)
    rw [awaitValue_exception works text sends] at read
    cases read
    exact ⟨rfl, rfl, rfl⟩
  | announced _ text =>
    rw [awaitValue_port works text sends] at read
    cases read
    exact ⟨announces, rfl, rfl, .accepting⟩
  | both _ text =>
    rw [awaitValue_port works text sends] at read
    cases read
    exact ⟨announces, rfl, rfl, .final⟩

/-- No call leaves a reply behind. -/
def ReadsAll (a : Action) : Prop := a ≠ .giveUp ∧ a ≠ .connectFail

instance (a : Action) : Decidable (ReadsAll a) := inferInstanceAs (Decidable (_ ∧ _))

theorem Inv.step (inv : s.Inv) (allowed : ReadsAll a) (step : Step s a s') : s'.Inv := by
  cases step with
  | call c idle =>
    have before := inv.consistent
    simp only [Consistent, idle] at before
    obtain ⟨inbox, requests, accepting⟩ := before
    refine { inv with consistent := ?_ }
    simp only [Consistent, inbox, requests, accepting]
    exact .asked
  | announce n c later port first announces notYet text sends =>
    exact inv.announce first announces notYet text sends
  | answer n c later payload first ends sends => exact inv.answer first ends sends
  | receive n c waits single reply rest arrived link works result bytes read =>
    exact inv.receive waits single arrived works read
  | receivePort n c waits announces reply rest arrived link works result bytes read =>
    exact inv.receivePort waits announces arrived works read
  | connect n c port ready =>
    have before := inv.consistent
    simp only [Consistent, ready] at before
    exact { inv with consistent := before }
  | connectFail => exact absurd rfl allowed.2
  | receiveFinal n c port waits reply rest arrived link works result bytes read =>
    exact inv.receiveFinal waits arrived works read
  | giveUp => exact absurd rfl allowed.1

theorem Inv.runs (inv : s.Inv) (run : Runs ReadsAll s s') : s'.Inv := by
  induction run with
  | refl => exact inv
  | tail _ step ih =>
    obtain ⟨a, allowed, step⟩ := step
    exact ih.step allowed step

end Connection

/-- While no call gives up waiting and no tcp stream fails to connect, every value
    that a call returns is the server's answer to that call. -/
theorem replies_paired (s : Connection) (run : Connection.Runs Connection.ReadsAll .init s) :
    ∀ r ∈ s.returned, r.Paired :=
  (Connection.Inv.init.runs run).paired

section Example

theorem sendable_rx : Connection.Sendable (packString (ascii "RX")) := by decide

theorem read_rx : awaitValue idealLink ([] ++ frame (packString (ascii "RX")))
    (ClientCall.device .getClockSource).unpackResult = some (.ok (ascii "RX"), []) :=
  awaitValue_port (show ∀ n, (idealLink.grants n).isSome from fun _ => rfl)
    (by unfold TextFits; decide) sendable_rx []

theorem replies_paired_once :
    Return.Paired ⟨0, .device .getClockSource, none, ⟨0, .final, packString (ascii "RX")⟩,
      ascii "RX"⟩ :=
  replies_paired _
    (.tail (.tail (.tail .refl
      ⟨.call, by decide, .call (.device .getClockSource) rfl⟩)
      ⟨.answer, by decide, .answer 0 _ [] (packString (ascii "RX")) rfl (.inl rfl) sendable_rx⟩)
      ⟨.receive, by decide, .receive 0 _ rfl rfl _ [] rfl idealLink (fun _ => rfl) _ _ read_rx⟩)
    _ List.mem_cons_self

/-- `getAntenna` times out; its reply is what `getClockSource` returns. -/
theorem stale_reply_returned :
    ∃ s r, Connection.Runs (fun _ => True) .init s ∧ r ∈ s.returned ∧ ¬ Return.Paired r := by
  refine ⟨_, ⟨1, .device .getClockSource, none, ⟨0, .final, packString (ascii "RX")⟩, ascii "RX"⟩,
    .tail (.tail (.tail (.tail (.tail .refl
      ⟨.call, trivial, .call (.device (.getAntenna 1 0)) rfl⟩)
      ⟨.giveUp, trivial, .giveUp 0 _ (.inl rfl)⟩)
      ⟨.answer, trivial, .answer 0 _ [] (packString (ascii "RX")) rfl (.inl rfl) sendable_rx⟩)
      ⟨.call, trivial, .call (.device .getClockSource) rfl⟩)
      ⟨.receive, trivial, .receive 1 _ rfl rfl _ [] rfl idealLink (fun _ => rfl) _ _ read_rx⟩,
    List.mem_cons_self, fun paired => ?_⟩
  exact absurd paired.reply.1 (by decide)

end Example

end Soapy.Remote
