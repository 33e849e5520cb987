import Soapy.Remote.HandlerSafety

/-! # The life of a stream on the server

As long as nothing fails between the `setupStream` of the device and the reply,
and no `closeStream` throws, a setup that is answered by an exception has changed
nothing, and once the handler is destroyed every stream has been closed and every
thread has been joined exactly once.

Otherwise the balance is lost: the udp and tcp failures of SETUP_STREAM drop the
entry without closing the stream of the device, a failed `accept` keeps the entry,
and a stream whose `closeStream` threw is torn down again.
-/

namespace Soapy.Remote

open Lib Handle

variable {W : Type} (env : World W)

/-- Streams that the device has set up and that were not passed to `closeStream`. -/
def Server.openStreams (s : Server W) : Set Nat :=
  { n | .opened n ∈ s.events ∧ .closed n ∉ s.events }

structure Server.Settled (s : Server W) : Prop where
  streams : ∀ n, s.events.count (.closed n) = if n < countOpened s.events then 1 else 0
  threads : ∀ t, s.events.count (.joined t) = if t < countStarted s.events then 1 else 0

theorem destroy_spec {s : Server W} (inv : s.Inv) (clean : .failed ∉ s.events) :
    Action.wp (destroy env) (fun _ s' => s'.Settled) (fun _ s' => .failed ∈ s'.events) s := by
  have balanced := inv.accounts clean
  have unjoined : s.Unjoined := by
    intro t points
    refine balanced.unjoined ?_
    rwa [Server.threads, ← List.flatMap_map] at points
  rw [destroy, Action.wp_rescue, Action.wp_bind]
  refine Action.wp_mono (closeAll_spec env inv) (fun _ s₁ closed => ?_) (fun stop s₁ stops => ?_)
  · obtain ⟨_, balance⟩ := closed
    have settled : Server.Settled s₁ := by
      have left := balance balanced
      exact ⟨fun n => by simpa using left.streams n, fun t => by simpa using left.threads t⟩
    rw [Action.wp_bind, unmakeDevice, Action.wp_bind, Action.wp_get]
    split
    · exact ⟨settled.streams, settled.threads⟩
    · exact ⟨settled.streams, settled.threads⟩
  · rcases stops with ⟨_, joined⟩ | ⟨_, _, failed⟩
    · exact absurd unjoined joined
    · exact failed

/-- As long as nothing fails after the device has set a stream up and no `closeStream` throws: a
    set-up answered by an exception leaves the table and the open streams as they were, and the
    destructor settles all streams and threads. -/
theorem streams_settled {world : W} {s : Server W}
    (run : Relation.ReflTransGen (Handles env) (Server.init world) s) (clean : .failed ∉ s.events) :
    (∀ u again s' request e, handleOnce env u s = (.ok again, s') →
      u.readRequest = .ok request → request.IsSetup →
      s'.sent.getLast? = some (packException e) → .failed ∉ s'.events →
        s'.streamData = s.streamData ∧ s'.openStreams = s.openStreams) ∧
    (∀ result s', destroy env s = (result, s') → .failed ∉ s'.events →
      result = .ok () ∧ s'.Settled) := by
  have inv := reached_inv env run
  constructor
  · intro u again s' request e handled known setup exception stillClean
    have ended := handleOnce_spec env inv u
    rw [Action.wp, handled] at ended
    obtain ⟨reply, answered⟩ := ended
    have thrown : reply = packException e := by
      rw [answered.sent] at exception
      exact Option.some.inj exception
    obtain ⟨table, events⟩ := answered.setup request known setup ⟨e, thrown⟩ stillClean
    exact ⟨table, by rw [Server.openStreams, events]; rfl⟩
  · intro result s' destroyed stillClean
    have ended := destroy_spec env inv clean
    rw [Action.wp, destroyed] at ended
    cases result with
    | ok _ => exact ⟨rfl, ended⟩
    | error stop => exact absurd ended stillClean

def setupRequest : Request := .setupStream directionRX (ascii "CF32") [0] .empty [] []

def setupPayload : Bytes :=
  packCall (.named .SETUP_STREAM) ++ (packDirection directionRX ++ (packString (ascii "CF32") ++
    (packSizeList [0] ++ (packKwargs .empty ++ (packString [] ++ packString [])))))

def setupMessage : Unpacker := received idealLink setupPayload

theorem setupMessage_read : Program.run Unpacker.exec Unpack.request setupMessage =
    (.ok setupRequest, setupMessage.advance setupPayload.length) := by
  have text : TextFits (ascii "CF32") := show List.length _ < 2 ^ 31 by decide
  have none : TextFits [] := show List.length _ < 2 ^ 31 by decide
  have channel : ListFits (fun n : UInt64 => n.toNat < 2 ^ 31) [0] := by
    refine ⟨by decide, fun n member => ?_⟩
    rw [List.mem_singleton.mp member]
    decide
  have decoded : Decodes Unpack.request setupPayload setupRequest :=
    (Decodes.call (.named .SETUP_STREAM)).bind ((Decodes.direction ⟨by decide, by decide⟩).bind
      ((Decodes.string text).bind ((Decodes.sizeList channel).bind
        ((Decodes.kwargs ⟨by decide, by simp [OrdMap.empty]⟩).bind
          ((Decodes.string none).bind (Decodes.string none).map)))))
  exact decoded _ (received_holds idealLink _ (by decide))

/-- The handler with one stream and its two threads. -/
def streamingServer : Server Unit :=
  { afterMake with
    nextStreamId := 1
    streamData := OrdMap.insert .empty 0 ⟨0, some 0, some 1⟩
    sent := [packType .VOID, packInt 0 ++ packString (ascii "0")]
    events := [.opened 0, .started 0, .started 1] }

theorem setup_handled :
    handleOnce bareWorld setupMessage afterMake = (.ok true, streamingServer) := by
  have dispatched : dispatch bareWorld setupMessage afterMake =
      (.ok (true, packInt 0 ++ packString (ascii "0")),
        { streamingServer with sent := [packType .VOID] }) := by
    rw [dispatch_read bareWorld setupMessage_read]
    rfl
  rw [handleOnce, Action.bind_ok (Action.rescue_ok dispatched)]
  rfl

theorem streamingServer_settled :
    ∃ s', destroy bareWorld streamingServer = (.ok (), s') ∧ s'.Settled := by
  have run : Relation.ReflTransGen (Handles bareWorld) (Server.init ()) streamingServer :=
    .tail (.single ⟨makeMessage, true, make_handled⟩) ⟨setupMessage, true, setup_handled⟩
  have settles := (streams_settled bareWorld run (by decide)).2
  exact ⟨_, rfl, (settles _ _ rfl (by decide)).2⟩

def noPortWorld : World Unit := { bareWorld with bind := fun _ w => (.error (ascii "in use"), w) }

/-- The handler after its SETUP_STREAM was refused a port. -/
def leakedServer (reply : Bytes) : Server Unit :=
  { afterMake with
    nextStreamId := 1
    sent := [packType .VOID, reply]
    events := [.opened 0, .failed] }

/-- A SETUP_STREAM that cannot bind is answered by an exception, but the stream of
    the device stays open and is never closed. -/
theorem refused_bind_leaks : ∃ reply s',
    Relation.ReflTransGen (Handles noPortWorld) (Server.init ()) afterMake ∧
    handleOnce noPortWorld setupMessage afterMake = (.ok true, leakedServer reply) ∧
    (∃ e, reply = packException e) ∧
    (leakedServer reply).openStreams ≠ afterMake.openStreams ∧
    destroy noPortWorld (leakedServer reply) = (.ok (), s') ∧ ¬ s'.Settled := by
  let e : Exn := .runtimeError (socketError (ascii "udp://:0") "bind" (ascii "in use"))
  have made : dispatch noPortWorld makeMessage (Server.init ()) =
      (.ok (true, packType .VOID), madeServer ()) := by
    rw [dispatch_read noPortWorld makeMessage_read]
    rfl
  have refused : dispatch noPortWorld setupMessage afterMake =
      (.error (.thrown e), { leakedServer [] with sent := [packType .VOID] }) := by
    rw [dispatch_read noPortWorld setupMessage_read]
    rfl
  refine ⟨packException e, _, .single ⟨makeMessage, true, ?_⟩, ?_, ⟨e, rfl⟩, ?_, rfl, ?_⟩
  · rw [handleOnce, Action.bind_ok (Action.rescue_ok made)]
    rfl
  · rw [handleOnce, Action.bind_ok (Action.rescue_error refused)]
    rfl
  · intro same
    have leaked : 0 ∈ (leakedServer (packException e)).openStreams := by
      simp [Server.openStreams, leakedServer]
    rw [same] at leaked
    simp [Server.openStreams, afterMake, madeServer, Server.init] at leaked
  · intro settled
    exact absurd (settled.streams 0) (by decide)

end Soapy.Remote
