import Soapy.Remote.HandlerInvariant
import Soapy.Remote.Transparency

/-! # A handler survives its requests

Whatever a client sends in whatever order, a handler that serves only serviceable
requests answers each of them, those that lack a device by an exception. The
dispatcher does not check for a device itself: a call before MAKE dereferences
null.
-/

namespace Soapy.Remote

open Lib Handle

def Unpacker.readRequest (u : Unpacker) : Except Exn Request :=
  (Program.run Unpacker.exec Unpack.request u).1

variable {W : Type} (env : World W)

/-- How a message is answered from `s`. -/
structure Answered (s : Server W) (u : Unpacker) (again : Bool) (s' : Server W) (reply : Bytes) :
    Prop where
  inv : s'.Inv
  sent : s'.sent.getLast? = some reply
  again : again = true ∨ u.readRequest = .ok .hangup
  lacking : ∀ request, u.readRequest = .ok request → request.NeedsDevice → s.dev = none →
    ∃ e, reply = packException e
  /-- A setup that is answered by an exception changes nothing, if nothing failed
      after the device had set the stream up. -/
  setup : ∀ request, u.readRequest = .ok request → request.IsSetup →
    (∃ e, reply = packException e) → .failed ∉ s'.events →
      s'.streamData = s.streamData ∧ s'.events = s.events

theorem handleOnce_spec {s : Server W} (inv : s.Inv) (u : Unpacker) :
    Action.wp (handleOnce env u) (fun again s' => ∃ reply, Answered s u again s' reply)
      (fun stop _ => stop = .crashed ∧ ∃ request, u.readRequest = .ok request ∧
        ¬ request.Serviceable env s) s := by
  rw [handleOnce, Action.wp_bind, Action.wp_rescue]
  cases read : Program.run Unpacker.exec Unpack.request u with
  | mk result u' =>
    have known : u.readRequest = result := by rw [Unpacker.readRequest, read]
    cases result with
    | error e =>
      have unreadable : ∀ request, u.readRequest ≠ .ok request := by simp [known]
      rw [dispatch_refused env read]
      refine ⟨packException e, inv.congr, by simp, .inl rfl, ?_, ?_⟩
      · exact fun request h => absurd h (unreadable request)
      · exact fun request h => absurd h (unreadable request)
    | ok request =>
      rw [dispatch_read env read, Action.wp_bind]
      refine Action.wp_mono (perform_spec env inv _ request) (fun reply s' returned => ?_)
        (fun stop s' stopped => ?_)
      · refine ⟨reply, returned.inv.congr, by simp, ?_, ?_, ?_⟩
        · cases request <;> simp [Request.again, known]
        · intro request' h needs null
          obtain rfl := Except.ok.inj (known.symm.trans h)
          have device := returned.device needs
          simp [null] at device
        · intro request' h setup exception
          obtain rfl := Except.ok.inj (known.symm.trans h)
          obtain ⟨rest, first⟩ := returned.reply setup
          obtain ⟨e, thrown⟩ := exception
          rw [first] at thrown
          exact absurd (List.cons.inj thrown).1 (by decide)
      · rcases stopped with ⟨rfl, unserviceable⟩ | ⟨⟨e, rfl⟩, threw⟩
        · exact ⟨rfl, request, known, unserviceable⟩
        · refine ⟨packException e, threw.inv.congr, by simp, .inl rfl,
            fun _ _ _ _ => ⟨e, rfl⟩, fun request' h setup _ clean => ?_⟩
          obtain rfl := Except.ok.inj (known.symm.trans h)
          exact threw.setup setup clean

def Met (s : Server W) (u : Unpacker) : Prop :=
  ∀ request, u.readRequest = .ok request → request.Serviceable env s

def Handles (s s' : Server W) : Prop :=
  ∃ u again, handleOnce env u s = (.ok again, s')

def HandlesMet (s s' : Server W) : Prop :=
  ∃ u again, Met env s u ∧ handleOnce env u s = (.ok again, s')

theorem Handles.inv {s s' : Server W} (step : Handles env s s') (inv : s.Inv) : s'.Inv := by
  obtain ⟨u, again, handled⟩ := step
  have ended := handleOnce_spec env inv u
  rw [Action.wp, handled] at ended
  obtain ⟨_, answered⟩ := ended
  exact answered.inv

/-- Every state a connection reaches satisfies the invariant. -/
theorem reached_inv {world : W} {s : Server W}
    (run : Relation.ReflTransGen (Handles env) (Server.init world) s) : s.Inv := by
  induction run with
  | refl => exact Server.Inv.init world
  | tail _ step ih => exact step.inv env ih

def Survives (s : Server W) (u : Unpacker) : Prop :=
  ∃ again s' reply, handleOnce env u s = (.ok again, s') ∧ s'.sent.getLast? = some reply ∧
    (∀ request, u.readRequest = .ok request → request.NeedsDevice → s.dev = none →
      ∃ e, reply = packException e) ∧
    (again = true ∨ u.readRequest = .ok .hangup)

/-- In every run of serviceable requests, in any order, each request is answered,
    and the loop goes on unless it was a HANGUP. -/
theorem handler_survives {world : W} {s : Server W}
    (run : Relation.ReflTransGen (HandlesMet env) (Server.init world) s) (u : Unpacker)
    (met : Met env s u) : Survives env s u := by
  have handled : Relation.ReflTransGen (Handles env) (Server.init world) s :=
    Relation.ReflTransGen.mono (fun _ _ ⟨u, again, _, handled⟩ => ⟨u, again, handled⟩) _ _ run
  have ended := handleOnce_spec env (reached_inv env handled) u
  have returns : Action.wp (handleOnce env u) _ (fun _ _ => False) s :=
    Action.wp_mono ended (fun _ _ answered => answered) (fun _ _ crash => by
      obtain ⟨_, request, known, unserviceable⟩ := crash
      exact unserviceable (met request known))
  obtain ⟨again, s', ok, reply, answered⟩ := Action.ok_of_wp returns
  exact ⟨again, s', reply, ok, answered.sent, answered.lacking, answered.again⟩

def makeMessage : Unpacker := received idealLink (packCall (.named .MAKE) ++ packKwargs .empty)

theorem makeMessage_read : Program.run Unpacker.exec Unpack.request makeMessage =
    (.ok (.make .empty), makeMessage.advance 12) := by
  have decoded : Decodes Unpack.request (packCall (.named .MAKE) ++ packKwargs .empty)
      (.make .empty) :=
    (Decodes.call (.named .MAKE)).bind (Decodes.kwargs ⟨by decide, by simp [OrdMap.empty]⟩).map
  exact decoded _ (received_holds idealLink _ (by decide))

def driverKeyMessage : Unpacker := received idealLink DeviceCall.getDriverKey.request

theorem driverKeyMessage_read : Program.run Unpacker.exec Unpack.request driverKeyMessage =
    (.ok (.device .getDriverKey), driverKeyMessage.advance 6) :=
  request_decodes .getDriverKey trivial _
    (received_holds idealLink DeviceCall.getDriverKey.request (by decide))

def afterMake : Server Unit := { madeServer () with sent := [packType .VOID] }

theorem make_handled : handleOnce bareWorld makeMessage (Server.init ()) = (.ok true, afterMake) := by
  have dispatched : dispatch bareWorld makeMessage (Server.init ()) =
      (.ok (true, packType .VOID), madeServer ()) := by
    rw [dispatch_read bareWorld makeMessage_read]
    rfl
  rw [handleOnce, Action.bind_ok (Action.rescue_ok dispatched)]
  rfl

theorem afterMake_survives : Survives bareWorld afterMake driverKeyMessage := by
  have makes : HandlesMet bareWorld (Server.init ()) afterMake := by
    refine ⟨makeMessage, true, fun request known => ?_, make_handled⟩
    rw [Unpacker.readRequest, makeMessage_read] at known
    obtain rfl := Except.ok.inj known
    trivial
  refine handler_survives bareWorld (.single makes) driverKeyMessage (fun request known => ?_)
  rw [Unpacker.readRequest, driverKeyMessage_read] at known
  obtain rfl := Except.ok.inj known
  rfl

/-- The first message of a connection may ask for the driver key, and then the
    handler dereferences null. -/
theorem noDevice_crashes :
    recv idealLink (frame DeviceCall.getDriverKey.request ++ []) = some (.ok driverKeyMessage, []) ∧
      ¬ Survives bareWorld (Server.init ()) driverKeyMessage := by
  refine ⟨recv_request idealLink (by simp [idealLink]) [] .getDriverKey (by decide), ?_⟩
  have dispatched : dispatch bareWorld driverKeyMessage (Server.init ()) =
      (.error .crashed, Server.init ()) := by
    rw [dispatch_read bareWorld driverKeyMessage_read]
    rfl
  rintro ⟨again, s', reply, handled, _⟩
  rw [handleOnce, Action.bind_error (Action.rescue_error dispatched)] at handled
  simp at handled

end Soapy.Remote
