import Soapy.Remote.FlowControl

/-! # Flow control does not deadlock

Over lossless channels that keep the order, the receiver stays within its trigger
of the last ACK it sent, and the trigger is below the window. So once everything
under way has been taken, the sender may go on.
-/

namespace Soapy.Remote

open Lib

namespace Flow

def lastCount : List Ack → Nat → Nat
  | [], default => default
  | ack :: acks, _ => lastCount acks ack.count

theorem lastCount_append (acks : List Ack) (ack : Ack) (default : Nat) :
    lastCount (acks ++ [ack]) default = ack.count := by
  induction acks generalizing default with
  | nil => rfl
  | cons first acks ih => exact ih first.count

/-- The records under way are the ones between the two ends, in order, and the last
    ACK is the one the receiver keeps account of. -/
structure Ordered (W : Nat) (s : Flow) : Prop where
  trigger : s.receiver.triggerAckWindow.toNat = W / numBuffs
  gap : sequenceGap s.receiver.lastRecvSequence s.receiver.lastSendSequence <
    max (W / numBuffs) 1
  data : s.data.map Packet.index = List.range' s.received (s.sent - s.received)
  acks : s.receiver.lastSendSequence.toNat % 2 ^ 32 = lastCount s.acks s.lastAcked % 2 ^ 32
  initial : s.acks = [] → s.sender.receiveInitial = true

variable {W : Nat} {s s' : Flow} {a : FlowAction}

theorem gap_level {recv send : UInt64} (level : send = recv) :
    sequenceGap recv send < max (W / numBuffs) 1 := by
  rw [level, sequenceGap, UInt64.sub_self]
  exact lt_of_lt_of_le Nat.zero_lt_one (le_max_right ..)

section

variable (ordered : s.Ordered W)
include ordered

theorem Ordered.recvACK {ack : Ack} {acks : List Ack} (takes : s.acks = ack :: acks) :
    Ordered W { s with
      sender := s.sender.recvACK ack.header
      acks := acks
      lastAcked := ack.count
      acked := max s.acked ack.count } :=
  { ordered with
    acks := by
      have last := ordered.acks
      rwa [takes] at last
    initial := fun _ => rfl }

theorem Ordered.releaseSend (order : s.received ≤ s.sent) (grants : Grants)
    (h : BuffHandle) (numElemsOrErr flags : Int32) (timeNs : Int64) :
    Ordered W { s with
      sender := (s.sender.releaseSend grants h numElemsOrErr flags timeNs).2
      data := s.data ++
        [⟨s.sent, (s.sender.releaseSend grants h numElemsOrErr flags timeNs).1.flatten⟩]
      sent := s.sent + 1 } := by
  have longer : s.sent + 1 - s.received = s.sent - s.received + 1 := by omega
  have last : s.received + (s.sent - s.received) = s.sent := by omega
  exact
    { ordered with
      data := by
        rw [List.map_append, ordered.data, longer, List.range'_concat, Nat.one_mul, last]
        rfl }

theorem Ordered.acquireRecv (inv : s.Inv W) {packet : Packet}
    {data : List Packet} {arrivals rest : Arrivals} {got : Endpoint.Acquired} {receiver : Endpoint}
    (takes : s.data = packet :: data) (room : s.receiver.ring.full = false)
    (arrives : Arrives s.receiver.config packet.record arrivals)
    (returns : s.receiver.acquireRecv arrivals = some (got, receiver, rest)) :
    Ordered W { s with
      receiver := receiver
      data := data
      acks := s.acks ++ (got.ack.map (⟨packet.index + 1, ·⟩)).toList
      received := packet.index + 1 } := by
  obtain ⟨before, holds⟩ := inv.data packet (takes ▸ List.mem_cons_self)
  obtain ⟨enough, image⟩ := holds arrives.1
  have tracked := Endpoint.acquireRecv_tracked room arrives enough returns
  have recv : receiver.lastRecvSequence.toNat = (packet.index + 1) % 2 ^ 32 := by
    rw [tracked.recv, UInt32.toNat_toUInt64, sequence_succ image]
  have trigger : receiver.triggerAckWindow.toNat = W / numBuffs := by
    rw [tracked.trigger]
    exact ordered.trigger
  have rests : data.map Packet.index =
      List.range' (packet.index + 1) (s.sent - (packet.index + 1)) := by
    have all := ordered.data
    have more : s.sent - s.received ≠ 0 := by
      intro none
      rw [takes, none] at all
      cases all
    obtain ⟨n, count⟩ := Nat.exists_eq_succ_of_ne_zero more
    rw [takes, count, List.map_cons, List.range'_succ] at all
    obtain ⟨first, later⟩ := List.cons.inj all
    have left : s.sent - (packet.index + 1) = n := by omega
    rw [left, later, first]
  rcases tracked.acked with ⟨silent, kept, near⟩ | ⟨header, sends, _, _, level⟩
  · refine ⟨trigger, ?_, rests, ?_, ?_⟩
    · rw [ordered.trigger] at near
      exact lt_of_lt_of_le near (le_max_left ..)
    · simp only [silent, Option.map_none, Option.toList_none, List.append_nil, kept]
      exact ordered.acks
    · simp only [silent, Option.map_none, Option.toList_none, List.append_nil]
      exact ordered.initial
  · refine ⟨trigger, gap_level level, rests, ?_, ?_⟩
    · simp [sends, lastCount_append, level, recv]
    · simp [sends]

theorem Ordered.waitRecv (inv : s.Inv W) : Ordered W { s with
      receiver := s.receiver.waitRecv.2
      acks := s.acks ++ (s.receiver.waitRecv.1.map (⟨s.received, ·⟩)).toList } := by
  rw [Endpoint.waitRecv]
  split
  · simpa using ordered
  · exact
      { ordered with
        gap := gap_level rfl
        acks := by
          rw [Option.map_some, Option.toList_some, lastCount_append]
          exact inv.recv
        initial := by simp }

omit ordered in
theorem Ordered.step (ordered : s.Ordered W) (inv : s.Inv W) (step : Step .fifo s a s') :
    s'.Ordered W := by
  cases step with
  | recvACK ack acks takes => exact ordered.recvACK takes
  | acquireSend =>
    have initial : s.sender.acquireSend.2.receiveInitial = s.sender.receiveInitial := by
      rw [Endpoint.acquireSend]
      split <;> rfl
    exact { ordered with initial := fun none => initial.trans (ordered.initial none) }
  | releaseSend grants works h numElemsOrErr flags timeNs =>
    exact ordered.releaseSend inv.received grants h numElemsOrErr flags timeNs
  | acquireRecv packet data arrivals rest got receiver takes room arrives returns =>
    exact ordered.acquireRecv inv takes room arrives returns
  | releaseRecv h => exact { ordered with }
  | waitRecv => exact ordered.waitRecv inv

theorem Ordered.runs {Allowed : Flow → FlowAction → Prop} {Holds : Flow → Prop} (inv : s.Inv W) (run : Runs .fifo Allowed Holds s s') :
    s'.Ordered W := by
  induction run with
  | refl => exact ordered
  | tail before step ih =>
    obtain ⟨a, _, step, _⟩ := step
    exact ih.step (inv.runs before) step

theorem Ordered.free (inv : s.Inv W) (positive : 1 ≤ W)
    (noData : s.data = []) (noAcks : s.acks = []) : s.sender.mustWait = false := by
  have initial := ordered.initial noAcks
  obtain ⟨sequence, announced⟩ := inv.sender initial
  have caught : s.received = s.sent := by
    have all := ordered.data
    have order := inv.received
    rw [noData, List.map_nil] at all
    have none := congrArg List.length all
    rw [List.length_nil, List.length_range'] at none
    omega
  have last := ordered.acks
  rw [noAcks] at last
  have order : s.lastAcked ≤ s.sent := le_trans inv.lastAcked inv.acked
  have ahead : sequenceGap s.sender.lastSendSequence s.sender.lastRecvSequence =
      (s.sent - s.lastAcked) % 2 ^ 32 :=
    sequenceGap_eq inv.send (by rw [sequence, Nat.mod_mod]) order
  have level : sequenceGap s.receiver.lastRecvSequence s.receiver.lastSendSequence =
      (s.sent - s.lastAcked) % 2 ^ 32 :=
    sequenceGap_eq (caught ▸ inv.recv) last order
  have gap := ordered.gap
  rw [Endpoint.mustWait_eq_false, ahead, announced]
  rw [level] at gap
  refine ⟨initial, lt_of_lt_of_le gap (max_le (Nat.div_le_self ..) positive)⟩

end

section Start

variable {recvConfig : EndpointConfig} {actualWindow : Int32}
  (some_ : 0 < recvConfig.mtu.toNat) (enough : (recvConfig.mtu.toNat : Int) ≤ actualWindow.toInt)

include some_ enough

theorem window_eq : window recvConfig actualWindow =
      (Unpack.toSize actualWindow / recvConfig.mtu).toNat ∧
    1 ≤ window recvConfig actualWindow := by
  have high := actualWindow.toInt_lt
  have size : (Unpack.toSize actualWindow).toNat = actualWindow.toInt.toNat := by
    rw [Unpack.toSize, UInt64.toNat_ofNat_of_lt' (by simp [UInt64.size]; omega)]
    omega
  have quotient : (Unpack.toSize actualWindow / recvConfig.mtu).toNat =
      actualWindow.toInt.toNat / recvConfig.mtu.toNat := by
    rw [UInt64.toNat_div, size]
  have small : actualWindow.toInt.toNat / recvConfig.mtu.toNat < 2 ^ 32 :=
    lt_of_le_of_lt (Nat.div_le_self ..) (by omega)
  have one : 1 ≤ actualWindow.toInt.toNat / recvConfig.mtu.toNat :=
    (Nat.one_le_div_iff some_).mpr (by omega)
  rw [window, UInt64.toNat_toUInt32, quotient, Nat.mod_eq_of_lt small]
  exact ⟨rfl, one⟩

theorem Ordered.start (sendConfig : EndpointConfig) :
    Ordered (window recvConfig actualWindow) (start sendConfig recvConfig actualWindow) where
  trigger := by
    rw [(window_eq some_ enough).1]
    exact UInt64.toNat_div ..
  gap := gap_level rfl
  data := rfl
  acks := rfl
  initial none := by cases none

end Start

end Flow

/-- In every state with nothing under way, `waitSend` does not wait. -/
theorem no_deadlock (sendConfig recvConfig : EndpointConfig) (actualWindow : Int32)
    (some_ : 0 < recvConfig.mtu.toNat) (enough : (recvConfig.mtu.toNat : Int) ≤ actualWindow.toInt)
    (s : Flow) (run : Flow.Runs .fifo (fun _ _ => True) (fun _ => True)
      (Flow.start sendConfig recvConfig actualWindow) s)
    (noData : s.data = []) (noAcks : s.acks = []) : s.sender.mustWait = false := by
  have inv := Flow.Inv.start sendConfig recvConfig actualWindow
  have ordered := Flow.Ordered.start some_ enough sendConfig
  exact (ordered.runs inv run).free (inv.runs run) (Flow.window_eq some_ enough).2 noData noAcks

theorem no_deadlock_at_start :
    ((Endpoint.makeSend mtu1500).recvACK (Endpoint.makeRecv mtu1500 65536).1).mustWait = false :=
  no_deadlock mtu1500 mtu1500 65536 (by decide) (by decide) _
    (.single ⟨.recvACK, trivial, .recvACK ⟨0, (Endpoint.makeRecv mtu1500 65536).1⟩ [] rfl, trivial⟩)
    rfl rfl

end Soapy.Remote
