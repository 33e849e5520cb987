import Soapy.Remote.StreamRecords

/-! # Flow control between two endpoints

A sending endpoint and its peer, joined by a channel for the data records and one
for the ACKs. The code counts modulo 2^32 on the wire; the state carries the true
counts beside it: the number of records sent, the number that the receiver has
got to, and the numbers named by the ACKs that the sender has taken.

A record travels whole. What a lossy channel holds is everything that was ever put
in: taking from it leaves it as it is, so a message may be late, out of order,
taken twice or never taken.
-/

namespace Soapy.Remote

open Lib

/-- A data record, and how many records were sent before it. -/
structure Packet where
  index : Nat
  record : Bytes

/-- An ACK, and how many records the receiver had got to. -/
structure Ack where
  count : Nat
  header : StreamDatagramHeader

structure Flow where
  sender : Endpoint
  receiver : Endpoint
  data : List Packet
  acks : List Ack
  sent : Nat
  received : Nat
  lastAcked : Nat
  /-- The highest that any ACK taken so far acknowledges. -/
  acked : Nat

inductive Channel where
  | lossy
  | fifo

def Channel.Takes {α : Type} : Channel → List α → α → List α → Prop
  | .lossy, queue, message, queue' => message ∈ queue ∧ queue' = queue
  | .fifo, queue, message, queue' => queue = message :: queue'

theorem Channel.Takes.mem {α : Type} {channel : Channel} {queue queue' : List α} {message : α}
    (takes : channel.Takes queue message queue') : message ∈ queue := by
  cases channel with
  | lossy => exact takes.1
  | fifo =>
    rw [takes]
    exact List.mem_cons_self

theorem Channel.Takes.subset {α : Type} {channel : Channel} {queue queue' : List α} {message : α}
    (takes : channel.Takes queue message queue') : queue' ⊆ queue := by
  cases channel with
  | lossy => exact takes.2 ▸ List.Subset.refl _
  | fifo =>
    rw [takes]
    exact List.subset_cons_self ..

inductive FlowAction where
  | recvACK
  | acquireSend
  | releaseSend (h : BuffHandle)
  | acquireRecv
  | releaseRecv
  | waitRecv

namespace Flow

inductive Step (channel : Channel) (s : Flow) : FlowAction → Flow → Prop
  | recvACK (ack : Ack) (acks : List Ack) (takes : channel.Takes s.acks ack acks) :
      Step channel s .recvACK
        { s with
          sender := s.sender.recvACK ack.header
          acks := acks
          lastAcked := ack.count
          acked := max s.acked ack.count }
  | acquireSend : Step channel s .acquireSend { s with sender := s.sender.acquireSend.2 }
  | releaseSend (grants : Grants) (works : ∀ n, (grants n).isSome) (h : BuffHandle)
      (numElemsOrErr flags : Int32) (timeNs : Int64) :
      Step channel s (.releaseSend h)
        { s with
          sender := (s.sender.releaseSend grants h numElemsOrErr flags timeNs).2
          data := s.data ++
            [⟨s.sent, (s.sender.releaseSend grants h numElemsOrErr flags timeNs).1.flatten⟩]
          sent := s.sent + 1 }
  | acquireRecv (packet : Packet) (data : List Packet) (arrivals rest : Arrivals)
      (got : Endpoint.Acquired) (receiver : Endpoint) (takes : channel.Takes s.data packet data)
      (room : s.receiver.ring.full = false)
      (arrives : Arrives s.receiver.config packet.record arrivals)
      (returns : s.receiver.acquireRecv arrivals = some (got, receiver, rest)) :
      Step channel s .acquireRecv
        { s with
          receiver := receiver
          data := data
          acks := s.acks ++ (got.ack.map (⟨packet.index + 1, ·⟩)).toList
          received := packet.index + 1 }
  | releaseRecv (h : BuffHandle) :
      Step channel s .releaseRecv { s with receiver := s.receiver.releaseRecv h }
  | waitRecv :
      Step channel s .waitRecv
        { s with
          receiver := s.receiver.waitRecv.2
          acks := s.acks ++ (s.receiver.waitRecv.1.map (⟨s.received, ·⟩)).toList }

/-- Both endpoints as constructed, with the gratuitous ACK under way. -/
def start (sendConfig recvConfig : EndpointConfig) (actualWindow : Int32) : Flow where
  sender := .makeSend sendConfig
  receiver := (Endpoint.makeRecv recvConfig actualWindow).2
  data := []
  acks := [⟨0, (Endpoint.makeRecv recvConfig actualWindow).1⟩]
  sent := 0
  received := 0
  lastAcked := 0
  acked := 0

def Runs (channel : Channel) (Allowed : Flow → FlowAction → Prop) (Holds : Flow → Prop) :
    Flow → Flow → Prop :=
  Relation.ReflTransGen (fun s s' => ∃ a, Allowed s a ∧ Step channel s a s' ∧ Holds s')

/-- How the callers use the sender: a handle is acquired after `waitSend` has
    returned true, and a handle that is released is one that is held. -/
def SendAfterWait (s : Flow) : FlowAction → Prop
  | .acquireSend => s.sender.waitSend [] = (true, s.sender)
  | .releaseSend h => s.sender.ring.acquired h = true
  | .recvACK | .acquireRecv | .releaseRecv | .waitRecv => True

/-- The records sent beyond what the ACK taken last acknowledges. -/
def outstanding (s : Flow) : Nat := s.sent - s.lastAcked

end Flow

/-- The distance of two sequence counters, as the code computes it. -/
def sequenceGap (a b : UInt64) : Nat := (a - b).toUInt32.toNat

theorem sequenceGap_eq {a b : UInt64} {m n : Nat} (left : a.toNat % 2 ^ 32 = m % 2 ^ 32)
    (right : b.toNat % 2 ^ 32 = n % 2 ^ 32) (order : n ≤ m) :
    sequenceGap a b = (m - n) % 2 ^ 32 := by
  have small := a.toNat_lt
  have small' := b.toNat_lt
  rw [sequenceGap, UInt64.toNat_toUInt32, UInt64.toNat_sub]
  omega

theorem Endpoint.mustWait_eq_false {e : Endpoint} : e.mustWait = false ↔
    e.receiveInitial = true ∧
      sequenceGap e.lastSendSequence e.lastRecvSequence < e.maxInFlightSeqs.toNat := by
  simp only [mustWait, Bool.or_eq_false_iff, Bool.not_eq_false', decide_eq_false_iff_not,
    UInt64.le_iff_toNat_le, not_le, sequenceGap, UInt32.toNat_toUInt64]

namespace Endpoint

variable {e e' : Endpoint}

/-- What receiving a sequence does to the flow control of an endpoint: the ACK is
    sent, or the receiver is within the trigger of the last one. -/
structure Tracked (e : Endpoint) (sequence : UInt32) (ack : Option StreamDatagramHeader)
    (e' : Endpoint) : Prop where
  window : e'.maxInFlightSeqs = e.maxInFlightSeqs
  trigger : e'.triggerAckWindow = e.triggerAckWindow
  recv : e'.lastRecvSequence = (sequence + 1).toUInt64
  acked : (ack = none ∧ e'.lastSendSequence = e.lastSendSequence ∧
      sequenceGap e'.lastRecvSequence e'.lastSendSequence < e.triggerAckWindow.toNat) ∨
    (∃ header, ack = some header ∧ header.sequence = sequence + 1 ∧
      header.elems = e.maxInFlightSeqs.toUInt32 ∧ e'.lastSendSequence = e'.lastRecvSequence)

theorem trackSequence_tracked (e : Endpoint) (sequence : UInt32) :
    e.Tracked sequence (e.trackSequence sequence).1 (e.trackSequence sequence).2 := by
  rw [trackSequence]
  split
  · refine ⟨rfl, rfl, rfl, .inr ⟨_, rfl, ?_, rfl, rfl⟩⟩
    exact UInt32.toUInt32_toUInt64 _
  · rename_i early
    refine ⟨rfl, rfl, rfl, .inl ⟨rfl, rfl, ?_⟩⟩
    simpa only [ackDue, decide_eq_true_eq, UInt64.le_iff_toNat_le, not_le, sequenceGap,
      UInt32.toNat_toUInt64] using early

theorem acquireRecv_tracked {record : Bytes} {arrivals rest : Arrivals} {got : Acquired}
    (room : e.ring.full = false) (arrives : Arrives e.config record arrivals)
    (enough : (StreamDatagramHeader.decode record).bytes.toNat ≤ record.length)
    (returns : e.acquireRecv arrivals = some (got, e', rest)) :
    e.Tracked (StreamDatagramHeader.decode record).sequence got.ack e' := by
  obtain ⟨size, writes, later, header, inside, _, _, known⟩ :=
    acquireRecv_arrives room arrives enough
  rw [known] at returns
  cases returns
  have read : (e.filled e.ring.nextHandleAcquire (record.take size) writes).header
      e.ring.nextHandleAcquire = .decode record :=
    filled_take_header header (le_trans header inside)
  obtain ⟨window, trigger, recv, acked⟩ := trackSequence_tracked
    (e.filled e.ring.nextHandleAcquire (record.take size) writes)
    (StreamDatagramHeader.decode record).sequence
  simp only [accept, read]
  split
  · exact ⟨window, trigger, recv, acked⟩
  · exact ⟨window, trigger, recv, acked⟩

end Endpoint

namespace Flow

/-- The machine counters stand for the true ones, and everything under way was
    sent as it says. -/
structure Inv (window : Nat) (s : Flow) : Prop where
  send : s.sender.lastSendSequence.toNat % 2 ^ 32 = s.sent % 2 ^ 32
  recv : s.receiver.lastRecvSequence.toNat % 2 ^ 32 = s.received % 2 ^ 32
  announced : s.receiver.maxInFlightSeqs.toUInt32.toNat = window
  data : ∀ p ∈ s.data, p.index < s.sent ∧ (streamHeaderSize ≤ p.record.length →
    (StreamDatagramHeader.decode p.record).bytes.toNat ≤ p.record.length ∧
    (StreamDatagramHeader.decode p.record).sequence.toNat = p.index % 2 ^ 32)
  acks : ∀ a ∈ s.acks, a.count ≤ s.sent ∧ a.header.sequence.toNat = a.count % 2 ^ 32 ∧
    a.header.elems.toNat = window
  received : s.received ≤ s.sent
  lastAcked : s.lastAcked ≤ s.acked
  acked : s.acked ≤ s.sent
  sender : s.sender.receiveInitial = true →
    s.sender.lastRecvSequence.toNat = s.lastAcked % 2 ^ 32 ∧
    s.sender.maxInFlightSeqs.toNat = window

def window (recvConfig : EndpointConfig) (actualWindow : Int32) : Nat :=
  (Unpack.toSize actualWindow / recvConfig.mtu).toUInt32.toNat

theorem Inv.start (sendConfig recvConfig : EndpointConfig) (actualWindow : Int32) :
    Inv (window recvConfig actualWindow) (start sendConfig recvConfig actualWindow) where
  send := rfl
  recv := rfl
  announced := rfl
  data p member := by simp [Flow.start] at member
  acks a member := by
    rw [List.mem_singleton.mp member]
    exact ⟨le_refl _, rfl, rfl⟩
  received := le_refl _
  lastAcked := le_refl _
  acked := le_refl _
  sender initial := by simp [Flow.start, Endpoint.makeSend, Endpoint.fresh] at initial

variable {W : Nat} {s s' : Flow} {channel : Channel} {a : FlowAction}

theorem Inv.recvACK (inv : s.Inv W) {ack : Ack} {acks : List Ack}
    (takes : channel.Takes s.acks ack acks) :
    Inv W { s with
      sender := s.sender.recvACK ack.header
      acks := acks
      lastAcked := ack.count
      acked := max s.acked ack.count } := by
  obtain ⟨sent, sequence, elems⟩ := inv.acks ack takes.mem
  exact
    { inv with
      acks := fun a member => inv.acks a (takes.subset member)
      lastAcked := le_max_right ..
      acked := max_le inv.acked sent
      sender := fun _ => ⟨by rw [← sequence]; exact UInt32.toNat_toUInt64 _,
        by rw [← elems]; exact UInt32.toNat_toUInt64 _⟩ }

theorem Inv.acquireSend (inv : s.Inv W) : Inv W { s with sender := s.sender.acquireSend.2 } := by
  rw [Endpoint.acquireSend]
  split
  · exact inv
  · exact { inv with }

theorem Inv.releaseSend (inv : s.Inv W) {grants : Grants} (works : ∀ n, (grants n).isSome)
    (h : BuffHandle) (numElemsOrErr flags : Int32) (timeNs : Int64) :
    Inv W { s with
      sender := (s.sender.releaseSend grants h numElemsOrErr flags timeNs).2
      data := s.data ++
        [⟨s.sent, (s.sender.releaseSend grants h numElemsOrErr flags timeNs).1.flatten⟩]
      sent := s.sent + 1 } := by
  have next : (s.sender.lastSendSequence + 1).toNat % 2 ^ 32 = (s.sent + 1) % 2 ^ 32 := by
    have before := inv.send
    rw [UInt64.toNat_add, UInt64.toNat_one]
    omega
  have new : streamHeaderSize ≤
        (s.sender.releaseSend grants h numElemsOrErr flags timeNs).1.flatten.length →
      (StreamDatagramHeader.decode
        (s.sender.releaseSend grants h numElemsOrErr flags timeNs).1.flatten).bytes.toNat ≤
        (s.sender.releaseSend grants h numElemsOrErr flags timeNs).1.flatten.length ∧
      (StreamDatagramHeader.decode
        (s.sender.releaseSend grants h numElemsOrErr flags timeNs).1.flatten).sequence.toNat =
        s.sent % 2 ^ 32 := by
    intro whole
    rw [Endpoint.releaseSend_length works] at whole ⊢
    rw [Endpoint.releaseSend_header works _ _ _ whole, ← inv.send]
    exact ⟨Endpoint.sendHeader_bytes_le .., UInt64.toNat_toUInt32 _⟩
  exact
    { inv with
      send := next
      data := fun p member => by
        rcases List.mem_append.mp member with old | last
        · obtain ⟨before, holds⟩ := inv.data p old
          exact ⟨Nat.lt_succ_of_lt before, holds⟩
        · rw [List.mem_singleton.mp last]
          exact ⟨Nat.lt_succ_self _, new⟩
      acks := fun a member => by
        obtain ⟨before, holds⟩ := inv.acks a member
        exact ⟨Nat.le_succ_of_le before, holds⟩
      received := Nat.le_succ_of_le inv.received
      acked := Nat.le_succ_of_le inv.acked }

theorem sequence_succ {sequence : UInt32} {n : Nat} (image : sequence.toNat = n % 2 ^ 32) :
    (sequence + 1).toNat = (n + 1) % 2 ^ 32 := by
  rw [UInt32.toNat_add, UInt32.toNat_one, image]
  omega

theorem Inv.acquireRecv (inv : s.Inv W) {packet : Packet} {data : List Packet}
    {arrivals rest : Arrivals} {got : Endpoint.Acquired} {receiver : Endpoint}
    (takes : channel.Takes s.data packet data) (room : s.receiver.ring.full = false)
    (arrives : Arrives s.receiver.config packet.record arrivals)
    (returns : s.receiver.acquireRecv arrivals = some (got, receiver, rest)) :
    Inv W { s with
      receiver := receiver
      data := data
      acks := s.acks ++ (got.ack.map (⟨packet.index + 1, ·⟩)).toList
      received := packet.index + 1 } := by
  obtain ⟨before, holds⟩ := inv.data packet takes.mem
  obtain ⟨enough, image⟩ := holds arrives.1
  have tracked := Endpoint.acquireRecv_tracked room arrives enough returns
  have next := sequence_succ image
  exact
    { inv with
      recv := by rw [tracked.recv, UInt32.toNat_toUInt64, next, Nat.mod_mod]
      announced := by rw [tracked.window]; exact inv.announced
      data := fun p member => inv.data p (takes.subset member)
      acks := fun a member => by
        rcases List.mem_append.mp member with old | new
        · exact inv.acks a old
        · rw [Option.mem_toList, Option.map_eq_some_iff] at new
          obtain ⟨header, sends, rfl⟩ := new
          rcases tracked.acked with ⟨silent, _⟩ | ⟨header', sends', sequence, elems, _⟩
          · rw [silent] at sends
            cases sends
          · rw [sends'] at sends
            cases sends
            exact ⟨before, by rw [sequence, next], by rw [elems]; exact inv.announced⟩
      received := before }

theorem Inv.waitRecv (inv : s.Inv W) : Inv W { s with
      receiver := s.receiver.waitRecv.2
      acks := s.acks ++ (s.receiver.waitRecv.1.map (⟨s.received, ·⟩)).toList } := by
  rw [Endpoint.waitRecv]
  split
  · exact { inv with acks := by simpa using inv.acks }
  · have sequence : s.receiver.sendACK.1.sequence.toNat = s.received % 2 ^ 32 := by
      rw [← inv.recv]
      exact UInt64.toNat_toUInt32 _
    exact
      { inv with
        acks := fun a member => by
          rcases List.mem_append.mp member with old | new
          · exact inv.acks a old
          · rw [List.mem_singleton.mp new]
            exact ⟨inv.received, sequence, inv.announced⟩ }

theorem Inv.step (inv : s.Inv W) (step : Step channel s a s') : s'.Inv W := by
  cases step with
  | recvACK ack acks takes => exact inv.recvACK takes
  | acquireSend => exact inv.acquireSend
  | releaseSend grants works h numElemsOrErr flags timeNs =>
    exact inv.releaseSend works h numElemsOrErr flags timeNs
  | acquireRecv packet data arrivals rest got receiver takes room arrives returns =>
    exact inv.acquireRecv takes room arrives returns
  | releaseRecv h => exact { inv with }
  | waitRecv => exact inv.waitRecv

theorem Inv.runs {Allowed : Flow → FlowAction → Prop} {Holds : Flow → Prop} (inv : s.Inv W)
    (run : Runs channel Allowed Holds s s') : s'.Inv W := by
  induction run with
  | refl => exact inv
  | tail _ step ih =>
    obtain ⟨a, _, step, _⟩ := step
    exact ih.step step

/-- Where `waitSend` returns true, fewer records than the window are beyond the
    last ACK, unless the sequence has gone round since. -/
theorem Inv.sent_lt (inv : s.Inv W) (near : s.outstanding < 2 ^ 32)
    (returned : s.sender.waitSend [] = (true, s.sender)) : s.sent < s.acked + W := by
  have free : s.sender.mustWait = false := by
    simpa [Endpoint.waitSend] using congrArg Prod.fst returned
  obtain ⟨initial, within⟩ := Endpoint.mustWait_eq_false.mp free
  obtain ⟨sequence, announced⟩ := inv.sender initial
  have order : s.lastAcked ≤ s.sent := le_trans inv.lastAcked inv.acked
  have last := inv.lastAcked
  unfold outstanding at near
  rw [sequenceGap_eq inv.send (by rw [sequence, Nat.mod_mod]) order,
    Nat.mod_eq_of_lt near, announced] at within
  omega

/-- The records beyond the highest ACK, and those the held handles can still send. -/
def Bounded (window most : Nat) (s : Flow) : Prop :=
  s.sent + s.sender.ring.held + 1 ≤ s.acked + window + most

theorem Bounded.step {most : Nat} (inv : s.Inv W) (bounded : s.Bounded W most)
    (near : s.outstanding < 2 ^ 32) (allowed : s.SendAfterWait a) (step : Step channel s a s')
    (few : s'.sender.ring.held ≤ most) : s'.Bounded W most := by
  unfold Bounded at bounded ⊢
  cases step with
  | recvACK ack acks takes =>
    have more : s.acked ≤ max s.acked ack.count := le_max_left ..
    simp only [Endpoint.recvACK]
    omega
  | acquireSend =>
    have room := inv.sent_lt near allowed
    simp only at few ⊢
    omega
  | releaseSend grants works h numElemsOrErr flags timeNs =>
    have fewer : (s.sender.ring.release h).held + 1 = s.sender.ring.held :=
      HandleRing.held_release allowed
    simp only [Endpoint.releaseSend]
    omega
  | acquireRecv | releaseRecv | waitRecv => exact bounded

theorem Bounded.runs (most : Nat) {Holds : Flow → Prop}
    (near : ∀ t, Holds t → t.outstanding < 2 ^ 32) (few : ∀ t, Holds t → t.sender.ring.held ≤ most)
    (inv : s.Inv W) (bounded : s.Bounded W most) (holds : s.outstanding < 2 ^ 32)
    (run : Runs channel SendAfterWait Holds s s') : s'.Bounded W most := by
  have both : s'.Bounded W most ∧ s'.outstanding < 2 ^ 32 := by
    induction run with
    | refl => exact ⟨bounded, holds⟩
    | tail before step ih =>
      obtain ⟨a, allowed, step, good⟩ := step
      exact ⟨ih.1.step (inv.runs before) ih.2 allowed step (few _ good), near _ good⟩
  exact both.1

end Flow

/-- However the channel delays, loses, repeats or reorders, the sender is never more than the window
    and seven handles ahead of the highest ACK it has taken, and never more than the window with one
    handle at a time. -/
theorem flow_window (sendConfig recvConfig : EndpointConfig) (actualWindow : Int32) (s : Flow) :
    (Flow.Runs .lossy Flow.SendAfterWait
        (fun t => t.outstanding + Flow.window recvConfig actualWindow + 8 < 2 ^ 32)
        (Flow.start sendConfig recvConfig actualWindow) s →
      s.acked ≤ s.sent ∧ s.sent - s.acked ≤ Flow.window recvConfig actualWindow + 7) ∧
    (Flow.Runs .lossy Flow.SendAfterWait
        (fun t => t.outstanding + Flow.window recvConfig actualWindow + 8 < 2 ^ 32 ∧
          t.sender.ring.held ≤ 1)
        (Flow.start sendConfig recvConfig actualWindow) s →
      s.acked ≤ s.sent ∧ s.sent - s.acked ≤ Flow.window recvConfig actualWindow) := by
  have inv := Flow.Inv.start sendConfig recvConfig actualWindow
  have none : (Flow.start sendConfig recvConfig actualWindow).sender.ring.held = 0 := rfl
  have near : (Flow.start sendConfig recvConfig actualWindow).outstanding < 2 ^ 32 :=
    Nat.two_pow_pos 32
  have bounded (most : Nat) (some_ : 1 ≤ most) :
      (Flow.start sendConfig recvConfig actualWindow).Bounded
        (Flow.window recvConfig actualWindow) most := by
    unfold Flow.Bounded
    rw [none]
    simp only [Flow.start]
    omega
  constructor
  · intro run
    have bound := Flow.Bounded.runs numBuffs (fun t near => by omega)
      (fun t _ => HandleRing.held_le _) inv (bounded _ (by decide)) near run
    have order := (inv.runs run).acked
    simp only [Flow.Bounded, numBuffs] at bound
    omega
  · intro run
    have bound := Flow.Bounded.runs 1 (fun t near => by omega) (fun t one => one.2)
      inv (bounded _ (le_refl _)) near run
    have order := (inv.runs run).acked
    simp only [Flow.Bounded] at bound
    omega

section Example

/-- One channel of four-byte elements, 1500 bytes a datagram. -/
def mtu1500 : EndpointConfig := ⟨true, 1, 4, 1500⟩

def oneSent : Flow :=
  let s := Flow.start mtu1500 mtu1500 65536
  let acked := { s with
    sender := s.sender.recvACK (Endpoint.makeRecv mtu1500 65536).1
    lastAcked := 0
    acked := max 0 0 }
  let acquired := { acked with sender := acked.sender.acquireSend.2 }
  { acquired with
    sender := (acquired.sender.releaseSend some 0 10 0 0).2
    data := acquired.data ++ [⟨0, (acquired.sender.releaseSend some 0 10 0 0).1.flatten⟩]
    sent := 1 }

theorem oneSent_runs : Flow.Runs .lossy Flow.SendAfterWait
    (fun t => t.outstanding + Flow.window mtu1500 65536 + 8 < 2 ^ 32)
    (Flow.start mtu1500 mtu1500 65536) oneSent := by
  refine .tail (.tail (.tail .refl
    ⟨.recvACK, trivial, .recvACK _ _ ⟨List.mem_singleton.mpr rfl, rfl⟩, ?_⟩)
    ⟨_, ?_, .acquireSend, ?_⟩) ⟨_, ?_, .releaseSend some (fun _ => rfl) 0 10 0 0, ?_⟩
  · decide
  · exact congrArg (·, _) (by decide)
  · decide
  · rfl
  · decide

theorem flow_window_oneSent : oneSent.sent - oneSent.acked ≤ Flow.window mtu1500 65536 + 7 :=
  ((flow_window mtu1500 mtu1500 65536 oneSent).1 oneSent_runs).2

end Example

end Soapy.Remote
