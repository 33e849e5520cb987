import Soapy.Lime.StreamerSizes
import Soapy.Lime.TransmitVisits

/-! # The transmit loop conserves samples

Runs convey all that was popped as long as the packets of each round agree. With one
transmit channel they always do.
-/

namespace Soapy.Lime

open Lib StreamDataFormat

namespace Streamer

end Streamer

namespace TransmitLoop

variable {t : TxSetup} {B : Fin 2 → Nat} {s s' : TransmitLoop t B} {ch : Fin 2}
  {v : Visit t.maxSamplesBatch}
  {uninitialised : Fin 2 → Buffer Complex16 t.maxSamplesBatch}

theorem Visited.formed (visited : s.Visited ch v s') : s'.formed = s.formed := by
  rw [TransmitLoop.formed, TransmitLoop.formed, visited.transfer, visited.sent]

theorem form_formed (s : TransmitLoop t B) : s.form.formed = s.formed ++ [s.made] :=
  (List.append_assoc ..).symm

theorem send_formed (s : TransmitLoop t B) : s.send.formed = s.formed := by
  by_cases empty : s.transfer.pkt.length = 0
  · have sent : s.send.sent = s.sent := if_pos empty
    rw [formed, formed, sent, List.eq_nil_of_length_eq_zero empty]
    rfl
  · have sent : s.send.sent = s.sent ++ [s.transfer] := if_neg empty
    rw [formed, formed, sent]
    simp [send, TxTransfer.empty]

structure Inv (uninitialised : Fin 2 → Buffer Complex16 t.maxSamplesBatch)
    (s : TransmitLoop t B) [∀ ch, NeZero (B ch)] : Prop where
  supplied : ∀ ch, (s.fifo ch).Supplied
  seen : s.Seen
  between : s.filling = false → s.visits = []
  whole : ∀ p ∈ s.formed, p.data.length = dataSize
  contract : s.Contract uninitialised

variable [∀ ch, NeZero (B ch)]

theorem Inv.start (f : (ch : Fin 2) → RingFIFO Complex16 t.maxSamplesBatch (B ch))
    (uninitialised : Fin 2 → Buffer Complex16 t.maxSamplesBatch) :
    (start (fun ch => (f ch).clear) uninitialised).Inv uninitialised where
  supplied ch := .clear (f ch) (maxSamplesBatch_pos t)
  seen := .nothing rfl rfl rfl
  between filling := by cases filling
  whole p member := by cases member
  contract :=
    { rounds := ⟨[], .nil, fun _ => rfl⟩
      sizes := fun p member => by cases member
      sent := fun transfer member => by cases member
      current := .empty }

theorem setFifo_supplied {f : RingFIFO Complex16 t.maxSamplesBatch (B ch)} (supplied : f.Supplied)
    (all : ∀ ch, (s.fifo ch).Supplied) (ch' : Fin 2) : ((s.setFifo ch f).fifo ch').Supplied := by
  change (Function.update s.fifo ch f ch').Supplied
  by_cases here : ch' = ch
  · subst here
    rw [Function.update_self]
    exact supplied
  · rw [Function.update_of_ne here]
    exact all ch'

omit [∀ ch, NeZero (B ch)] in
theorem account_fifo (s : TransmitLoop t B) (ind : Fin 2) : (s.account ind).fifo = s.fifo := by
  simp only [account]
  split
  · rfl
  · split
    · rfl
    · rfl

theorem Inv.setFifo (inv : s.Inv uninitialised) {f : RingFIFO Complex16 t.maxSamplesBatch (B ch)}
    (supplied : f.Supplied) : (s.setFifo ch f).Inv uninitialised := by
  refine ⟨setFifo_supplied supplied inv.supplied, ?_, inv.between, inv.whole, ?_⟩
  · exact ⟨inv.seen.complete, inv.seen.has_samples, inv.seen.payloadSize, inv.seen.size,
      inv.seen.left⟩
  · exact ⟨inv.contract.rounds, inv.contract.sizes, inv.contract.sent, inv.contract.current⟩

theorem Inv.visited (inv : s.Inv uninitialised) (visited : s.Visited ch v s') (comes : s.Comes ch)
    (supplied : ∀ ch, (s'.fifo ch).Supplied) :
    s'.Inv uninitialised := by
  have formed := visited.formed
  have contract := inv.contract
  refine ⟨supplied, inv.seen.visited visited comes.next, ?_, ?_, ?_⟩
  · intro ended
    rw [visited.filling, comes.filling] at ended
    cases ended
  · rw [formed]
    exact inv.whole
  · constructor
    · obtain ⟨rounds, conveyed, accounted⟩ := contract.rounds
      rw [formed]
      refine ⟨rounds, conveyed, ?_⟩
      intro ch'
      rw [visited.popped, accounted, visited.round comes.next]
      by_cases here : ch' = ch
      · subst here
        rw [if_pos rfl, if_pos rfl, round_none comes.next]
        simp
      · rw [if_neg here, if_neg here, List.append_nil]
    · rw [formed]
      exact contract.sizes
    · rw [visited.sent]
      exact contract.sent
    · rw [visited.transfer]
      exact contract.current

theorem Inv.form (inv : s.Inv uninitialised) (agreed : s.Agreed uninitialised) :
    s.form.Inv uninitialised := by
  have formed := form_formed s
  have size := inv.seen.made_payloadSize
  refine ⟨inv.supplied, .nothing rfl rfl rfl, fun _ => rfl, ?_, ?_⟩
  · rw [formed]
    intro p member
    cases List.mem_append.mp member with
    | inl old => exact inv.whole p old
    | inr last =>
      rw [List.mem_singleton.mp last]
      exact made_length s
  · constructor
    · obtain ⟨rounds, conveyed, accounted⟩ := inv.contract.rounds
      rw [formed]
      refine ⟨rounds ++ [s.round], ?_, ?_⟩
      · exact List.rel_append conveyed (.cons (inv.seen.made_conveys agreed) .nil)
      · intro ch
        have here : s.form.popped ch = s.popped ch := rfl
        have none : s.form.round ch = none := rfl
        rw [here, none, accounted, List.filterMap_append]
        cases popped : s.round ch with
        | none => simp [popped]
        | some packet => simp [popped]
    · rw [formed]
      intro p member
      cases List.mem_append.mp member with
      | inl old => exact inv.contract.sizes p old
      | inr last =>
        rw [List.mem_singleton.mp last, size]
        exact inv.seen.size
    · exact inv.contract.sent
    · have full : ∀ p ∈ s.transfer.pkt, p.payloadSize = p.data.length := by
        intro p member
        rw [agreed.full p member]
        exact (inv.whole p (List.mem_append_right _ member)).symm
      have added := inv.contract.current.add full s.made
      rw [TxTransfer.add, size] at added
      exact added

theorem Inv.send (inv : s.Inv uninitialised)
    (ended : s.filling = true → s.visits.length = 2 ∧ s.has_samples = false) :
    s.send.Inv uninitialised := by
  have formed := send_formed s
  have nothing : ∀ ch, s.round ch = none := by
    intro ch
    cases filling : s.filling with
    | false =>
      rw [round, inv.between filling]
      rfl
    | true =>
      by_contra popped
      have has := inv.seen.has_samples.mpr ⟨ch, Option.isSome_iff_ne_none.mpr popped⟩
      rw [(ended filling).2] at has
      cases has
  refine ⟨inv.supplied, .nothing rfl rfl rfl, fun _ => rfl, ?_, ?_⟩
  · rw [formed]
    exact inv.whole
  · constructor
    · obtain ⟨rounds, conveyed, accounted⟩ := inv.contract.rounds
      rw [formed]
      refine ⟨rounds, conveyed, ?_⟩
      intro ch
      have here : s.send.popped ch = s.popped ch := rfl
      have none : s.send.round ch = none := rfl
      rw [here, none, accounted, nothing]
    · rw [formed]
      exact inv.contract.sizes
    · intro transfer member
      by_cases empty : s.transfer.pkt.length = 0
      · have sent : s.send.sent = s.sent := if_pos empty
        rw [sent] at member
        exact inv.contract.sent transfer member
      · have sent : s.send.sent = s.sent ++ [s.transfer] := if_neg empty
        rw [sent] at member
        cases List.mem_append.mp member with
        | inl old => exact inv.contract.sent transfer old
        | inr last =>
          rw [List.mem_singleton.mp last]
          exact inv.contract.current
    · exact .empty

theorem Inv.step {a : Action} (inv : s.Inv uninitialised) (allowed : s.Allowed uninitialised a)
    (step : Step s a s') : s'.Inv uninitialised := by
  cases step with
  | write ch call n m f count more room turn =>
    exact inv.setFifo ((inv.supplied ch).pushTurn count more room turn)
  | clear ch => exact inv.setFifo (.clear _ (maxSamplesBatch_pos t))
  | unused ch comes => exact inv.visited (visited_unused s ch) comes inv.supplied
  | inactive ch comes => exact inv.visited (visited_silence s ch) comes inv.supplied
  | take ch comes filled =>
    obtain ⟨rest, complete⟩ := (inv.supplied ch).popPacket filled (s.packets (t.ind ch))
    apply inv.visited (visited_take complete) comes
    rw [take, account_fifo]
    exact setFifo_supplied rest inv.supplied
  | timeout ch comes =>
    apply inv.visited (visited_expire s ch) comes
    rw [expire, account_fifo]
    exact setFifo_supplied ((inv.supplied ch).popNothing _) inv.supplied
  | form => exact inv.form allowed
  | send ended => exact inv.send ended

omit [∀ ch, NeZero (B ch)]

/-- No channel but this one is used for transmission. -/
def Only (only : Fin 2) (s : TransmitLoop t B) : Action → Prop
  | .inactive | .take | .timeout => s.visits.length = only
  | .write _ | .clear _ | .unused | .form | .send => True

structure Solo (only : Fin 2) (s : TransmitLoop t B) : Prop where
  others : ∀ ch : Fin 2, ch ≠ only → ∀ v, s.visits[ch.val]? = some v → v = .unused
  header : ∀ packet, s.round only = some packet →
    (s.packets 0).timestamp = packet.timestamp ∧ (s.packets 0).flags = packet.flags
  room : ∀ packet, s.round only = some packet →
    packet.last * (t.chCount * t.width) ≤ s.payloadSize
  burst : s.payloadSize = dataSize ∨
    ∃ packet, s.round only = some packet ∧ packet.flags &&& END_BURST ≠ 0
  full : s.filling = true → ∀ p ∈ s.transfer.pkt, p.payloadSize = dataSize

variable {only : Fin 2}

theorem Solo.nothing (visits : s.visits = []) (payloadSize : s.payloadSize = dataSize)
    (full : s.filling = true → ∀ p ∈ s.transfer.pkt, p.payloadSize = dataSize) : s.Solo only where
  others ch _ v found := by simp [visits] at found
  header packet popped := by simp [round, visits] at popped
  room packet popped := by simp [round, visits] at popped
  burst := .inl payloadSize
  full := full

theorem room_after {p : SamplesPacket Complex16 t.maxSamplesBatch} (complete : p.Complete) :
    p.last * (t.chCount * t.width) ≤ t.sizeAfter dataSize (.popped p) := by
  simp only [TxSetup.sizeAfter]
  by_cases full : p.last = t.maxSamplesBatch
  · rw [if_pos full, full, TxSetup.frame_room]
  · rw [if_neg full]
    exact (TxSetup.shortPayload_spec complete.some complete.most).1

theorem Solo.fresh (solo : s.Solo only) (next : s.visits.length = only) :
    s.payloadSize = dataSize := by
  cases solo.burst with
  | inl full => exact full
  | inr short =>
    obtain ⟨packet, popped, _⟩ := short
    rw [round_none next] at popped
    cases popped

theorem Solo.visited (solo : s.Solo only) (mimo : t.mimo = false) (visited : s.Visited ch v s')
    (next : s.visits.length = ch) (alone : ch = only ∨ v = .unused) : s'.Solo only := by
  have round := visited.round next only
  have place : t.ind ch = 0 := by rw [TxSetup.ind, mimo]; rfl
  constructor
  · intro ch' other w found
    rw [visited.visits, visits_snoc next] at found
    by_cases here : ch' = ch
    · rw [if_pos here] at found
      cases found
      exact alone.resolve_left fun same => other (here.trans same)
    · rw [if_neg here] at found
      exact solo.others ch' other w found
  · intro packet popped
    rw [round] at popped
    by_cases here : only = ch
    · rw [if_pos here] at popped
      rw [← place]
      exact visited.header packet popped
    · rw [if_neg here] at popped
      rw [visited.idle (alone.resolve_left fun same => here same.symm)]
      exact solo.header packet popped
  · intro packet popped
    rw [round] at popped
    rw [visited.payloadSize]
    by_cases here : only = ch
    · rw [if_pos here] at popped
      cases v with
      | unused | inactive | timeout => cases popped
      | popped p =>
        cases popped
        rw [solo.fresh (here ▸ next)]
        exact room_after (visited.complete packet rfl)
    · rw [if_neg here] at popped
      rw [alone.resolve_left fun same => here same.symm]
      exact solo.room packet popped
  · rw [visited.payloadSize, round]
    by_cases here : only = ch
    · rw [if_pos here, solo.fresh (here ▸ next)]
      cases v with
      | unused | inactive | timeout => exact .inl rfl
      | popped p =>
        by_cases full : p.last = t.maxSamplesBatch
        · exact .inl (if_pos full)
        · exact .inr ⟨p, rfl, (visited.complete p rfl).complete.resolve_left full⟩
    · rw [if_neg here, alone.resolve_left fun same => here same.symm]
      exact solo.burst
  · rw [visited.filling, visited.transfer]
    exact solo.full

theorem Solo.form (solo : s.Solo only) (seen : s.Seen) (filling : s.filling = true) :
    s.form.Solo only := by
  apply Solo.nothing rfl rfl
  intro goesOn p member
  cases List.mem_append.mp member with
  | inl old => exact solo.full filling p old
  | inr last =>
    rw [List.mem_singleton.mp last, seen.made_payloadSize]
    cases solo.burst with
    | inl full => exact full
    | inr short =>
      obtain ⟨packet, popped, burst⟩ := short
      rw [← (solo.header packet popped).2] at burst
      simp [TransmitLoop.form, burst] at goesOn

theorem Solo.agreed (solo : s.Solo only) (seen : s.Seen) (mimo : t.mimo = false)
    (filling : s.filling = true) (has_samples : s.has_samples = true) :
    s.Agreed uninitialised := by
  have here : ∀ ch packet, s.round ch = some packet → ch = only := by
    intro ch packet popped
    by_contra other
    cases solo.others ch other _ (round_some popped)
  constructor
  · intro ch packet popped ch' w later _ found
    have only := here ch packet popped
    subst only
    rw [solo.others ch' (ne_of_gt later) w found]
    trivial
  · intro place inside quiet
    obtain ⟨ch, popped⟩ := seen.has_samples.mp has_samples
    obtain ⟨packet, popped⟩ := Option.isSome_iff_exists.mp popped
    have first : t.ind ch = place := by
      rw [TxSetup.chCount, mimo] at inside
      rw [TxSetup.ind, mimo]
      exact Fin.ext (Nat.lt_one_iff.mp inside).symm
    exact (quiet ch _ first (round_some popped)).elim
  · intro ch packet popped
    have only := here ch packet popped
    subst only
    exact (solo.header packet popped).1.symm
  · intro ch packet popped
    have only := here ch packet popped
    subst only
    rw [(solo.header packet popped).2]
  · intro ch packet popped
    have only := here ch packet popped
    subst only
    rw [← seen.payloadSize]
    exact solo.room packet popped
  · exact solo.full filling

variable [∀ ch, NeZero (B ch)]

theorem Solo.step {a : Action} (solo : s.Solo only) (inv : s.Inv uninitialised)
    (mimo : t.mimo = false) (alone : s.Only only a) (step : Step s a s') : s'.Solo only := by
  cases step with
  | write ch call n m f count more room turn =>
    exact ⟨solo.others, solo.header, solo.room, solo.burst, solo.full⟩
  | clear ch => exact ⟨solo.others, solo.header, solo.room, solo.burst, solo.full⟩
  | unused ch comes => exact solo.visited mimo (visited_unused s ch) comes.next (.inr rfl)
  | inactive ch comes =>
    have here : ch = only := Fin.ext (comes.next.symm.trans alone)
    exact solo.visited mimo (visited_silence s ch) comes.next (.inl here)
  | take ch comes filled =>
    have here : ch = only := Fin.ext (comes.next.symm.trans alone)
    have complete := ((inv.supplied ch).popPacket filled (s.packets (t.ind ch))).2
    exact solo.visited mimo (visited_take complete) comes.next (.inl here)
  | timeout ch comes =>
    have here : ch = only := Fin.ext (comes.next.symm.trans alone)
    exact solo.visited mimo (visited_expire s ch) comes.next (.inl here)
  | form filling => exact solo.form inv.seen filling
  | send => exact .nothing rfl rfl fun _ p member => by cases member

theorem Solo.allowed {a : Action} (solo : s.Solo only) (inv : s.Inv uninitialised)
    (mimo : t.mimo = false) (step : Step s a s') : s.Allowed uninitialised a := by
  cases step with
  | form filling _ some => exact solo.agreed inv.seen mimo filling some
  | write | clear | unused | inactive | take | timeout | send => trivial

theorem solo_allowed (mimo : t.mimo = false)
    {f : (ch : Fin 2) → RingFIFO Complex16 t.maxSamplesBatch (B ch)}
    (run : Runs Step (Only only) (TransmitLoop.start (fun ch => (f ch).clear) uninitialised) s) :
    Runs Step (Allowed uninitialised) (TransmitLoop.start (fun ch => (f ch).clear) uninitialised) s ∧
      s.Inv uninitialised ∧ s.Solo only := by
  induction run with
  | refl =>
    exact ⟨.refl, .start f uninitialised, .nothing rfl rfl fun _ p member => by cases member⟩
  | tail _ last ih =>
    obtain ⟨a, alone, step⟩ := last
    obtain ⟨before, inv, solo⟩ := ih
    have allowed := solo.allowed inv mimo step
    exact ⟨before.tail step allowed, inv.step allowed step, solo.step inv mimo alone step⟩

end TransmitLoop

open TransmitLoop in
/-- For every run in which the packets of a round agree whenever a packet is made of them. -/
theorem transmit_conserves {t : TxSetup} {B : Fin 2 → Nat} [∀ ch, NeZero (B ch)]
    (f : (ch : Fin 2) → RingFIFO Complex16 t.maxSamplesBatch (B ch))
    (uninitialised : Fin 2 → Buffer Complex16 t.maxSamplesBatch) {s : TransmitLoop t B}
    (run : Runs Step (Allowed uninitialised) (start (fun ch => (f ch).clear) uninitialised) s) :
    s.Contract uninitialised :=
  (run.keeps (fun _ _ _ (inv : Inv uninitialised _) allowed step => inv.step allowed step)
    (Inv.start f uninitialised)).contract

namespace TransmitLoop

def ring (P : Nat) : RingFIFO Complex16 P 1 where
  mBuffer := fun _ => ⟨0, 0, 0, fun _ => .zero⟩
  mHead := 0
  mTail := 0
  mFirst := 0
  mLast := 0
  mElementsFilled := 0
  mOverflow := 0
  mUnderflow := 0

def pulse : Samples Complex16 := ⟨[⟨7, 9⟩], 5, END_BURST⟩

def pulsePacket (P : Nat) : SamplesPacket Complex16 P := (ring P).clear.extend pulse 0 1

def pulseRing (P : Nat) : RingFIFO Complex16 P 1 := ((ring P).clear.withTail (pulsePacket P)).close

theorem pulse_pushed {P : Nat} (positive : 0 < P) :
    (ring P).clear.pushTurn pulse 0 = some (pulseRing P, 1) := by
  have one : toInt32 ((pulse.buffer.length : Int) - (0 : Nat)) = 1 := by decide
  have single : pulse.buffer.length = 1 := rfl
  have empty : (ring P).clear.mLast = 0 := rfl
  have fits : ¬ (ring P).clear.exceeds pulse 0 := by
    rw [RingFIFO.exceeds_def, one]
    omega
  have length : (ring P).clear.pieceLength pulse 0 = (1 : Nat) := by
    rw [RingFIFO.pieceLength, if_neg fits]
    exact one
  have bounds : ¬ (((1 : Nat) : Int) < 0 ∨ (P : Int) < (ring P).clear.mLast + (1 : Nat) ∨
      (pulse.buffer.length : Int) < (0 : Nat) + (1 : Nat)) := by
    omega
  have burst : ((ring P).clear.extend pulse 0 1).last = P ∨
      ((ring P).clear.extend pulse 0 1).flags &&& END_BURST ≠ 0 := by
    right
    simp only [RingFIFO.extend, if_neg fits]
    decide
  simp only [RingFIFO.pushTurn, length, if_neg bounds, Int.toNat_natCast, if_pos burst, pulseRing,
    pulsePacket]

theorem pulseRing_supplied {P : Nat} (positive : 0 < P) : (pulseRing P).Supplied :=
  (RingFIFO.Supplied.clear (ring P) positive).pushTurn (by decide) (by decide) Nat.one_pos
    (pulse_pushed positive)

variable (t : TxSetup)

def fresh : TransmitLoop t fun _ => 1 :=
  start (fun _ => (ring t.maxSamplesBatch).clear) fun _ _ => .zero

/-- A pulse has been written to the channel. -/
def pulsed (ch : Fin 2) : TransmitLoop t fun _ => 1 :=
  (fresh t).setFifo ch (pulseRing t.maxSamplesBatch)

theorem pulsed_step (ch : Fin 2) : Step (fresh t) (.write ch) (pulsed t ch) :=
  @Step.write t (fun _ => 1) _ (fresh t) ch pulse 0 1 (pulseRing t.maxSamplesBatch) (by decide)
    (by decide) Nat.one_pos (pulse_pushed (maxSamplesBatch_pos t))

variable {t}

theorem pulse_head {s : TransmitLoop t fun _ => 1} {ch : Fin 2}
    (stored : s.fifo ch = pulseRing t.maxSamplesBatch) :
    0 < (s.fifo ch).mElementsFilled ∧ s.head ch = pulsePacket t.maxSamplesBatch ∧
      (s.head ch).Complete := by
  have supplied := pulseRing_supplied (maxSamplesBatch_pos t)
  have filled : 0 < (pulseRing t.maxSamplesBatch).mElementsFilled := Nat.one_pos
  rw [head, stored]
  exact ⟨filled, rfl, (supplied.popPacket filled _).2⟩

theorem transmit_conserves_pulse : ∃ s : TransmitLoop ⟨false, false, 1⟩ fun _ => 1,
    s.formed.length = 1 ∧ (s.popped 0).length = 1 ∧ s.Contract fun _ _ => .zero := by
  have stored : (pulsed ⟨false, false, 1⟩ 0).fifo 0 = pulseRing _ := rfl
  obtain ⟨filled, _, complete⟩ := pulse_head stored
  have visited := visited_take complete
  have goesOn := visited.filling
  have has := visited.has_samples.trans (Bool.or_true _)
  have run : Runs Step (Only 0) (fresh ⟨false, false, 1⟩)
      ((((pulsed ⟨false, false, 1⟩ 0).take 0).visit .unused).form) :=
    (((Runs.refl.tail (pulsed_step _ 0) trivial).tail (.take 0 ⟨rfl, rfl⟩ filled)
      rfl).tail (.unused 1 ⟨goesOn, congrArg List.length visited.visits⟩) trivial).tail
      (.form goesOn (by simp [visit, visited.visits]; rfl) has) trivial
  refine ⟨_, ?_, ?_, transmit_conserves _ _ (solo_allowed rfl run).1⟩
  · have transfer : (((pulsed ⟨false, false, 1⟩ 0).take 0).visit .unused).transfer = .empty :=
      visited.transfer
    have sent : (((pulsed ⟨false, false, 1⟩ 0).take 0).visit .unused).sent = [] := visited.sent
    simp [formed, form, sent, transfer, TxTransfer.empty]
  · exact congrArg List.length (visited.popped 0)

/-- Two transmit channels, in packets that are not compressed. -/
def pair : TxSetup := ⟨false, true, 1⟩

/-- A pulse has been written to each of the two channels. -/
def bothPulsed : TransmitLoop pair fun _ => 1 :=
  (pulsed pair 0).setFifo 1 (pulseRing pair.maxSamplesBatch)

theorem bothPulsed_step : Step (pulsed pair 0) (.write 1) bothPulsed :=
  @Step.write pair (fun _ => 1) _ (pulsed pair 0) 1 pulse 0 1 (pulseRing pair.maxSamplesBatch)
    (by decide) (by decide) Nat.one_pos (pulse_pushed (maxSamplesBatch_pos pair))

def firstSent : TransmitLoop pair fun _ => 1 := ((bothPulsed.take 0).silence 1).form.send

/-- Channel 0 has nothing, and channel 1 brings its pulse. -/
def second : TransmitLoop pair fun _ => 1 := (firstSent.expire 0).take 1

theorem bothPulsed_fifo : bothPulsed.fifo 0 = pulseRing pair.maxSamplesBatch := rfl

theorem second_fifo : (firstSent.expire 0).fifo 1 = pulseRing pair.maxSamplesBatch := by
  have waited : (firstSent.expire 0).fifo 1 = firstSent.fifo 1 := by
    rw [expire, account_fifo]
    rfl
  have taken : firstSent.fifo 1 = (bothPulsed.take 0).fifo 1 := rfl
  rw [waited, taken, take, account_fifo]
  rfl

theorem bothPulsed_taken : bothPulsed.Visited 0 (.popped (bothPulsed.head 0)) (bothPulsed.take 0) :=
  visited_take (pulse_head bothPulsed_fifo).2.2

theorem second_taken :
    (firstSent.expire 0).Visited 1 (.popped ((firstSent.expire 0).head 1)) second :=
  visited_take (pulse_head second_fifo).2.2

theorem pair_sends {s : TransmitLoop pair fun _ => 1} (run : Runs Step (fun _ _ => True) (fresh pair) s)
    (filling : s.filling = true) (visits : s.visits.length = 2) (some : s.has_samples = true) :
    Runs Step (fun _ _ => True) (fresh pair) s.form.send := by
  apply (run.tail (.form filling visits some) trivial).tail (.send ?_)
  intro goesOn
  simp [form, pair] at goesOn

theorem firstSent_run : Runs Step (fun _ _ => True) (fresh pair) firstSent := by
  have taken := bothPulsed_taken
  have silenced := visited_silence (bothPulsed.take 0) 1
  have visits := congrArg List.length taken.visits
  have start : Runs Step (fun _ _ => True) (fresh pair) (fresh pair) := .refl
  have written := (start.tail (pulsed_step pair 0) trivial).tail bothPulsed_step
  have popped := written.tail (.take 0 ⟨rfl, rfl⟩ (pulse_head bothPulsed_fifo).1)
  have visited := popped.tail (.inactive 1 ⟨taken.filling, visits⟩)
  apply pair_sends visited
  · exact silenced.filling.trans taken.filling
  · rw [silenced.visits, List.length_append, visits]
    rfl
  · rw [silenced.has_samples, taken.has_samples]
    rfl

theorem second_run : Runs Step (fun _ _ => True) (fresh pair) second.form.send := by
  have waited := visited_expire firstSent 0
  have taken := second_taken
  have visits := congrArg List.length waited.visits
  have expired := firstSent_run.tail (.timeout 0 ⟨rfl, rfl⟩)
  have visited : Runs Step (fun _ _ => True) (fresh pair) second :=
    expired.tail (.take 1 ⟨waited.filling, visits⟩ (pulse_head second_fifo).1)
  apply pair_sends visited
  · exact taken.filling.trans waited.filling
  · rw [taken.visits, List.length_append, visits]
    rfl
  · rw [taken.has_samples]
    exact Bool.or_true _

def firstSample : Fin pair.maxSamplesBatch := ⟨0, maxSamplesBatch_pos pair⟩

theorem first_left :
    (((bothPulsed.take 0).silence 1).packets 0).samples firstSample = ⟨7, 9⟩ := by
  have left := bothPulsed_taken.left firstSample
  rw [(pulse_head bothPulsed_fifo).2.1] at left
  rw [(visited_silence (bothPulsed.take 0) 1).others 0 (by decide)]
  exact left

theorem second_left : (second.packets 0).samples firstSample = ⟨7, 9⟩ := by
  have waits := (visited_expire firstSent 0).keeps trivial
  rw [second_taken.others 0 (by decide)]
  exact (congrFun waits firstSample).trans first_left

theorem pulse_conveyed {s : TransmitLoop pair fun _ => 1}
    {round : Fin 2 → Option (SamplesPacket Complex16 pair.maxSamplesBatch)}
    (pulse : (s.packets 0).samples firstSample = ⟨7, 9⟩)
    (conveys : pair.Conveys (fun _ _ => .zero) s.made round) : (round 0).isSome = true := by
  by_contra none
  rw [Bool.not_eq_true, Option.isSome_eq_false_iff, Option.isNone_iff_eq_none] at none
  have other : ∀ ch packet, round ch = some packet → pair.ind ch = 0 → packet.last ≤ firstSample := by
    intro ch packet popped here
    have first : ch = 0 := here
    rw [first, none] at popped
    cases popped
  have silent := conveys.silent 0 (by decide) firstSample other
  rw [made_slot s (by decide), pulse, or_self] at silent
  exact absurd silent (by decide)

/-- The pulse of channel 0 is sent a second time, with that of channel 1. -/
theorem transmit_resends : ∃ s : TransmitLoop pair fun _ => 1,
    Runs Step (fun _ _ => True) (fresh pair) s ∧ ¬ s.Contract fun _ _ => .zero := by
  refine ⟨second.form.send, second_run, ?_⟩
  intro contract
  obtain ⟨rounds, conveyed, accounted⟩ := contract.rounds
  have formed : second.form.send.formed = [((bothPulsed.take 0).silence 1).made, second.made] := by
    have first : firstSent.formed = [] ++ [((bothPulsed.take 0).silence 1).made] := by
      rw [firstSent, send_formed, form_formed, (visited_silence _ 1).formed, bothPulsed_taken.formed]
      rfl
    rw [send_formed, form_formed, second_taken.formed, (visited_expire firstSent 0).formed, first]
    rfl
  have popped : (second.form.send.popped 0).length = 1 := by
    have last : second.popped 0 = (firstSent.expire 0).popped 0 ++ [] := second_taken.popped 0
    have waited : (firstSent.expire 0).popped 0 = firstSent.popped 0 ++ [] :=
      (visited_expire firstSent 0).popped 0
    have first : firstSent.popped 0 = [] ++ [bothPulsed.head 0] := bothPulsed_taken.popped 0
    change (second.popped 0).length = 1
    rw [last, waited, first]
    rfl
  rw [formed] at conveyed
  cases conveyed with
  | cons first rest =>
    cases rest with
    | cons again rest =>
      cases rest
      have once := pulse_conveyed first_left first
      have twice := pulse_conveyed second_left again
      have counted := congrArg List.length (accounted 0)
      rw [popped] at counted
      obtain ⟨p, one⟩ := Option.isSome_iff_exists.mp once
      obtain ⟨p', two⟩ := Option.isSome_iff_exists.mp twice
      simp [one, two] at counted

end TransmitLoop

end Soapy.Lime
