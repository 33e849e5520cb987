import Soapy.Lib.Runs
import Soapy.Lime.Fifo

/-! # The receive FIFO

The receive loop calls `push_packet` and a reader calls `pop_samples`. The reader
holds the lock while it copies and lets go of it only to wait for a packet; a full
ring makes room by dropping its oldest packet, read or not.
-/

namespace Soapy.Lime

open Lib

/-- The arguments of `pop_samples`. -/
structure Request where
  samplesCount : Nat
  /-- The caller asks for the timestamp. -/
  timestamp : Bool
  timeout_ms : UInt32

/-- Where the reader is in a call of `pop_samples`: the samples it has copied and the
    timestamp it has noted. `overrun` after a `memcpy` past the end of a buffer. -/
inductive Reader (α : Type) where
  | idle
  | filling (call : Request) (samples : List α) (stamp : Option UInt64)
  /-- In the inner loop, with the lock. -/
  | copying (call : Request) (samples : List α) (stamp : Option UInt64)
  | waiting (call : Request) (samples : List α) (stamp : Option UInt64)
  | overrun

/-- How a call of `pop_samples` ended. -/
structure Reply (α : Type) where
  call : Request
  samples : List α
  stamp : Option UInt64

structure Reply.Answers {α : Type} (reply : Reply α) (piece : List (α × UInt64)) : Prop where
  samples : piece.map Prod.fst = reply.samples
  stamp : reply.call.timestamp → ∀ sample ∈ piece.head?, reply.stamp = some sample.2

structure ReceiveFifo (α : Type) (P B : Nat) where
  fifo : RingFIFO α P B
  reader : Reader α
  pushed : List (SamplesPacket α P)
  returned : List (Reply α)
  /-- The packets that have left the ring, and how many of their samples were read. -/
  gone : List (SamplesPacket α P × Nat)
  infos : List BufferInfo

variable {α : Type} {P B : Nat} [NeZero B]

namespace ReceiveFifo

inductive Action (α : Type) (P : Nat) where
  | push (packet : SamplesPacket α P)
  | info
  | pop (call : Request)
  | look
  | copy
  | again
  | refuse
  | wait
  | wake
  | timeout
  | finish

def init (f : RingFIFO α P B) : ReceiveFifo α P B where
  fifo := f.clear
  reader := .idle
  pushed := []
  returned := []
  gone := []
  infos := []

/-- The reader does not hold the lock. -/
def Unlocked (s : ReceiveFifo α P B) : Prop :=
  match s.reader with
  | .idle | .waiting .. => True
  | .filling .. | .copying .. | .overrun => False

def oldest (s : ReceiveFifo α P B) : SamplesPacket α P × Nat :=
  (s.fifo.mBuffer s.fifo.mHead, s.fifo.mFirst)

def push (s : ReceiveFifo α P B) (packet : SamplesPacket α P) : ReceiveFifo α P B :=
  { s with
    fifo := (s.fifo.pushPacket packet).1
    pushed := s.pushed ++ [packet]
    gone := if B ≤ s.fifo.mElementsFilled then s.gone ++ [s.oldest] else s.gone }

def info (s : ReceiveFifo α P B) : ReceiveFifo α P B :=
  { s with fifo := s.fifo.getInfo.2, infos := s.infos ++ [s.fifo.getInfo.1] }

def noteStamp (s : ReceiveFifo α P B) (call : Request) (samples : List α)
    (stamp : Option UInt64) : Option UInt64 :=
  if samples = [] ∧ call.timestamp then
    some ((s.fifo.mBuffer s.fifo.mHead).timestamp + UInt64.ofNat s.fifo.mFirst)
  else stamp

def copy (s : ReceiveFifo α P B) (call : Request) (samples : List α) (stamp : Option UInt64) :
    ReceiveFifo α P B :=
  (s.fifo.popTurn call.samplesCount samples.length).elim { s with reader := .overrun }
    fun (fifo, more) =>
      { s with
        fifo := fifo
        reader := .copying call (samples ++ more) stamp
        gone :=
          if fifo.mElementsFilled = s.fifo.mElementsFilled then s.gone
          else s.gone ++ [(s.oldest.1, s.oldest.2 + more.length)] }

def leave (s : ReceiveFifo α P B) (call : Request) (samples : List α) (stamp : Option UInt64) :
    ReceiveFifo α P B :=
  { s with reader := .idle, returned := s.returned ++ [⟨call, samples, stamp⟩] }

/-- The time is up. -/
def giveUp (s : ReceiveFifo α P B) (call : Request) (samples : List α) (stamp : Option UInt64) :
    ReceiveFifo α P B :=
  { s with fifo := { s.fifo with mUnderflow := s.fifo.mUnderflow + 1 } }.leave call samples stamp

inductive Step (s : ReceiveFifo α P B) : Action α P → ReceiveFifo α P B → Prop
  | push (packet : SamplesPacket α P) (unlocked : s.Unlocked) (some : 0 < packet.last)
      (fits : packet.last ≤ P) : Step s (.push packet) (s.push packet)
  | info (unlocked : s.Unlocked) : Step s .info s.info
  | pop (call : Request) (free : s.reader = .idle) (count : call.samplesCount < 2 ^ 32) :
      Step s (.pop call) { s with reader := .filling call [] none }
  | look (call : Request) (samples : List α) (stamp : Option UInt64)
      (here : s.reader = .filling call samples stamp) (more : samples.length < call.samplesCount)
      (some : 0 < s.fifo.mElementsFilled) :
      Step s .look { s with reader := .copying call samples (s.noteStamp call samples stamp) }
  | copy (call : Request) (samples : List α) (stamp : Option UInt64)
      (here : s.reader = .copying call samples stamp) (some : 0 < s.fifo.mElementsFilled)
      (more : samples.length < call.samplesCount) : Step s .copy (s.copy call samples stamp)
  /-- The inner loop is over. -/
  | again (call : Request) (samples : List α) (stamp : Option UInt64)
      (here : s.reader = .copying call samples stamp)
      (ended : s.fifo.mElementsFilled = 0 ∨ call.samplesCount ≤ samples.length) :
      Step s .again { s with reader := .filling call samples stamp }
  | refuse (call : Request) (samples : List α) (stamp : Option UInt64)
      (here : s.reader = .filling call samples stamp) (more : samples.length < call.samplesCount)
      (empty : s.fifo.mElementsFilled = 0) (impatient : call.timeout_ms = 0) :
      Step s .refuse (s.giveUp call samples stamp)
  | wait (call : Request) (samples : List α) (stamp : Option UInt64)
      (here : s.reader = .filling call samples stamp) (more : samples.length < call.samplesCount)
      (empty : s.fifo.mElementsFilled = 0) (patient : call.timeout_ms ≠ 0) :
      Step s .wait { s with reader := .waiting call samples stamp }
  | wake (call : Request) (samples : List α) (stamp : Option UInt64)
      (here : s.reader = .waiting call samples stamp) :
      Step s .wake { s with reader := .filling call samples stamp }
  | timeout (call : Request) (samples : List α) (stamp : Option UInt64)
      (here : s.reader = .waiting call samples stamp) :
      Step s .timeout (s.giveUp call samples stamp)
  | finish (call : Request) (samples : List α) (stamp : Option UInt64)
      (here : s.reader = .filling call samples stamp)
      (done : call.samplesCount ≤ samples.length) : Step s .finish (s.leave call samples stamp)

/-- Fewer than `2 ^ 31` samples are asked for whenever the reader copies, and the count
    of dropped packets does not wrap. -/
def Small (s : ReceiveFifo α P B) : Action α P → Prop
  | .copy => ∀ call samples stamp, s.reader = .copying call samples stamp →
      call.samplesCount - samples.length < 2 ^ 31
  | .push _ => s.fifo.mElementsFilled = B → s.fifo.mOverflow.toNat + 1 < 2 ^ 32
  | .info | .pop _ | .look | .again | .refuse | .wait | .wake | .timeout | .finish => True

end ReceiveFifo

namespace SamplesPacket

def stamped (p : SamplesPacket α P) : List (α × UInt64) :=
  p.contents.mapIdx fun j sample => (sample, p.timestamp + UInt64.ofNat j)

@[simp] theorem stamped_fst (p : SamplesPacket α P) : p.stamped.map Prod.fst = p.contents := by
  apply List.ext_getElem
  · simp [stamped]
  · intro i _ _
    simp [stamped]

theorem contents_length {p : SamplesPacket α P} (fits : p.last ≤ P) :
    p.contents.length = p.last := Buffer.read_length (by omega)

theorem stamped_length {p : SamplesPacket α P} (fits : p.last ≤ P) :
    p.stamped.length = p.last := by
  rw [stamped, List.length_mapIdx, contents_length fits]

end SamplesPacket

namespace RingFIFO

variable {f : RingFIFO α P B} {count n : Nat}

/-- The ring with an oldest packet that is being read. -/
structure Reading (f : RingFIFO α P B) : Prop where
  ring : f.Ring
  first : 0 < f.mElementsFilled → f.mFirst < (f.mBuffer f.mHead).last
  fresh : f.mElementsFilled = 0 → f.mFirst = 0
  sizes : ∀ p ∈ f.queue, 0 < p.last ∧ p.last ≤ P

theorem head_mem (some : 0 < f.mElementsFilled) : f.mBuffer f.mHead ∈ f.queue := by
  obtain ⟨n, filled⟩ := Nat.exists_eq_succ_of_ne_zero (ne_of_gt some)
  rw [queue, filled]
  exact List.mem_cons_self

theorem Reading.dequeue (reading : f.Reading) (some : 0 < f.mElementsFilled) :
    f.dequeue.Reading := by
  obtain ⟨ring, queue⟩ := reading.ring.dequeue some
  have sizes : ∀ p ∈ f.dequeue.queue, 0 < p.last ∧ p.last ≤ P := by
    intro p member
    apply reading.sizes
    rw [queue]
    exact List.mem_cons_of_mem _ member
  refine ⟨ring, ?_, fun _ => rfl, sizes⟩
  intro more
  exact (sizes _ (head_mem more)).1

theorem Reading.popTurn (reading : f.Reading) (bound : P < 2 ^ 31) (some : 0 < f.mElementsFilled)
    (more : n < count) (small : count - n < 2 ^ 31) :
    ∃ cnt f', 0 < cnt ∧ n + cnt ≤ count ∧ f.mFirst + cnt ≤ (f.mBuffer f.mHead).last ∧
      f.popTurn count n =
        Option.some (f', ((f.mBuffer f.mHead).contents.drop f.mFirst).take cnt) ∧
      (f' = f.dequeue ∧ f.mFirst + cnt = (f.mBuffer f.mHead).last ∨
        f' = { f with mFirst := f.mFirst + cnt } ∧
          f.mFirst + cnt < (f.mBuffer f.mHead).last) := by
  have first := reading.first some
  have fits := (reading.sizes _ (head_mem some)).2
  have left : toInt32 ((f.mBuffer f.mHead).last - f.mFirst) =
      ((f.mBuffer f.mHead).last - f.mFirst : Nat) := by
    rw [← Int.ofNat_sub (le_of_lt first)]
    exact toInt32_small (by omega)
  have remaining : toInt32 (count - n) = (count - n : Nat) := by
    rw [← Int.ofNat_sub (le_of_lt more)]
    exact toInt32_small small
  by_cases depleted : (f.mBuffer f.mHead).last - f.mFirst ≤ count - n
  · have cnt : (if (((f.mBuffer f.mHead).last - f.mFirst : Nat) : Int) < (count - n : Nat)
        then (((f.mBuffer f.mHead).last - f.mFirst : Nat) : Int) else (count - n : Nat)) =
        ((f.mBuffer f.mHead).last - f.mFirst : Nat) := by
      split
      · rfl
      · omega
    refine ⟨(f.mBuffer f.mHead).last - f.mFirst, f.dequeue, by omega, by omega, by omega, ?_,
      .inl ⟨rfl, by omega⟩⟩
    simp only [RingFIFO.popTurn, left, remaining, cnt, Int.toNat_natCast, if_true]
    rw [if_neg (by omega), SamplesPacket.contents, Buffer.read_part _ (by omega)]
  · have cnt : (if (((f.mBuffer f.mHead).last - f.mFirst : Nat) : Int) < (count - n : Nat)
        then (((f.mBuffer f.mHead).last - f.mFirst : Nat) : Int) else (count - n : Nat)) =
        (count - n : Nat) := by
      rw [if_neg (by omega)]
    refine ⟨count - n, { f with mFirst := f.mFirst + (count - n) }, by omega, by omega, by omega,
      ?_, .inr ⟨rfl, by omega⟩⟩
    simp only [RingFIFO.popTurn, left, remaining, cnt, Int.toNat_natCast]
    rw [if_neg (by omega), if_neg (by omega), SamplesPacket.contents,
      Buffer.read_part _ (by omega)]

theorem Reading.makeRoom (reading : f.Reading) :
    f.makeRoom.Reading ∧ f.makeRoom.mElementsFilled < B := by
  have filled := reading.ring.filled
  have positive : 0 < B := Nat.pos_of_ne_zero (NeZero.ne B)
  unfold RingFIFO.makeRoom
  split
  · have dequeued := reading.dequeue (f := f) (by omega)
    refine ⟨⟨⟨dequeued.ring.tail, dequeued.ring.filled⟩, dequeued.first, dequeued.fresh,
      dequeued.sizes⟩, ?_⟩
    simp only [RingFIFO.dequeue]
    omega
  · exact ⟨reading, by omega⟩

theorem Reading.put (reading : f.Reading) (room : f.mElementsFilled < B)
    {packet : SamplesPacket α P} (some : 0 < packet.last) (fits : packet.last ≤ P)
    {g : RingFIFO α P B} (put : g = { f with
      mBuffer := Function.update f.mBuffer f.mTail packet
      mTail := HandleRing.slot f.mTail 1
      mElementsFilled := f.mElementsFilled + 1 }) :
    g.Reading ∧ g.queue = f.queue ++ [packet] ∧
      (0 < f.mElementsFilled → g.mBuffer g.mHead = f.mBuffer f.mHead) := by
  have queue : g.queue = f.queue ++ [packet] := by
    rw [put]
    exact reading.ring.put room packet
  have front : g.queue = g.mBuffer g.mHead :: g.dequeue.queue := by
    rw [put]
    rfl
  have kept : 0 < f.mElementsFilled → g.mBuffer g.mHead = f.mBuffer f.mHead := by
    intro some
    rw [queue, (reading.ring.dequeue some).2] at front
    exact (List.cons.inj front).1.symm
  have sizes : ∀ p ∈ g.queue, 0 < p.last ∧ p.last ≤ P := by
    intro p member
    rw [queue] at member
    cases List.mem_append.mp member with
    | inl old => exact reading.sizes p old
    | inr last =>
      rw [List.mem_singleton.mp last]
      exact ⟨some, fits⟩
  refine ⟨⟨?_, ?_, ?_, sizes⟩, queue, kept⟩
  · rw [put]
    refine ⟨?_, room⟩
    simp only [reading.ring.tail, HandleRing.slot_slot]
  · intro _
    have first : g.mFirst = f.mFirst := by rw [put]
    rw [first]
    by_cases empty : f.mElementsFilled = 0
    · rw [reading.fresh empty]
      exact (sizes _ (front ▸ List.mem_cons_self)).1
    · rw [kept (Nat.pos_of_ne_zero empty)]
      exact reading.first (Nat.pos_of_ne_zero empty)
  · rw [put]
    simp

end RingFIFO

namespace ReceiveFifo

def copied (s : ReceiveFifo α P B) : List α :=
  match s.reader with
  | .filling _ samples _ | .copying _ samples _ | .waiting _ samples _ => samples
  | .idle | .overrun => []

/-- The samples that have been read, with the timestamps that their packets give them. -/
def trace (s : ReceiveFifo α P B) : List (α × UInt64) :=
  (s.gone ++ [s.oldest]).flatMap fun packet => packet.1.stamped.take packet.2

/-- The packets that were dropped before they were read to the end. -/
def removals (s : ReceiveFifo α P B) : Nat :=
  s.gone.countP fun packet => packet.2 < packet.1.last

/-- How many packets a step drops: one when a packet is pushed into a full ring. -/
def drops (s : ReceiveFifo α P B) : Action α P → Nat
  | .push _ => if s.fifo.mElementsFilled = B then 1 else 0
  | .info | .pop _ | .look | .copy | .again | .refuse | .wait | .wake | .timeout | .finish => 0

def Keeps (s : ReceiveFifo α P B) (piece : List (α × UInt64)) : Prop :=
  match s.reader with
  | .idle => piece = []
  | .filling call samples stamp | .waiting call samples stamp =>
    (⟨call, samples, stamp⟩ : Reply α).Answers piece
  | .copying call samples stamp =>
    (⟨call, samples, stamp⟩ : Reply α).Answers piece ∧
      (samples = [] → call.timestamp →
        stamp = some (s.oldest.1.timestamp + UInt64.ofNat s.oldest.2))
  | .overrun => False

structure Inv (s : ReceiveFifo α P B) : Prop where
  reading : s.fifo.Reading
  pushed : s.pushed = s.gone.map Prod.fst ++ s.fifo.queue
  gone : ∀ packet ∈ s.gone, packet.2 ≤ packet.1.last
  counted : s.removals = (s.infos.map fun info => info.overflow.toNat).sum + s.fifo.mOverflow.toNat
  pieces : ∃ pieces piece, s.trace = pieces.flatten ++ piece ∧
    List.Forall₂ Reply.Answers s.returned pieces ∧ s.Keeps piece

namespace Inv

variable {s s' : ReceiveFifo α P B} {call : Request} {samples : List α} {stamp : Option UInt64}

theorem init (f : RingFIFO α P B) : (init f).Inv where
  reading := ⟨.clear f, fun some => absurd some (lt_irrefl 0), fun _ => rfl, by simp [ReceiveFifo.init]⟩
  pushed := rfl
  gone := by simp [ReceiveFifo.init]
  counted := rfl
  pieces := ⟨[], [], by simp [trace, oldest, ReceiveFifo.init, RingFIFO.clear], .nil, rfl⟩

theorem reader (inv : s.Inv) {reader : Reader α}
    (keeps : ∀ piece, s.Keeps piece → ({ s with reader := reader } : ReceiveFifo α P B).Keeps piece) :
    ({ s with reader := reader } : ReceiveFifo α P B).Inv where
  reading := inv.reading
  pushed := inv.pushed
  gone := inv.gone
  counted := inv.counted
  pieces := by
    obtain ⟨pieces, piece, trace, answers, present⟩ := inv.pieces
    exact ⟨pieces, piece, trace, answers, keeps piece present⟩

theorem leave (inv : s.Inv)
    (keeps : ∀ piece, s.Keeps piece → (⟨call, samples, stamp⟩ : Reply α).Answers piece) :
    (s.leave call samples stamp).Inv where
  reading := inv.reading
  pushed := inv.pushed
  gone := inv.gone
  counted := inv.counted
  pieces := by
    obtain ⟨pieces, piece, trace, answers, present⟩ := inv.pieces
    refine ⟨pieces ++ [piece], [], ?_, List.rel_append answers (.cons (keeps piece present) .nil), rfl⟩
    rw [List.flatten_append, List.flatten_singleton, List.append_nil]
    exact trace

theorem giveUp (inv : s.Inv)
    (keeps : ∀ piece, s.Keeps piece → (⟨call, samples, stamp⟩ : Reply α).Answers piece) :
    (s.giveUp call samples stamp).Inv := by
  apply Inv.leave
  · constructor
    · exact ⟨⟨inv.reading.ring.tail, inv.reading.ring.filled⟩, inv.reading.first,
        inv.reading.fresh, inv.reading.sizes⟩
    · exact inv.pushed
    · exact inv.gone
    · exact inv.counted
    · exact inv.pieces
  · exact keeps

theorem info (inv : s.Inv) : s.info.Inv where
  reading := ⟨⟨inv.reading.ring.tail, inv.reading.ring.filled⟩, inv.reading.first,
    inv.reading.fresh, inv.reading.sizes⟩
  pushed := inv.pushed
  gone := inv.gone
  counted := by
    have counted := inv.counted
    simpa [ReceiveFifo.info, RingFIFO.getInfo, removals] using counted
  pieces := inv.pieces

theorem removals_push (inv : s.Inv) (packet : SamplesPacket α P) :
    (s.push packet).removals = s.removals + if s.fifo.mElementsFilled = B then 1 else 0 := by
  have filled := inv.reading.ring.filled
  have positive : 0 < B := Nat.pos_of_ne_zero (NeZero.ne B)
  by_cases full : B ≤ s.fifo.mElementsFilled
  · have unread := inv.reading.first (by omega)
    have exactly : s.fifo.mElementsFilled = B := by omega
    simp [ReceiveFifo.push, removals, exactly, List.countP_append, oldest, unread]
  · have roomy : s.fifo.mElementsFilled ≠ B := by omega
    simp [ReceiveFifo.push, removals, full, roomy]

theorem push {packet : SamplesPacket α P} (inv : s.Inv) (unlocked : s.Unlocked)
    (some : 0 < packet.last) (fits : packet.last ≤ P) (small : s.Small (.push packet)) :
    (s.push packet).Inv := by
  obtain ⟨roomy, room⟩ := inv.reading.makeRoom
  obtain ⟨reading, queue, kept⟩ := roomy.put room some fits (g := (s.fifo.pushPacket packet).1) rfl
  have filled := inv.reading.ring.filled
  have positive : 0 < B := Nat.pos_of_ne_zero (NeZero.ne B)
  have keeps : ∀ piece, s.Keeps piece → (s.push packet).Keeps piece := by
    intro piece present
    unfold Keeps at present ⊢
    unfold Unlocked at unlocked
    cases reader : s.reader with
    | idle | filling | waiting => simpa [ReceiveFifo.push, reader] using present
    | copying => simp [reader] at unlocked
    | overrun => simp [reader] at unlocked
  obtain ⟨pieces, piece, trace, answers, present⟩ := inv.pieces
  by_cases full : B ≤ s.fifo.mElementsFilled
  · have dropped : s.fifo.makeRoom =
        { s.fifo.dequeue with mOverflow := s.fifo.mOverflow + 1 } := if_pos full
    have gone : (s.push packet).gone = s.gone ++ [s.oldest] := if_pos full
    have occupied : 0 < s.fifo.mElementsFilled := by omega
    have unread := inv.reading.first occupied
    have queued : s.fifo.queue = s.oldest.1 :: s.fifo.makeRoom.queue := by
      rw [dropped]
      exact (inv.reading.ring.dequeue occupied).2
    constructor
    · exact reading
    · rw [gone]
      simp [ReceiveFifo.push, inv.pushed, queue, queued]
    · rw [gone]
      simp only [List.mem_append, List.mem_singleton]
      rintro e (old | rfl)
      · exact inv.gone e old
      · exact le_of_lt unread
    · have wraps := small (by omega)
      have counted := inv.counted
      have one := inv.removals_push packet
      rw [if_pos (by omega)] at one
      have overflow : (s.push packet).fifo.mOverflow.toNat = s.fifo.mOverflow.toNat + 1 := by
        simp only [ReceiveFifo.push, RingFIFO.pushPacket, dropped, UInt32.toNat_add]
        simp
        omega
      rw [one, counted, overflow]
      rfl
    · refine ⟨pieces, piece, ?_, answers, keeps piece present⟩
      have fresh : (s.push packet).oldest.2 = 0 := by
        simp [ReceiveFifo.push, oldest, RingFIFO.pushPacket, dropped, RingFIFO.dequeue]
      rw [← trace, ReceiveFifo.trace, gone, List.flatMap_append]
      simp [ReceiveFifo.trace, fresh]
  · have same : s.fifo.makeRoom = s.fifo := if_neg full
    have gone : (s.push packet).gone = s.gone := if_neg full
    rw [same] at queue kept
    constructor
    · exact reading
    · rw [gone]
      simp [ReceiveFifo.push, inv.pushed, queue]
    · rw [gone]
      exact inv.gone
    · have counted := inv.counted
      simpa [ReceiveFifo.push, removals, RingFIFO.pushPacket, same, full] using counted
    · refine ⟨pieces, piece, ?_, answers, keeps piece present⟩
      have first : (s.push packet).oldest.2 = s.oldest.2 := by
        simp [ReceiveFifo.push, oldest, RingFIFO.pushPacket, same]
      rw [← trace, ReceiveFifo.trace, gone, ReceiveFifo.trace]
      by_cases empty : s.fifo.mElementsFilled = 0
      · have fresh : s.oldest.2 = 0 := inv.reading.fresh empty
        simp [first, fresh]
      · have head : (s.push packet).oldest.1 = s.oldest.1 := kept (Nat.pos_of_ne_zero empty)
        simp [first, head]

theorem answers_more {piece more : List (α × UInt64)}
    (answers : (⟨call, samples, stamp⟩ : Reply α).Answers piece)
    (first : samples = [] → call.timestamp → ∀ sample ∈ more.head?, stamp = some sample.2) :
    (⟨call, samples ++ more.map Prod.fst, stamp⟩ : Reply α).Answers (piece ++ more) where
  samples := by rw [List.map_append, answers.samples]
  stamp wanted sample member := by
    cases piece with
    | nil => exact first answers.samples.symm wanted sample member
    | cons head rest => exact answers.stamp wanted sample member

theorem copy (inv : s.Inv) (bound : P < 2 ^ 31) (here : s.reader = .copying call samples stamp)
    (some : 0 < s.fifo.mElementsFilled) (more : samples.length < call.samplesCount)
    (small : call.samplesCount - samples.length < 2 ^ 31) : (s.copy call samples stamp).Inv := by
  obtain ⟨cnt, f', positive, _, inside, taken, moved⟩ := inv.reading.popTurn bound some more small
  obtain ⟨pieces, piece, trace, answers, present⟩ := inv.pieces
  have fits : s.oldest.1.last ≤ P := (inv.reading.sizes _ (RingFIFO.head_mem some)).2
  have first : s.oldest.2 < s.oldest.1.last := inv.reading.first some
  have upTo : s.oldest.2 + cnt ≤ s.oldest.1.last := inside
  -- what is copied, with its timestamps
  have plain : (s.oldest.1.contents.drop s.oldest.2).take cnt =
      ((s.oldest.1.stamped.drop s.oldest.2).take cnt).map Prod.fst := by
    rw [List.map_take, List.map_drop, SamplesPacket.stamped_fst]
  have length : ((s.oldest.1.contents.drop s.oldest.2).take cnt).length = cnt := by
    rw [List.length_take, List.length_drop, SamplesPacket.contents_length fits]
    omega
  have keeps : (⟨call, samples ++ (s.oldest.1.contents.drop s.oldest.2).take cnt, stamp⟩ :
      Reply α).Answers (piece ++ (s.oldest.1.stamped.drop s.oldest.2).take cnt) := by
    simp only [Keeps, here] at present
    rw [plain]
    apply answers_more present.1
    intro empty wanted sample member
    have inPacket : s.oldest.2 < s.oldest.1.stamped.length := by
      rw [SamplesPacket.stamped_length fits]
      exact first
    rw [present.2 empty wanted]
    simp only [List.head?_take, ne_of_gt positive, if_false, List.head?_drop,
      List.getElem?_eq_getElem inPacket] at member
    cases member
    simp [SamplesPacket.stamped]
  have nonempty : samples ++ (s.oldest.1.contents.drop s.oldest.2).take cnt ≠ [] := by
    apply List.append_ne_nil_of_right_ne_nil
    exact List.ne_nil_of_length_pos (by omega)
  have longer : s.trace ++ (s.oldest.1.stamped.drop s.oldest.2).take cnt =
      s.gone.flatMap (fun packet => packet.1.stamped.take packet.2) ++
        s.oldest.1.stamped.take (s.oldest.2 + cnt) := by
    rw [ReceiveFifo.trace, List.flatMap_append, List.append_assoc, List.take_add]
    simp
  rcases moved with ⟨rfl, depleted⟩ | ⟨rfl, left⟩
  · obtain ⟨ring, queue⟩ := inv.reading.ring.dequeue some
    have left : s.fifo.dequeue.mElementsFilled ≠ s.fifo.mElementsFilled := by
      simp only [RingFIFO.dequeue]
      omega
    have whole : s.oldest.2 + ((s.oldest.1.contents.drop s.oldest.2).take cnt).length =
        s.oldest.1.last := by
      rw [length]
      exact depleted
    have copied : s.copy call samples stamp = { s with
        fifo := s.fifo.dequeue
        reader := .copying call (samples ++ (s.oldest.1.contents.drop s.oldest.2).take cnt) stamp
        gone := s.gone ++ [(s.oldest.1, s.oldest.1.last)] } := by
      rw [← whole, ReceiveFifo.copy, taken]
      simp only [Option.elim, if_neg left]
      rfl
    rw [copied]
    constructor
    · exact inv.reading.dequeue some
    · rw [inv.pushed, queue]
      simp [oldest]
    · simp only [List.mem_append, List.mem_singleton]
      rintro e (old | rfl)
      · exact inv.gone e old
      · exact le_refl _
    · have counted := inv.counted
      rw [removals] at counted ⊢
      simpa [List.countP_append, RingFIFO.dequeue] using counted
    · refine ⟨pieces, piece ++ (s.oldest.1.stamped.drop s.oldest.2).take cnt, ?_, answers, keeps,
        fun empty => absurd empty nonempty⟩
      have last : s.oldest.2 + cnt = s.oldest.1.last := depleted
      rw [← List.append_assoc, ← trace, longer, last]
      simp [ReceiveFifo.trace, oldest, RingFIFO.dequeue]
  · have copied : s.copy call samples stamp = { s with
        fifo := { s.fifo with mFirst := s.fifo.mFirst + cnt }
        reader :=
          .copying call (samples ++ (s.oldest.1.contents.drop s.oldest.2).take cnt) stamp } := by
      rw [ReceiveFifo.copy, taken]
      simp only [Option.elim, if_true]
      rfl
    rw [copied]
    constructor
    · exact ⟨⟨inv.reading.ring.tail, inv.reading.ring.filled⟩, fun _ => left,
        fun empty => absurd empty (ne_of_gt some), inv.reading.sizes⟩
    · exact inv.pushed
    · exact inv.gone
    · exact inv.counted
    · refine ⟨pieces, piece ++ (s.oldest.1.stamped.drop s.oldest.2).take cnt, ?_, answers, keeps,
        fun empty => absurd empty nonempty⟩
      rw [← List.append_assoc, ← trace, longer]
      simp [ReceiveFifo.trace, oldest]

theorem step {a : Action α P} (inv : s.Inv) (bound : P < 2 ^ 31) (small : s.Small a)
    (step : Step s a s') : s'.Inv := by
  cases step with
  | push packet unlocked some fits => exact inv.push unlocked some fits small
  | info unlocked => exact inv.info
  | pop call free count =>
    apply inv.reader
    intro piece present
    simp only [Keeps, free] at present
    subst present
    exact ⟨rfl, by simp⟩
  | look call samples stamp here more some =>
    apply inv.reader
    intro piece present
    simp only [Keeps, here] at present
    refine ⟨⟨present.samples, ?_⟩, ?_⟩
    · intro wanted sample member
      have nonempty : samples ≠ [] := by
        intro empty
        have nothing := present.samples
        rw [empty, List.map_eq_nil_iff] at nothing
        simp [nothing] at member
      simpa [noteStamp, nonempty] using present.stamp wanted sample member
    · intro empty wanted
      simp [noteStamp, empty, wanted, oldest]
  | copy call samples stamp here some more =>
    exact inv.copy bound here some more (small call samples stamp here)
  | again call samples stamp here ended =>
    apply inv.reader
    intro piece present
    simp only [Keeps, here] at present
    exact present.1
  | refuse call samples stamp here | timeout call samples stamp here =>
    apply inv.giveUp
    intro piece present
    simpa only [Keeps, here] using present
  | wait call samples stamp here | wake call samples stamp here =>
    apply inv.reader
    intro piece present
    simpa only [Keeps, here] using present
  | finish call samples stamp here =>
    apply inv.leave
    intro piece present
    simpa only [Keeps, here] using present

end Inv

/-- All samples that calls of `pop_samples` have copied, in order. -/
def read (s : ReceiveFifo α P B) : List α := s.returned.flatMap Reply.samples ++ s.copied

/-- The samples in the ring that have not been read. -/
def unread (s : ReceiveFifo α P B) : List α :=
  (s.fifo.queue.flatMap SamplesPacket.contents).drop s.fifo.mFirst

/-- The reader gets the pushed samples in order, but for what was left of the packets
    that had to make room. -/
structure Contract (s : ReceiveFifo α P B) : Prop where
  inBounds : s.reader ≠ .overrun
  tail : s.fifo.mTail.val = (s.fifo.mHead.val + s.fifo.mElementsFilled) % B
  filled : s.fifo.mElementsFilled ≤ B
  first : 0 < s.fifo.mElementsFilled → s.fifo.mFirst < s.oldest.1.last
  order : s.pushed = s.gone.map Prod.fst ++ s.fifo.queue
  gone : ∀ packet ∈ s.gone, packet.2 ≤ packet.1.last
  conserved : s.read ++ s.unread =
    s.gone.flatMap (fun packet => packet.1.contents.take packet.2) ++
      s.fifo.queue.flatMap SamplesPacket.contents
  overflow :
    s.removals = (s.infos.map fun info => info.overflow.toNat).sum + s.fifo.mOverflow.toNat
  /-- What has been read, with the timestamps of the packets, in pieces, one for each call. -/
  stamps : ∃ pieces piece, s.trace = pieces.flatten ++ piece ∧
    List.Forall₂ Reply.Answers s.returned pieces ∧ piece.map Prod.fst = s.copied

omit [NeZero B] in
theorem answers_samples {replies : List (Reply α)} {pieces : List (List (α × UInt64))}
    (answers : List.Forall₂ Reply.Answers replies pieces) :
    replies.flatMap Reply.samples = pieces.flatten.map Prod.fst := by
  induction answers with
  | nil => rfl
  | cons first _ ih => simp [ih, first.samples]

omit [NeZero B] in
theorem Keeps.copied {s : ReceiveFifo α P B} {piece : List (α × UInt64)} (keeps : s.Keeps piece) :
    piece.map Prod.fst = s.copied := by
  unfold Keeps at keeps
  unfold ReceiveFifo.copied
  cases reader : s.reader with
  | idle => simp_all
  | filling | waiting =>
    simp only [reader] at keeps
    exact keeps.samples
  | copying =>
    simp only [reader] at keeps
    exact keeps.1.samples
  | overrun => simp [reader] at keeps

theorem Inv.contract {s : ReceiveFifo α P B} (inv : s.Inv) : s.Contract := by
  obtain ⟨pieces, piece, trace, answers, present⟩ := inv.pieces
  constructor
  · intro overrun
    simp [Keeps, overrun] at present
  · exact congrArg Fin.val inv.reading.ring.tail
  · exact inv.reading.ring.filled
  · exact inv.reading.first
  · exact inv.pushed
  · exact inv.gone
  · have read : s.read = s.trace.map Prod.fst := by
      rw [ReceiveFifo.read, answers_samples answers, ← present.copied, trace, List.map_append]
    have oldest : s.oldest.1.contents.take s.oldest.2 ++ s.unread =
        s.fifo.queue.flatMap SamplesPacket.contents := by
      by_cases empty : s.fifo.mElementsFilled = 0
      · have fresh : s.oldest.2 = 0 := inv.reading.fresh empty
        have nothing : s.fifo.queue = [] :=
          List.eq_nil_of_length_eq_zero ((RingFIFO.queue_length _).trans empty)
        simp [unread, fresh, nothing]
      · have some := Nat.pos_of_ne_zero empty
        have fits := (inv.reading.sizes _ (RingFIFO.head_mem some)).2
        have first := inv.reading.first some
        rw [unread, (inv.reading.ring.dequeue some).2, List.flatMap_cons,
          List.drop_append_of_le_length (by rw [SamplesPacket.contents_length fits]; omega),
          ← List.append_assoc]
        simp [ReceiveFifo.oldest]
    rw [read, ← oldest, ReceiveFifo.trace]
    simp [List.map_flatMap]
  · exact inv.counted
  · exact ⟨pieces, piece, trace, answers, present.copied⟩

theorem Inv.removals_step {s s' : ReceiveFifo α P B} {a : Action α P} (inv : s.Inv)
    (bound : P < 2 ^ 31) (small : s.Small a) (step : Step s a s') :
    s'.removals = s.removals + s.drops a := by
  cases step with
  | push packet unlocked some fits => exact inv.removals_push packet
  | copy call samples stamp here some more =>
    obtain ⟨cnt, f', _, _, _, taken, moved⟩ :=
      inv.reading.popTurn bound some more (small call samples stamp here)
    have overflow : (s.copy call samples stamp).fifo.mOverflow = s.fifo.mOverflow := by
      rw [ReceiveFifo.copy, taken]
      rcases moved with ⟨rfl, _⟩ | ⟨rfl, _⟩
      · rfl
      · rfl
    have infos : (s.copy call samples stamp).infos = s.infos := by
      rw [ReceiveFifo.copy, taken]
      rfl
    have after := (inv.copy bound here some more (small call samples stamp here)).counted
    rw [after, inv.counted, overflow, infos]
    rfl
  | info | pop | look | again | refuse | wait | wake | timeout | finish => rfl

end ReceiveFifo

open ReceiveFifo in
/-- As long as a copy never starts with `2 ^ 31` samples or more to go and the overflow count does
    not wrap: the contract, and packets are dropped one at a time by pushes into a full ring. -/
theorem receive_fifo (f : RingFIFO α P B) (bound : P < 2 ^ 31) {s : ReceiveFifo α P B}
    (run : Runs Step Small (init f) s) :
    s.Contract ∧ ∀ a s', s.Small a → Step s a s' →
      s'.removals = s.removals + s.drops a := by
  have inv := run.keeps (fun _ _ _ inv small step => inv.step bound small step) (Inv.init f)
  exact ⟨inv.contract, fun a s' small step => inv.removals_step bound small step⟩

namespace ReceiveFifo

/-- A ring of two packets of two samples. -/
def smallRing : RingFIFO Nat 2 2 where
  mBuffer := fun _ => ⟨0, 0, 0, fun _ => 0⟩
  mHead := 0
  mTail := 0
  mFirst := 0
  mLast := 0
  mElementsFilled := 0
  mOverflow := 0
  mUnderflow := 0

def pair (n : Nat) (timestamp : UInt64) : SamplesPacket Nat 2 := ⟨timestamp, 2, 0, fun i => n + i⟩

def oneSample : Request := ⟨1, true, 0⟩

theorem receive_fifo_drops : ∃ s : ReceiveFifo Nat 2 2,
    s.removals = 1 ∧ s.returned.map Reply.stamp = [some 100] ∧ s.Contract := by
  have run : Runs Step Small (init smallRing) (init smallRing) := .refl
  have third := run
    |>.tail (.push (pair 5 100) trivial (by decide) (by decide)) (by
      intro full
      cases full)
    |>.tail (.pop oneSample rfl (by decide))
    |>.tail (.look oneSample [] none rfl (by decide) (by decide))
    |>.tail (.copy oneSample [] (some 100) rfl (by decide) (by decide)) (by
      intro call samples stamp same
      cases same
      decide)
    |>.tail (.again oneSample [5] (some 100) rfl (by decide))
    |>.tail (.finish oneSample [5] (some 100) rfl (by decide))
    |>.tail (.push (pair 7 200) trivial (by decide) (by decide)) (by
      intro full
      cases full)
    |>.tail (.push (pair 9 300) trivial (by decide) (by decide)) (by
      intro _
      decide)
  exact ⟨_, rfl, rfl, (receive_fifo smallRing (by decide) third).1⟩

theorem popTurn_overruns {f : RingFIFO α P B} {count : Nat} (asked : count = 2 ^ 31)
    (last : (f.mBuffer f.mHead).last = 2) (first : f.mFirst = 0) : f.popTurn count 0 = none := by
  have remaining : toInt32 ((2 ^ 31 : Nat) - (0 : Nat)) = -2 ^ 31 := by decide
  have left : toInt32 ((2 : Nat) - (0 : Nat)) = 2 := by decide
  simp only [RingFIFO.popTurn, asked, last, first, remaining, left]
  rw [if_pos]
  exact Or.inl (by decide)

theorem copy_overruns {s : ReceiveFifo α P B} {call : Request} {stamp : Option UInt64}
    (stopped : s.fifo.popTurn call.samplesCount 0 = none) :
    (s.copy call [] stamp).reader = .overrun := by
  rw [copy, List.length_nil, stopped]
  rfl

/-- `cnt` is an `int`: a request for `2 ^ 31` samples copies with a negative length. -/
theorem receive_fifo_overruns :
    ∃ s : ReceiveFifo Nat 2 2, Runs Step (fun _ _ => True) (init smallRing) s ∧
      s.reader = .overrun ∧ ¬ s.Contract := by
  obtain ⟨call, count⟩ : ∃ call : Request, call.samplesCount = 2 ^ 31 := ⟨⟨2 ^ 31, true, 0⟩, rfl⟩
  have run : Runs Step (fun _ _ => True) (init smallRing) (init smallRing) := .refl
  have pushed := run.tail (.push (pair 5 100) trivial (by decide) (by decide))
  have asked := pushed.tail (.pop call rfl (by omega))
  have stored : 0 < ((init smallRing).push (pair 5 100)).fifo.mElementsFilled := by decide
  have looked := asked.tail (.look call [] none rfl (by simp [count]) stored)
  have overrun := looked.tail (.copy call [] _ rfl stored (by simp [count]))
  refine ⟨_, overrun, ?_⟩
  constructor
  · exact copy_overruns (popTurn_overruns count rfl rfl)
  · intro contract
    exact contract.inBounds (copy_overruns (popTurn_overruns count rfl rfl))

end ReceiveFifo

end Soapy.Lime
