import Soapy.Lib.Runs
import Soapy.Lime.Fifo

/-! # The transmit FIFO

A writer calls `push_samples` and the transmit loop calls `pop_packet`. The writer
holds the lock while it copies and lets go of it only to wait for a free slot, so the
two interleave at the waits. When a wait is over or a call gives up is arbitrary.
-/

namespace Soapy.Lime

open Lib

variable {α : Type} {P B : Nat}

def Samples.stamped (call : Samples α) : List (α × UInt64) :=
  call.buffer.mapIdx fun j sample => (sample, call.timestamp + UInt64.ofNat j)

/-- The first `last` samples of the packet are these, and its timestamp plus `last - 1`
    is the timestamp of the last of them. -/
structure SamplesPacket.Carries (p : SamplesPacket α P) (piece : List (α × UInt64)) : Prop where
  contents : piece.map Prod.fst = p.contents
  length : piece.length = p.last
  stamp : ∀ sample ∈ piece.getLast?, sample.2 = p.timestamp + UInt64.ofNat (p.last - 1)

theorem SamplesPacket.Carries.nil {p : SamplesPacket α P} (empty : p.last = 0) : p.Carries [] where
  contents := by simp [SamplesPacket.contents, empty]
  length := empty.symm
  stamp := by simp

@[simp] theorem Samples.stamped_length (call : Samples α) :
    call.stamped.length = call.buffer.length := List.length_mapIdx

theorem Samples.stamped_fst (call : Samples α) : call.stamped.map Prod.fst = call.buffer := by
  apply List.ext_getElem
  · simp
  · intro i _ _
    simp [stamped]

variable {piece : List (α × UInt64)} (packet : SamplesPacket α P)

namespace RingFIFO

variable [NeZero B] {f f' : RingFIFO α P B} {call : Samples α} {n cnt : Nat}

def partialPacket (f : RingFIFO α P B) : SamplesPacket α P :=
  { f.mBuffer f.mTail with last := f.mLast }

/-- The ring with a packet at the tail that is being filled. -/
structure Filling (f : RingFIFO α P B) : Prop where
  ring : f.Ring
  last : f.mLast < P
  room : 0 < f.mLast → f.mElementsFilled < B

/-- With fewer than `2 ^ 31` samples left a turn takes as many as fit. -/
theorem pieceLength_spec (filling : f.Filling) (more : n < call.buffer.length)
    (small : call.buffer.length - n < 2 ^ 31) :
    ∃ cnt : Nat, f.pieceLength call n = cnt ∧ 0 < cnt ∧ f.mLast + cnt ≤ P ∧
      n + cnt ≤ call.buffer.length := by
  have last := filling.last
  have remaining : toInt32 (call.buffer.length - n) = (call.buffer.length - n : Nat) := by
    rw [← Int.ofNat_sub (le_of_lt more)]
    exact toInt32_small small
  unfold pieceLength
  split
  · rename_i exceeds
    rw [exceeds_def, remaining] at exceeds
    exact ⟨P - f.mLast, by omega, by omega, by omega, by omega⟩
  · rename_i fits
    rw [exceeds_def, remaining] at fits
    exact ⟨call.buffer.length - n, remaining, by omega, by omega, by omega⟩

omit [NeZero B] in
theorem extend_contents (call : Samples α) (inside : f.mLast + cnt ≤ P)
    (upTo : n + cnt ≤ call.buffer.length) :
    (f.extend call n cnt).contents = f.partialPacket.contents ++ (call.buffer.drop n).take cnt := by
  have length : ((call.buffer.drop n).take cnt).length = cnt := by
    rw [List.length_take, List.length_drop]
    omega
  have written := Buffer.read_write (f.mBuffer f.mTail).samples f.mLast
    ((call.buffer.drop n).take cnt) (by rwa [length])
  rw [length] at written
  exact written

omit [NeZero B] in
theorem carries_extend (carries : f.partialPacket.Carries piece)
    (some : 0 < cnt) (inside : f.mLast + cnt ≤ P) (upTo : n + cnt ≤ call.buffer.length) :
    (f.extend call n cnt).Carries (piece ++ (call.stamped.drop n).take cnt) where
  contents := by
    rw [extend_contents call inside upTo, List.map_append, carries.contents, List.map_take,
      List.map_drop, Samples.stamped_fst]
  length := by
    have before : piece.length = f.mLast := carries.length
    simp only [List.length_append, List.length_take, List.length_drop, Samples.stamped_length,
      before, extend]
    omega
  stamp sample member := by
    have length : ((call.stamped.drop n).take cnt).length = cnt := by
      simp only [List.length_take, List.length_drop, Samples.stamped_length]
      omega
    have last : ((call.stamped.drop n).take cnt).getLast? =
        (call.stamped)[n + (cnt - 1)]? := by
      rw [List.getLast?_eq_getElem?, length, List.getElem?_take_of_lt (by omega),
        List.getElem?_drop]
    rw [List.getLast?_append_of_ne_nil _ (List.ne_nil_of_length_pos (by omega)), last,
      List.getElem?_eq_getElem (by rw [Samples.stamped_length]; omega)] at member
    cases member
    have later : f.mLast + cnt - 1 = f.mLast + (cnt - 1) := by omega
    simp only [Samples.stamped, List.getElem_mapIdx, extend, later, UInt64.ofNat_add]
    grind

theorem Filling.carries_popPacket (filling : f.Filling)
    (some : 0 < f.mElementsFilled) (packet : SamplesPacket α P)
    (carries : f.partialPacket.Carries piece) :
    (f.popPacket packet).1.partialPacket.Carries piece := by
  by_cases started : 0 < f.mLast
  · have apart : f.mTail ≠ f.mHead := by
      intro same
      rw [filling.ring.tail] at same
      nth_rewrite 2 [← HandleRing.slot_zero f.mHead] at same
      have wrapped := HandleRing.slot_inj (filling.room started) (by omega) same
      omega
    simpa [partialPacket, popPacket, Function.update_of_ne apart] using carries
  · have empty : f.mLast = 0 := by omega
    have nothing : piece = [] := List.eq_nil_of_length_eq_zero (carries.length.trans empty)
    rw [nothing]
    exact SamplesPacket.Carries.nil empty

theorem Filling.popPacket (filling : f.Filling) (some : 0 < f.mElementsFilled)
    (packet : SamplesPacket α P) : (f.popPacket packet).1.Filling := by
  refine ⟨(filling.ring.popPacket some packet).1, filling.last, ?_⟩
  intro started
  have room := filling.room started
  simp only [RingFIFO.popPacket]
  omega

theorem Filling.popNothing (filling : f.Filling) (packet : SamplesPacket α P) :
    (f.popNothing packet).1.Filling :=
  ⟨⟨filling.ring.tail, filling.ring.filled⟩, filling.last, filling.room⟩

theorem Filling.clear (f : RingFIFO α P B) (positive : 0 < P) : f.clear.Filling :=
  ⟨Ring.clear f, positive, fun some => absurd some (lt_irrefl 0)⟩

theorem Filling.pushTurn (filling : f.Filling) (room : f.mElementsFilled < B)
    (more : n < call.buffer.length) (small : call.buffer.length - n < 2 ^ 31) :
    ∃ cnt f', f.pushTurn call n = some (f', n + cnt) ∧ 0 < cnt ∧ f.mLast + cnt ≤ P ∧
      n + cnt ≤ call.buffer.length ∧ f'.Filling ∧
      (f'.queue = f.queue ∧ f'.partialPacket = f.extend call n cnt ∨
        f'.queue = f.queue ++ [f.extend call n cnt] ∧ f'.mLast = 0 ∧
          ((f.extend call n cnt).last = P ∨ (f.extend call n cnt).flags &&& END_BURST ≠ 0)) := by
  obtain ⟨cnt, length, some, inside, upTo⟩ := pieceLength_spec filling more small
  have bounds : ¬ ((cnt : Int) < 0 ∨ (P : Int) < f.mLast + cnt ∨
      (call.buffer.length : Int) < n + cnt) := by omega
  have full : f.mLast + cnt = (f.extend call n cnt).last := rfl
  have last := filling.last
  by_cases complete : (f.extend call n cnt).last = P ∨
      (f.extend call n cnt).flags &&& END_BURST ≠ 0
  · have taken : f.pushTurn call n = Option.some ((f.withTail (f.extend call n cnt)).close, n + cnt) := by
      simp [RingFIFO.pushTurn, length, if_neg bounds, if_pos complete]
    refine ⟨cnt, _, taken, some, inside, upTo, ?_, .inr ⟨?_, rfl, complete⟩⟩
    · constructor
      · constructor
        · simp only [close, withTail, filling.ring.tail, HandleRing.slot_slot]
        · simp only [close, withTail]
          omega
      · simp only [close]
        omega
      · exact fun some => absurd some (lt_irrefl 0)
    · exact filling.ring.put room _
  · have taken : f.pushTurn call n = Option.some (f.withTail (f.extend call n cnt), n + cnt) := by
      simp [RingFIFO.pushTurn, length, if_neg bounds, if_neg complete]
    refine ⟨cnt, _, taken, some, inside, upTo, ?_, .inl ⟨?_, ?_⟩⟩
    · constructor
      · exact ⟨filling.ring.tail, filling.ring.filled⟩
      · rw [not_or] at complete
        simp only [withTail]
        omega
      · exact fun _ => room
    · have untouched := RingQueue.stored_update_tail f.mBuffer f.mHead room
        (f.extend call n cnt)
      rwa [← filling.ring.tail] at untouched
    · simp [partialPacket, withTail]

end RingFIFO

/-- The piece went into the packet, and if its timestamps are contiguous, the packet's
    timestamp plus `k` is that of its sample `k`. -/
structure SamplesPacket.Tells (p : SamplesPacket α P) (piece : List (α × UInt64)) : Prop where
  contents : piece.map Prod.fst = p.contents
  stamps : (∀ k (here : k < piece.length) (first : 0 < piece.length),
      piece[k].2 = piece[0].2 + UInt64.ofNat k) →
    ∀ k (here : k < piece.length), piece[k].2 = p.timestamp + UInt64.ofNat k

theorem SamplesPacket.Carries.tells {p : SamplesPacket α P}
    (carries : p.Carries piece) : p.Tells piece where
  contents := carries.contents
  stamps contiguous k here := by
    have first : 0 < piece.length := by omega
    have last : piece[piece.length - 1].2 = p.timestamp + UInt64.ofNat (piece.length - 1) := by
      have member : piece[piece.length - 1] ∈ piece.getLast? := by
        rw [List.getLast?_eq_getElem?, List.getElem?_eq_getElem (by omega)]
        rfl
      have stamp := carries.stamp _ member
      rwa [← carries.length] at stamp
    have back := contiguous (piece.length - 1) (by omega) first
    have start : piece[0].2 = p.timestamp := by grind
    rw [contiguous k here first, start]

/-- Where the writer is in a call of `push_samples`; `overrun` after a `memcpy` past
    the end of a buffer. -/
inductive Producer (α : Type) where
  | idle
  | pushing (call : Samples α) (samplesTaken : Nat)
  | waiting (call : Samples α) (samplesTaken : Nat)
  | overrun

def Producer.taken : Producer α → List (α × UInt64)
  | .pushing call samplesTaken | .waiting call samplesTaken => call.stamped.take samplesTaken
  | .idle | .overrun => []

structure TransmitFifo (α : Type) (P B : Nat) where
  fifo : RingFIFO α P B
  producer : Producer α
  /-- The packet with which `pop_packet` waits. -/
  consumer : Option (SamplesPacket α P)
  /-- The finished calls of `push_samples` and their results. -/
  returned : List (Samples α × Nat)
  /-- What `pop_packet` has returned. -/
  popped : List (SamplesPacket α P)

variable [NeZero B]

variable {call : Samples α}

namespace TransmitFifo

inductive Action (α : Type) (P : Nat) where
  | push (call : Samples α)
  | turn
  | wait
  | wake
  | expire
  | finish
  | pop (packet : SamplesPacket α P)
  | resume
  | timeout

def init (f : RingFIFO α P B) : TransmitFifo α P B where
  fifo := f.clear
  producer := .idle
  consumer := none
  returned := []
  popped := []

/-- The writer does not hold the lock. -/
def Unlocked (s : TransmitFifo α P B) : Prop :=
  match s.producer with
  | .idle | .waiting .. => True
  | .pushing .. | .overrun => False

def takeTurn (s : TransmitFifo α P B) (call : Samples α) (samplesTaken : Nat) :
    TransmitFifo α P B :=
  (s.fifo.pushTurn call samplesTaken).elim { s with producer := .overrun }
    fun (fifo, samplesTaken) => { s with fifo := fifo, producer := .pushing call samplesTaken }

variable {n : Nat}

theorem takeTurn_some {s : TransmitFifo α P B} {m : Nat}
    {f' : RingFIFO α P B} (taken : s.fifo.pushTurn call n = some (f', m)) :
    s.takeTurn call n = { s with fifo := f', producer := .pushing call m } := by
  rw [takeTurn, taken]
  rfl

theorem takeTurn_overruns {s : TransmitFifo α P B}
    (stopped : s.fifo.pushTurn call n = none) : (s.takeTurn call n).producer = .overrun := by
  rw [takeTurn, stopped]
  rfl

def leave (s : TransmitFifo α P B) (call : Samples α) (samplesTaken : Nat) : TransmitFifo α P B :=
  { s with producer := .idle, returned := s.returned ++ [(call, samplesTaken)] }

/-- `pop_packet` when it has the lock. -/
def tryPop (s : TransmitFifo α P B) (packet : SamplesPacket α P) : TransmitFifo α P B :=
  if s.fifo.mElementsFilled = 0 then { s with consumer := some packet }
  else
    { s with
      fifo := (s.fifo.popPacket packet).1
      consumer := none
      popped := s.popped ++ [(s.fifo.popPacket packet).2] }

def giveUp (s : TransmitFifo α P B) (packet : SamplesPacket α P) : TransmitFifo α P B :=
  { s with
    fifo := (s.fifo.popNothing packet).1
    consumer := none
    popped := s.popped ++ [(s.fifo.popNothing packet).2] }

inductive Step (s : TransmitFifo α P B) : Action α P → TransmitFifo α P B → Prop
  | push (call : Samples α) (free : s.producer = .idle) (count : call.buffer.length < 2 ^ 32) :
      Step s (.push call) { s with producer := .pushing call 0 }
  | turn (call : Samples α) (samplesTaken : Nat) (here : s.producer = .pushing call samplesTaken)
      (more : samplesTaken < call.buffer.length) (room : s.fifo.mElementsFilled < B) :
      Step s .turn (s.takeTurn call samplesTaken)
  | wait (call : Samples α) (samplesTaken : Nat) (here : s.producer = .pushing call samplesTaken)
      (more : samplesTaken < call.buffer.length) (full : B ≤ s.fifo.mElementsFilled) :
      Step s .wait { s with producer := .waiting call samplesTaken }
  | wake (call : Samples α) (samplesTaken : Nat) (here : s.producer = .waiting call samplesTaken) :
      Step s .wake { s with producer := .pushing call samplesTaken }
  /-- The slots are full and the time is up. -/
  | expire (call : Samples α) (samplesTaken : Nat) (here : s.producer = .pushing call samplesTaken)
      (more : samplesTaken < call.buffer.length) (full : B ≤ s.fifo.mElementsFilled) :
      Step s .expire (s.leave call samplesTaken)
  | finish (call : Samples α) (samplesTaken : Nat) (here : s.producer = .pushing call samplesTaken)
      (done : call.buffer.length ≤ samplesTaken) : Step s .finish (s.leave call samplesTaken)
  | pop (packet : SamplesPacket α P) (free : s.consumer = none) (unlocked : s.Unlocked) :
      Step s (.pop packet) (s.tryPop packet)
  | resume (packet : SamplesPacket α P) (here : s.consumer = some packet)
      (unlocked : s.Unlocked) : Step s .resume (s.tryPop packet)
  | timeout (packet : SamplesPacket α P) (here : s.consumer = some packet)
      (unlocked : s.Unlocked) : Step s .timeout (s.giveUp packet)

/-- Fewer than `2 ^ 31` samples are left to copy whenever the writer copies. -/
def Small (s : TransmitFifo α P B) : Action α P → Prop
  | .turn => ∀ call samplesTaken, s.producer = .pushing call samplesTaken →
      call.buffer.length - samplesTaken < 2 ^ 31
  | .push _ | .wait | .wake | .expire | .finish | .pop _ | .resume | .timeout => True

def accepted (s : TransmitFifo α P B) : List (α × UInt64) :=
  s.returned.flatMap (fun call => call.1.stamped.take call.2) ++ s.producer.taken

def packets (s : TransmitFifo α P B) : List (SamplesPacket α P) :=
  s.popped.filter (fun p => p.last ≠ 0) ++ s.fifo.queue

structure Inv (s : TransmitFifo α P B) : Prop where
  filling : s.fifo.Filling
  inBounds : s.producer ≠ .overrun
  complete : ∀ p ∈ s.packets, p.last ≠ 0 ∧ (p.last = P ∨ p.flags &&& END_BURST ≠ 0)
  pieces : ∃ pieces piece, s.accepted = pieces.flatten ++ piece ∧
    List.Forall₂ SamplesPacket.Carries s.packets pieces ∧ s.fifo.partialPacket.Carries piece

namespace Inv

variable {s s' : TransmitFifo α P B}

theorem init (f : RingFIFO α P B) (positive : 0 < P) : (init f).Inv where
  filling := .clear f positive
  inBounds := by simp [TransmitFifo.init]
  complete := by simp [packets, TransmitFifo.init]
  pieces := ⟨[], [], rfl, .nil, .nil rfl⟩

theorem same (inv : s.Inv) (fifo : s'.fifo = s.fifo) (popped : s'.popped = s.popped)
    (inBounds : s'.producer ≠ .overrun) (accepted : s'.accepted = s.accepted) : s'.Inv := by
  have packets : s'.packets = s.packets := by rw [packets, packets, fifo, popped]
  constructor
  · rw [fifo]
    exact inv.filling
  · exact inBounds
  · rw [packets]
    exact inv.complete
  · rw [packets, accepted, fifo]
    exact inv.pieces

theorem turn (inv : s.Inv) (here : s.producer = .pushing call n)
    (more : n < call.buffer.length) (room : s.fifo.mElementsFilled < B)
    (small : call.buffer.length - n < 2 ^ 31) : (s.takeTurn call n).Inv := by
  obtain ⟨cnt, f', taken, some, inside, upTo, filling, stored⟩ :=
    inv.filling.pushTurn room more small
  obtain ⟨pieces, piece, accepted, carried, partly⟩ := inv.pieces
  have extended := RingFIFO.carries_extend partly some inside upTo
  have positive : (s.fifo.extend call n cnt).last ≠ 0 := by
    simp only [RingFIFO.extend]
    omega
  have longer : ({ s with fifo := f', producer := .pushing call (n + cnt) } :
      TransmitFifo α P B).accepted = s.accepted ++ (call.stamped.drop n).take cnt := by
    simp [TransmitFifo.accepted, here, Producer.taken, List.take_add]
  rw [takeTurn_some taken]
  rcases stored with ⟨queue, rest⟩ | ⟨queue, rest, complete⟩
  · have packets : ({ s with fifo := f', producer := .pushing call (n + cnt) } :
        TransmitFifo α P B).packets = s.packets := by
      simp only [TransmitFifo.packets, queue]
    constructor
    · exact filling
    · simp
    · rw [packets]
      exact inv.complete
    · refine ⟨pieces, piece ++ (call.stamped.drop n).take cnt, ?_, ?_, ?_⟩
      · rw [longer, accepted, List.append_assoc]
      · rw [packets]
        exact carried
      · simp only [rest]
        exact extended
  · have packets : ({ s with fifo := f', producer := .pushing call (n + cnt) } :
        TransmitFifo α P B).packets = s.packets ++ [s.fifo.extend call n cnt] := by
      simp [TransmitFifo.packets, queue]
    constructor
    · exact filling
    · simp
    · rw [packets]
      intro p member
      cases List.mem_append.mp member with
      | inl old => exact inv.complete p old
      | inr last =>
        rw [List.mem_singleton.mp last]
        exact ⟨positive, complete⟩
    · refine ⟨pieces ++ [piece ++ (call.stamped.drop n).take cnt], [], ?_, ?_, ?_⟩
      · rw [longer, accepted]
        simp
      · rw [packets]
        exact List.rel_append carried (.cons extended .nil)
      · exact SamplesPacket.Carries.nil rest

theorem tryPop (inv : s.Inv) (packet : SamplesPacket α P) : (s.tryPop packet).Inv := by
  by_cases empty : s.fifo.mElementsFilled = 0
  · have waits : s.tryPop packet = { s with consumer := some packet } := if_pos empty
    rw [waits]
    exact inv.same rfl rfl inv.inBounds rfl
  · have takes : s.tryPop packet = { s with
        fifo := (s.fifo.popPacket packet).1
        consumer := none
        popped := s.popped ++ [(s.fifo.popPacket packet).2] } := if_neg empty
    obtain ⟨_, queue⟩ := inv.filling.ring.popPacket (Nat.pos_of_ne_zero empty) packet
    have stored : (s.fifo.popPacket packet).2 ∈ s.packets := by
      rw [packets, queue]
      simp
    have positive := (inv.complete _ stored).1
    have packets : (s.tryPop packet).packets = s.packets := by
      rw [takes]
      simp [TransmitFifo.packets, queue, positive]
    obtain ⟨pieces, piece, accepted, carried, partly⟩ := inv.pieces
    constructor
    · rw [takes]
      exact inv.filling.popPacket (Nat.pos_of_ne_zero empty) packet
    · rw [takes]
      exact inv.inBounds
    · rw [packets]
      exact inv.complete
    · rw [packets]
      refine ⟨pieces, piece, ?_, carried, ?_⟩
      · rw [takes]
        exact accepted
      · rw [takes]
        exact inv.filling.carries_popPacket (Nat.pos_of_ne_zero empty) packet partly

theorem giveUp (inv : s.Inv) (packet : SamplesPacket α P) : (s.giveUp packet).Inv := by
  have packets : (s.giveUp packet).packets = s.packets := by
    simp [TransmitFifo.packets, TransmitFifo.giveUp, RingFIFO.popNothing, RingFIFO.queue]
  constructor
  · exact inv.filling.popNothing packet
  · exact inv.inBounds
  · rw [packets]
    exact inv.complete
  · rw [packets]
    exact inv.pieces

theorem step {a : Action α P} (inv : s.Inv) (small : s.Small a) (step : Step s a s') : s'.Inv := by
  cases step with
  | push call free count =>
    exact inv.same rfl rfl (by simp) (by simp [accepted, free, Producer.taken])
  | turn call n here more room => exact inv.turn here more room (small call n here)
  | wait call n here more full =>
    exact inv.same rfl rfl (by simp) (by simp [accepted, here, Producer.taken])
  | wake call n here => exact inv.same rfl rfl (by simp) (by simp [accepted, here, Producer.taken])
  | expire call n here | finish call n here =>
    exact inv.same rfl rfl (by simp [leave]) (by simp [accepted, leave, here, Producer.taken])
  | pop packet | resume packet => exact inv.tryPop packet
  | timeout packet => exact inv.giveUp packet

end Inv

/-- The FIFO keeps the samples it has accepted, in order, and makes packets of them. -/
structure Contract (s : TransmitFifo α P B) : Prop where
  inBounds : s.producer ≠ .overrun
  tail : s.fifo.mTail.val = (s.fifo.mHead.val + s.fifo.mElementsFilled) % B
  filled : s.fifo.mElementsFilled ≤ B
  last : s.fifo.mLast < P
  room : 0 < s.fifo.mLast → s.fifo.mElementsFilled < B
  conserved : (s.popped.filter (fun p => p.last ≠ 0)).flatMap SamplesPacket.contents ++
    s.fifo.queue.flatMap SamplesPacket.contents ++ s.fifo.partialPacket.contents =
      s.accepted.map Prod.fst
  complete : ∀ p ∈ s.popped, p.last ≠ 0 → p.last = P ∨ p.flags &&& END_BURST ≠ 0
  stamps : ∃ pieces piece, s.accepted = pieces.flatten ++ piece ∧
    List.Forall₂ SamplesPacket.Tells s.packets pieces ∧ s.fifo.partialPacket.Tells piece

omit [NeZero B] in
theorem flatMap_contents {packets : List (SamplesPacket α P)} {pieces : List (List (α × UInt64))}
    (carried : List.Forall₂ SamplesPacket.Carries packets pieces) :
    packets.flatMap SamplesPacket.contents = pieces.flatten.map Prod.fst := by
  induction carried with
  | nil => rfl
  | cons first _ ih => simp [ih, first.contents]

theorem Inv.contract {s : TransmitFifo α P B} (inv : s.Inv) : s.Contract := by
  obtain ⟨pieces, piece, accepted, carried, partly⟩ := inv.pieces
  constructor
  · exact inv.inBounds
  · exact congrArg Fin.val inv.filling.ring.tail
  · exact inv.filling.ring.filled
  · exact inv.filling.last
  · exact inv.filling.room
  · rw [← List.flatMap_append, ← partly.contents, accepted, List.map_append,
      ← flatMap_contents carried]
    rfl
  · intro p member positive
    exact (inv.complete p (List.mem_append_left _ (by simp [member, positive]))).2
  · exact ⟨pieces, piece, accepted, carried.imp fun _ _ carries => carries.tells, partly.tells⟩

end TransmitFifo

open TransmitFifo in
/-- For every interleaving of a writer and the transmit loop in which a copy never
    starts with `2 ^ 31` samples or more to go. -/
theorem transmit_fifo (f : RingFIFO α P B) (positive : 0 < P) {s : TransmitFifo α P B}
    (run : Runs Step Small (init f) s) : s.Contract :=
  (run.keeps (fun _ _ _ inv small step => inv.step small step) (Inv.init f positive)).contract

namespace TransmitFifo

/-- A ring of one packet of two samples. -/
def smallRing : RingFIFO Nat 2 1 where
  mBuffer := fun _ => ⟨0, 0, 0, fun _ => 0⟩
  mHead := 0
  mTail := 0
  mFirst := 0
  mLast := 0
  mElementsFilled := 0
  mOverflow := 0
  mUnderflow := 0

def threeSamples : Samples Nat := ⟨[5, 6, 7], 100, 0⟩

theorem transmit_fifo_wraps : ∃ s : TransmitFifo Nat 2 1,
    s.popped.length = 1 ∧ s.fifo.mLast = 1 ∧ s.Contract := by
  have run : Runs Step Small (init smallRing) (init smallRing) := .refl
  have finished := run
    |>.tail (.push threeSamples rfl (by decide))
    |>.tail (.turn threeSamples 0 rfl (by decide) (by decide)) (by
      intro call' n same
      cases same
      decide)
    |>.tail (.wait threeSamples 2 rfl (by decide) (by decide))
    |>.tail (.pop ⟨0, 0, 0, fun _ => 0⟩ rfl trivial)
    |>.tail (.wake threeSamples 2 rfl)
    |>.tail (.turn threeSamples 2 rfl (by decide) (by decide)) (by
      intro call' n same
      cases same
      decide)
    |>.tail (.finish threeSamples 3 rfl (by decide))
  exact ⟨_, rfl, rfl, transmit_fifo smallRing (by decide) finished⟩

theorem pushTurn_overruns {f : RingFIFO α P B}
    (length : call.buffer.length = 2 ^ 31) (last : f.mLast ≤ P) : f.pushTurn call 0 = none := by
  have wrapped : toInt32 ((2 ^ 31 : Nat) - (0 : Nat)) = -2 ^ 31 := by decide
  have fits : ¬ f.exceeds call 0 := by
    rw [RingFIFO.exceeds_def, length, wrapped]
    omega
  have negative : f.pieceLength call 0 < 0 := by
    rw [RingFIFO.pieceLength, if_neg fits, length, wrapped]
    decide
  simp only [RingFIFO.pushTurn]
  rw [if_pos (Or.inl negative)]

theorem exists_samples (n : Nat) : ∃ call : Samples Nat, call.buffer.length = n :=
  ⟨⟨List.replicate n 0, 0, 0⟩, List.length_replicate⟩

/-- `cnt` is an `int`: a call with `2 ^ 31` samples copies with a negative length. -/
theorem transmit_fifo_overruns :
    ∃ s : TransmitFifo Nat 2 1, Runs Step (fun _ _ => True) (init smallRing) s ∧
      s.producer = .overrun ∧ ¬ s.Contract := by
  obtain ⟨call, length⟩ := exists_samples (2 ^ 31)
  have run : Runs Step (fun _ _ => True) (init smallRing) (init smallRing) := .refl
  have pushing := run.tail (.push call rfl (by omega))
  have overrun := pushing.tail (.turn call 0 rfl (by omega) Nat.zero_lt_one)
  have gone := takeTurn_overruns (s := { init smallRing with producer := .pushing call 0 })
    (pushTurn_overruns length (Nat.zero_le 2))
  exact ⟨_, overrun, gone, fun contract => contract.inBounds gone⟩

end TransmitFifo

end Soapy.Lime
