import Soapy.Receive.RTLSDR

/-! # What the reader of an RTL-SDR gets

The buffers between the head and the tail are a queue, without the one that the reader
holds. They stand one behind the other in what arrived, unless the ring overflowed: then
nothing more is read of them but the first one, before the reader drains them.
-/

namespace Soapy.Receive.RTLSDR

open Lib HandleRing

variable {n : Nat} [NeZero n] {α : Type}

def State.holds (s : State n α) : Nat :=
  match s.place with
  | .idle | .reads _ => if s.bufferedElems = 0 then 0 else 1
  | .copies _ | .releases => 1
  | _ => 0

/-- A buffer is in the ring before it is counted. -/
def Callback.uncounted : Callback α → Nat
  | .counts => 1
  | _ => 0

/-- The buffers that wait for the reader. -/
def State.queue (s : State n α) : List (Block α) :=
  RingQueue.stored s.buffs s.buf_head (s.buf_count - s.holds + s.callback.uncounted)

/-- The place behind the last sample that is stored. -/
def State.stop (s : State n α) : Nat :=
  match s.callback with
  | .stores b => b.start
  | _ => s.arrived.length

/-- No samples are missing between the buffers that wait. -/
def State.Tight (s : State n α) : Prop := s.overflowEvent = false ∨ s.place.Draining

/-- The place of the next sample that comes out of the queue. The reader does not know yet of
    an overflow that it drained. -/
def State.Next (s : State n α) (pos : Nat) (free : Bool) (a : Nat) : Prop :=
  if s.holds = 0 then MayFollow anywhere pos (free || s.place = .overflowed) a
  else a = (s.buffs s.currentHandle).stop

/-- The places where no buffer is held, but also not asked for its rest. -/
def Place.Empty : Place → Prop
  | .acquires _ | .drained _ | .unset _ | .checks _ | .overflowed | .waits _ | .releases => True
  | _ => False

structure Ring (s : State n α) : Prop where
  held : s.holds ≤ s.buf_count
  room : s.buf_count + s.callback.uncounted ≤ n
  stores : ∀ b, s.callback = .stores b → s.buf_count < n
  tail : s.buf_tail = slot s.buf_head (s.buf_count - s.holds + s.callback.uncounted)
  handle : s.holds = 1 → slot s.currentHandle 1 = s.buf_head
  empty : s.place.Empty → s.bufferedElems = 0

structure Order (s : State n α) (pos : Nat) (free : Bool) : Prop where
  seen : InOrder anywhere s.arrived s.log pos free
  stored : ∀ b ∈ s.queue, b.Of s.arrived
  pending : ∀ b, s.callback = .stores b → b.Of s.arrived ∧ b.stop = s.arrived.length
  last : s.callback = .counts → ∃ front b, s.queue = front ++ [b] ∧ b.stop = s.arrived.length
  held : s.holds = 1 → (s.buffs s.currentHandle).Of s.arrived ∧
    s.currentBuff + s.bufferedElems = (s.buffs s.currentHandle).data.length ∧
    MayFollow anywhere pos free ((s.buffs s.currentHandle).start + s.currentBuff)
  chain : ∃ a, s.Next pos free a ∧ Chained false a s.queue s.stop ∧
    (s.Tight → Chained true a s.queue s.stop)
  waits : ∀ k, s.place = .waits k → s.overflowEvent = true →
    ∃ b rest, s.queue = b :: rest ∧ MayFollow anywhere pos free b.start

structure Inv (s : State n α) : Prop where
  ring : Ring s
  order : ∃ pos free, Order s pos free

theorem Inv.start : Inv (State.start : State n α) := by
  constructor
  · constructor
    · exact Nat.le_refl 0
    · exact Nat.zero_le n
    · nofun
    · exact (slot_zero 0).symm
    · nofun
    · nofun
  · refine ⟨0, false, ?_⟩
    constructor
    · exact .nil
    · intro b member
      cases member
    · nofun
    · nofun
    · nofun
    · exact ⟨0, .here 0, Nat.le_refl 0, fun _ => rfl⟩
    · nofun

omit [NeZero n] in
theorem holds_le (s : State n α) : s.holds ≤ 1 := by
  unfold State.holds
  split
  · split
    · exact Nat.zero_le 1
    · exact Nat.le_refl 1
  · split
    · exact Nat.zero_le 1
    · exact Nat.le_refl 1
  · exact Nat.le_refl 1
  · exact Nat.le_refl 1
  · exact Nat.zero_le 1

variable {data : List α} {numElems : Nat} {place : Place} {b : Block α}

section Steps

variable {s s' : State n α} {pos : Nat} {free : Bool}

section

variable (order : Order s pos free)
include order

theorem Order.stays
    (ring : s'.buffs = s.buffs ∧ s'.buf_head = s.buf_head ∧ s'.buf_count = s.buf_count ∧
      s'.callback = s.callback ∧ s'.arrived = s.arrived ∧ s'.log = s.log)
    (reader : s'.holds = s.holds ∧ s'.currentHandle = s.currentHandle ∧
      s'.currentBuff = s.currentBuff ∧ (s.holds = 1 → s'.bufferedElems = s.bufferedElems))
    (gap : s'.place = .overflowed ↔ s.place = .overflowed) (tight : s'.Tight → s.Tight)
    (waits : ∀ k, s'.place = .waits k → s'.overflowEvent = true →
      ∃ k', s.place = .waits k' ∧ s.overflowEvent = true) : Order s' pos free := by
  obtain ⟨buffs, head, count, callback, arrived, log⟩ := ring
  obtain ⟨holds, handle, offset, elems⟩ := reader
  have queue : s'.queue = s.queue := by
    simp only [State.queue, buffs, head, count, callback, holds]
  have stop : s'.stop = s.stop := by
    simp only [State.stop, callback, arrived]
  obtain ⟨a, next, loose, close⟩ := order.chain
  constructor
  · rw [arrived, log]
    exact order.seen
  · rw [arrived, queue]
    exact order.stored
  · rw [callback, arrived]
    exact order.pending
  · rw [callback, queue, arrived]
    exact order.last
  · intro one
    rw [holds] at one
    rw [buffs, handle, offset, arrived, elems one]
    exact order.held one
  · refine ⟨a, ?_, ?_, ?_⟩
    · simp only [State.Next, holds, buffs, handle, gap] at next ⊢
      exact next
    · rw [queue, stop]
      exact loose
    · intro here
      rw [queue, stop]
      exact close (tight here)
  · intro k at_k overflow
    obtain ⟨k', at_k', overflow'⟩ := waits k at_k overflow
    rw [queue]
    exact order.waits k' at_k' overflow'

theorem Order.moves {reset overflow joined : Bool}
    (holds : State.holds { s with place := place } = s.holds)
    (gap : place = .overflowed ↔ s.place = .overflowed)
    (tight : overflow = false ∨ place.Draining → s.Tight)
    (waits : ∀ k, place = .waits k → overflow = true →
      ∃ k', s.place = .waits k' ∧ s.overflowEvent = true) :
    Order { s with
      place := place
      resetBuffer := reset
      overflowEvent := overflow
      joinable := joined } pos free := by
  apply Order.stays order
  · exact ⟨rfl, rfl, rfl, rfl, rfl, rfl⟩
  · exact ⟨holds, rfl, rfl, fun _ => rfl⟩
  · exact gap
  · exact tight
  · exact waits

theorem Order.dropped (idle : s.callback = .idle)
    (full : s.buf_count = n) (apart : ¬ s.place.Draining) :
    Order { s with overflowEvent := true, arrived := s.arrived ++ data } pos free := by
  obtain ⟨a, next, loose, close⟩ := order.chain
  have stop : s.stop = s.arrived.length := by simp only [State.stop, idle]
  have later : s.stop ≤ (s.arrived ++ data).length := by
    rw [stop, List.length_append]
    exact Nat.le_add_right _ _
  constructor
  · exact order.seen.grow
  · intro b member
    exact (order.stored b member).grow
  · intro b stores
    cases idle.symm.trans stores
  · intro counts
    cases idle.symm.trans counts
  · intro one
    obtain ⟨of, elems, follows⟩ := order.held one
    exact ⟨of.grow, elems, follows⟩
  · refine ⟨a, next, ?_, ?_⟩
    · have stop' : State.stop { s with overflowEvent := true, arrived := s.arrived ++ data } =
          (s.arrived ++ data).length := by simp only [State.stop, idle]
      rw [stop']
      exact loose.grow later
    · intro tight
      rcases tight with off | place
      · cases off
      · exact absurd place apart
  · intro k at_k _
    change s.place = .waits k at at_k
    by_cases overflow : s.overflowEvent = true
    · exact order.waits k at_k overflow
    · have zero : s.holds = 0 := by simp only [State.holds, at_k]
      have some : s.queue = s.buffs s.buf_head ::
          RingQueue.stored s.buffs (slot s.buf_head 1) (n - 1) := by
        simp only [State.queue, zero, full, idle, Callback.uncounted, Nat.sub_zero, Nat.add_zero]
        exact RingQueue.stored_of_pos (Nat.pos_of_ne_zero (NeZero.ne n))
      have tight := close (.inl (by simpa using overflow))
      rw [some] at tight
      simp only [State.Next, zero, if_true, at_k] at next
      refine ⟨_, _, some, ?_⟩
      rw [← tight.1]
      simpa using next

theorem Order.arrives (idle : s.callback = .idle) :
    Order { s with
      callback := .stores ⟨s.arrived.length, data⟩
      arrived := s.arrived ++ data } pos free := by
  obtain ⟨a, next, loose, close⟩ := order.chain
  have stop : s.stop = s.arrived.length := by simp only [State.stop, idle]
  have queue : State.queue { s with
      callback := .stores ⟨s.arrived.length, data⟩
      arrived := s.arrived ++ data } = s.queue := by
    simp only [State.queue, idle]
    rfl
  rw [stop] at loose close
  constructor
  · exact order.seen.grow
  · rw [queue]
    intro b member
    exact (order.stored b member).grow
  · intro b stores
    obtain rfl := Callback.stores.inj stores
    exact ⟨Block.of_end s.arrived data, by simp [Block.stop]⟩
  · rintro ⟨⟩
  · intro one
    obtain ⟨of, elems, follows⟩ := order.held one
    exact ⟨of.grow, elems, follows⟩
  · rw [queue]
    exact ⟨a, next, loose, close⟩
  · rw [queue]
    exact order.waits

omit order in
theorem Ring.apart (ring : Ring s) (one : s.holds = 1)
    (stores : s.callback = .stores b) : s.currentHandle ≠ s.buf_tail := by
  have room := ring.stores b stores
  have held := ring.held
  have tail := ring.tail
  rw [one, stores] at tail
  rw [tail]
  exact (slot_apart (ring.handle one) (by change s.buf_count - 1 + 0 + 1 < n; omega)).symm

omit order in
theorem Order.storing (ring : Ring s) (order : Order s pos free) (stores : s.callback = .stores b) :
    Order { s with
      buffs := Function.update s.buffs s.buf_tail b
      buf_tail := slot s.buf_tail 1
      callback := .counts } pos free := by
  obtain ⟨a, next, loose, close⟩ := order.chain
  obtain ⟨of, ends⟩ := order.pending b stores
  have room := ring.stores b stores
  have stop : s.stop = b.start := by simp only [State.stop, stores]
  have queue : State.queue { s with
      buffs := Function.update s.buffs s.buf_tail b
      buf_tail := slot s.buf_tail 1
      callback := .counts } = s.queue ++ [b] := by
    have before : s.queue = RingQueue.stored s.buffs s.buf_head (s.buf_count - s.holds) := by
      simp only [State.queue, stores]
      rfl
    rw [before, ← RingQueue.stored_push s.buffs s.buf_head (by omega) b, ring.tail, stores]
    rfl
  have current : s.holds = 1 →
      Function.update s.buffs s.buf_tail b s.currentHandle = s.buffs s.currentHandle := by
    intro one
    exact Function.update_of_ne (ring.apart one stores) _ _
  rw [stop] at loose close
  constructor
  · exact order.seen
  · rw [queue]
    intro c member
    rcases List.mem_append.mp member with old | new
    · exact order.stored c old
    · obtain rfl := List.mem_singleton.mp new
      exact of
  · rintro _ ⟨⟩
  · intro _
    exact ⟨s.queue, b, queue, ends⟩
  · intro one
    change s.holds = 1 at one
    simp only [current one]
    exact order.held one
  · refine ⟨a, ?_, ?_, ?_⟩
    · simp only [State.Next] at next ⊢
      change if s.holds = 0 then _ else _
      split
      · rename_i zero
        rw [if_pos zero] at next
        exact next
      · rename_i some
        rw [if_neg some] at next
        have one : s.holds = 1 := by
          have le := holds_le s
          omega
        rw [current one]
        exact next
    · rw [queue]
      have pushed := loose.push rfl
      rw [ends] at pushed
      exact pushed
    · intro tight
      rw [queue]
      have pushed := (close tight).push rfl
      rw [ends] at pushed
      exact pushed
  · intro k at_k overflow
    obtain ⟨first, rest, some, follows⟩ := order.waits k at_k overflow
    rw [queue, some]
    exact ⟨first, rest ++ [b], rfl, follows⟩

omit order in
theorem Order.counting (ring : Ring s) (order : Order s pos free) (counts : s.callback = .counts) :
    Order { s with buf_count := s.buf_count + 1, callback := .idle } pos free := by
  obtain ⟨a, next, loose, close⟩ := order.chain
  have queue : State.queue { s with buf_count := s.buf_count + 1, callback := .idle } = s.queue := by
    have held := ring.held
    have same : s.buf_count + 1 - s.holds = s.buf_count - s.holds + 1 := by omega
    simp only [State.queue, counts, Callback.uncounted]
    change RingQueue.stored s.buffs s.buf_head (s.buf_count + 1 - s.holds + 0) = _
    rw [Nat.add_zero, same]
  have stop : State.stop { s with buf_count := s.buf_count + 1, callback := .idle } = s.stop := by
    simp only [State.stop, counts]
  constructor
  · exact order.seen
  · rw [queue]
    exact order.stored
  · rintro _ ⟨⟩
  · rintro ⟨⟩
  · exact order.held
  · rw [queue, stop]
    exact ⟨a, next, loose, close⟩
  · rw [queue]
    exact order.waits

theorem Order.drops (at_p : s.place = .reads numElems) (some : s.bufferedElems ≠ 0) :
    Order { s with
      place := .acquires numElems
      bufferedElems := 0
      buf_count := s.buf_count - 1
      log := s.log ++ [.gap] } pos true := by
  have one : s.holds = 1 := by simp only [State.holds, at_p, if_neg some]
  obtain ⟨a, next, loose, close⟩ := order.chain
  obtain ⟨of, elems, follows⟩ := order.held one
  have queue : State.queue { s with
      place := .acquires numElems
      bufferedElems := 0
      buf_count := s.buf_count - 1
      log := s.log ++ [.gap] } = s.queue := by
    simp only [State.queue, one]
    rfl
  have behind : pos ≤ a := by
    simp only [State.Next, one, Nat.one_ne_zero, if_false, Block.stop] at next
    have after := follows.after
    omega
  constructor
  · exact .gap order.seen trivial
  · rw [queue]
    exact order.stored
  · exact order.pending
  · rw [queue]
    exact order.last
  · rintro ⟨⟩
  · rw [queue]
    refine ⟨a, .behind behind trivial, loose, ?_⟩
    intro tight
    exact close (.inl (tight.resolve_right id))
  · rintro _ ⟨⟩

theorem Order.drains {s' : State n α} {free' : Bool} (zero : s.holds = 0)
    (ring : s'.buffs = s.buffs ∧ s'.buf_head = slot s.buf_head s.buf_count ∧ s'.buf_count = 0 ∧
      s'.callback = s.callback ∧ s'.arrived = s.arrived)
    (seen : InOrder anywhere s.arrived s'.log pos free') (zero' : s'.holds = 0)
    (gap : (free' || s'.place = .overflowed) = true) (waits : ∀ k, s'.place ≠ .waits k) :
    Order s' pos free' := by
  obtain ⟨buffs, head, count, callback, arrived⟩ := ring
  obtain ⟨a, next, loose, -⟩ := order.chain
  have queue : s'.queue =
      RingQueue.stored s.buffs (slot s.buf_head s.buf_count) s.callback.uncounted := by
    simp [State.queue, buffs, head, count, callback, zero']
  have split : s.queue = RingQueue.stored s.buffs s.buf_head s.buf_count ++ s'.queue := by
    rw [queue, ← RingQueue.stored_add]
    simp [State.queue, zero]
  have stop : s'.stop = s.stop := by simp only [State.stop, callback, arrived]
  have behind : pos ≤ a := by
    simp only [State.Next, zero, if_true] at next
    exact next.after
  have left : Chained false pos s'.queue s.stop := by
    rw [split] at loose
    exact loose.skip.earlier behind
  constructor
  · rw [arrived]
    exact seen
  · intro b member
    rw [arrived]
    apply order.stored b
    rw [split]
    exact List.mem_append_right _ member
  · rw [callback, arrived]
    exact order.pending
  · intro counts
    rw [callback] at counts
    obtain ⟨front, b, whole, ends⟩ := order.last counts
    have one : s'.queue = [s.buffs (slot s.buf_head s.buf_count)] := by
      rw [queue, counts]
      rfl
    rw [split, one] at whole
    obtain ⟨-, same⟩ := List.append_inj' whole rfl
    exact ⟨[], b, by rw [one, same]; rfl, by rw [arrived, ends]⟩
  · intro held
    simp [zero'] at held
  · have next' : ∀ a', pos ≤ a' → s'.Next pos free' a' := by
      intro a' later
      simp only [State.Next, zero', if_true, gap]
      exact .behind later trivial
    rw [stop]
    cases place : s.callback with
    | counts =>
      have one : s'.queue = [s.buffs (slot s.buf_head s.buf_count)] := by
        rw [queue, place]
        rfl
      obtain ⟨front, b, whole, ends⟩ := order.last place
      rw [split, one] at whole
      obtain ⟨-, same⟩ := List.append_inj' whole rfl
      have here := List.singleton_inj.mp same
      have last : s.stop = s.arrived.length := by simp only [State.stop, place]
      rw [one] at left ⊢
      refine ⟨(s.buffs (slot s.buf_head s.buf_count)).start, next' _ left.1,
        ⟨Nat.le_refl _, left.2⟩, fun _ => ⟨rfl, ?_⟩⟩
      change Block.stop _ = _
      rw [here, ends, last]
    | idle | stores =>
      have none : s'.queue = [] := by
        rw [queue, place]
        rfl
      rw [none] at left ⊢
      exact ⟨s.stop, next' _ left, Nat.le_refl _, fun _ => rfl⟩
  · intro k at_k
    exact absurd at_k (waits k)

theorem Order.tells (at_p : s.place = .overflowed) (none : s.bufferedElems = 0) :
    Order { s with place := .idle, overflowEvent := false, log := s.log ++ [.gap] } pos true := by
  have zero : s.holds = 0 := by simp only [State.holds, at_p]
  have zero' : State.holds { s with
      place := .idle, overflowEvent := false, log := s.log ++ [.gap] } = 0 := by
    simp [State.holds, none]
  obtain ⟨a, next, loose, close⟩ := order.chain
  have queue : State.queue { s with
      place := .idle, overflowEvent := false, log := s.log ++ [.gap] } = s.queue := by
    simp only [State.queue, zero, zero']
  have behind : pos ≤ a := by
    simp only [State.Next, zero, if_true] at next
    exact next.after
  constructor
  · exact .gap order.seen trivial
  · rw [queue]
    exact order.stored
  · exact order.pending
  · rw [queue]
    exact order.last
  · intro one
    simp [zero'] at one
  · rw [queue]
    refine ⟨a, ?_, loose, fun _ => close (.inr (by rw [at_p]; trivial))⟩
    simp only [State.Next, zero', if_true, Bool.true_or]
    exact .behind behind trivial
  · rintro _ ⟨⟩

theorem Order.acquires (at_p : s.place = .waits numElems) (some : s.buf_count ≠ 0) :
    Order { s with
      place := .copies numElems
      currentHandle := s.buf_head
      currentBuff := 0
      buf_head := slot s.buf_head 1
      bufferedElems := (s.buffs s.buf_head).data.length } pos free := by
  have zero : s.holds = 0 := by simp only [State.holds, at_p]
  obtain ⟨a, next, loose, close⟩ := order.chain
  let s' : State n α := { s with
    place := .copies numElems
    currentHandle := s.buf_head
    currentBuff := 0
    buf_head := slot s.buf_head 1
    bufferedElems := (s.buffs s.buf_head).data.length }
  have queue : s.queue = s.buffs s.buf_head :: s'.queue := by
    have rest : s.buf_count + s.callback.uncounted - 1 = s.buf_count - 1 + s.callback.uncounted := by
      omega
    simp only [State.queue, zero, Nat.sub_zero]
    rw [RingQueue.stored_of_pos (by omega), rest]
    rfl
  have follows : MayFollow anywhere pos free (s.buffs s.buf_head).start := by
    by_cases overflow : s.overflowEvent = true
    · obtain ⟨b, rest, first, follows⟩ := order.waits numElems at_p overflow
      rw [queue] at first
      rw [(List.cons.inj first).1]
      exact follows
    · have tight := close (.inl (by simpa using overflow))
      rw [queue] at tight
      simp only [State.Next, zero, if_true, at_p] at next
      rw [← tight.1]
      simpa using next
  change Order s' pos free
  constructor
  · exact order.seen
  · intro b member
    apply order.stored b
    rw [queue]
    exact List.mem_cons_of_mem _ member
  · exact order.pending
  · intro counts
    obtain ⟨front, b, whole, ends⟩ := order.last counts
    rw [queue] at whole
    cases front with
    | nil =>
      -- At least one buffer is counted, so the last one is not the first.
      have short : s'.queue = [] := (List.cons.inj whole).2
      have long : s'.queue.length = s.buf_count - 1 + 1 := by
        change (RingQueue.stored _ _ (s.buf_count - 1 + s.callback.uncounted)).length = _
        rw [RingQueue.stored_length, show s.callback = .counts from counts]
        rfl
      rw [short] at long
      cases long
    | cons c front => exact ⟨front, b, (List.cons.inj whole).2, ends⟩
  · intro _
    exact ⟨order.stored _ (by rw [queue]; exact List.mem_cons_self), Nat.zero_add _, follows⟩
  · rw [queue] at loose
    refine ⟨(s.buffs s.buf_head).stop, rfl, loose.2, ?_⟩
    intro tight
    have whole := close (.inl (tight.resolve_right id))
    rw [queue] at whole
    exact whole.2
  · rintro _ ⟨⟩

theorem Order.copies {k : Nat} (at_p : s.place = .copies numElems) (within : k ≤ s.bufferedElems)
    (still : State.holds { s with place := place, bufferedElems := s.bufferedElems - k } = 1)
    (apart : ¬ place.Draining ∧ ∀ k, place ≠ .waits k) :
    Order { s with
      place := place
      bufferedElems := s.bufferedElems - k
      currentBuff := s.currentBuff + k
      log := s.log ++ [.samples (((s.buffs s.currentHandle).drop s.currentBuff).take k)] }
      ((s.buffs s.currentHandle).start + (s.currentBuff + k)) false := by
  have one : s.holds = 1 := by simp only [State.holds, at_p]
  obtain ⟨a, next, loose, close⟩ := order.chain
  obtain ⟨of, elems, follows⟩ := order.held one
  have seen := order.seen.read (of.drop s.currentBuff) follows (k := k) (by
    simp only [Block.drop, List.length_drop]
    omega)
  rw [Block.take_drop] at seen
  have queue : State.queue { s with
      place := place
      bufferedElems := s.bufferedElems - k
      currentBuff := s.currentBuff + k
      log := s.log ++ [.samples (((s.buffs s.currentHandle).drop s.currentBuff).take k)] } =
      s.queue := by
    simp only [State.queue, one]
    change RingQueue.stored s.buffs s.buf_head (s.buf_count - State.holds { s with
      place := place, bufferedElems := s.bufferedElems - k } + s.callback.uncounted) = _
    rw [still]
  constructor
  · exact seen
  · rw [queue]
    exact order.stored
  · exact order.pending
  · rw [queue]
    exact order.last
  · intro _
    refine ⟨of, ?_, .here _⟩
    simp only
    omega
  · rw [queue]
    refine ⟨a, ?_, loose, ?_⟩
    · simp only [State.Next, one, Nat.one_ne_zero, if_false] at next
      change if State.holds { s with place := place, bufferedElems := s.bufferedElems - k } = 0 then
        _ else _
      rw [still]
      exact next
    · intro tight
      exact close (.inl (tight.resolve_right apart.1))
  · intro k at_k
    exact absurd at_k (apart.2 k)

theorem Order.releases (at_p : s.place = .releases) (none : s.bufferedElems = 0) :
    Order { s with place := .idle, buf_count := s.buf_count - 1 } pos free := by
  have one : s.holds = 1 := by simp only [State.holds, at_p]
  have zero : State.holds { s with place := .idle, buf_count := s.buf_count - 1 } = 0 := by
    simp [State.holds, none]
  obtain ⟨a, next, loose, close⟩ := order.chain
  obtain ⟨of, elems, follows⟩ := order.held one
  have queue : State.queue { s with place := .idle, buf_count := s.buf_count - 1 } = s.queue := by
    simp only [State.queue, one, zero]
    rfl
  constructor
  · exact order.seen
  · rw [queue]
    exact order.stored
  · exact order.pending
  · rw [queue]
    exact order.last
  · intro held
    simp [zero] at held
  · rw [queue]
    refine ⟨a, ?_, loose, ?_⟩
    · simp only [State.Next, one, Nat.one_ne_zero, if_false, Block.stop] at next
      have here : a = (s.buffs s.currentHandle).start + s.currentBuff := by omega
      unfold State.Next
      rw [if_pos zero, here]
      simpa using follows
    · intro tight
      exact close (.inl (tight.resolve_right id))
  · rintro _ ⟨⟩

end

end Steps

section Steps

variable {s s' : State n α}

theorem Ring.stays (ring : Ring s)
    (same : s'.buf_head = s.buf_head ∧ s'.buf_tail = s.buf_tail ∧ s'.buf_count = s.buf_count ∧
      s'.callback = s.callback ∧ s'.currentHandle = s.currentHandle)
    (holds : s'.holds = s.holds) (empty : s'.place.Empty → s'.bufferedElems = 0) : Ring s' := by
  obtain ⟨head, tail, count, callback, handle⟩ := same
  constructor
  · rw [holds, count]
    exact ring.held
  · rw [count, callback]
    exact ring.room
  · rw [callback, count]
    exact ring.stores
  · rw [tail, head, count, holds, callback]
    exact ring.tail
  · rw [holds, handle, head]
    exact ring.handle
  · exact empty

theorem Ring.arrives (ring : Ring s) (idle : s.callback = .idle) (full : s.buf_count ≠ n) :
    Ring { s with
      callback := .stores ⟨s.arrived.length, data⟩
      arrived := s.arrived ++ data } := by
  have room := ring.room
  have tail := ring.tail
  rw [idle] at room tail
  change s.buf_count + 0 ≤ n at room
  constructor
  · exact ring.held
  · exact room
  · intro b _
    change s.buf_count < n
    omega
  · exact tail
  · exact ring.handle
  · exact ring.empty

theorem Ring.storing (ring : Ring s) (stores : s.callback = .stores b) :
    Ring { s with
      buffs := Function.update s.buffs s.buf_tail b
      buf_tail := slot s.buf_tail 1
      callback := .counts } := by
  have below := ring.stores b stores
  constructor
  · exact ring.held
  · change s.buf_count + 1 ≤ n
    omega
  · nofun
  · change slot s.buf_tail 1 = slot s.buf_head (s.buf_count - s.holds + 1)
    rw [ring.tail, stores, slot_slot]
    rfl
  · exact ring.handle
  · exact ring.empty

theorem Ring.counting (ring : Ring s) (counts : s.callback = .counts) :
    Ring { s with buf_count := s.buf_count + 1, callback := .idle } := by
  have held := ring.held
  have room := ring.room
  rw [counts] at room
  constructor
  · change s.holds ≤ s.buf_count + 1
    omega
  · exact room
  · nofun
  · have same : s.buf_count + 1 - s.holds = s.buf_count - s.holds + 1 := by omega
    change s.buf_tail = slot s.buf_head (s.buf_count + 1 - s.holds + 0)
    rw [ring.tail, counts, Nat.add_zero, same]
    rfl
  · exact ring.handle
  · exact ring.empty

theorem Ring.acquires (ring : Ring s) (at_p : s.place = .waits numElems) (some : s.buf_count ≠ 0) :
    Ring { s with
      place := .copies numElems
      currentHandle := s.buf_head
      currentBuff := 0
      buf_head := slot s.buf_head 1
      bufferedElems := (s.buffs s.buf_head).data.length } := by
  have zero : s.holds = 0 := by simp only [State.holds, at_p]
  constructor
  · exact Nat.pos_of_ne_zero some
  · exact ring.room
  · exact ring.stores
  · change s.buf_tail = slot (slot s.buf_head 1) (s.buf_count - 1 + s.callback.uncounted)
    have whole : 1 + (s.buf_count - 1 + s.callback.uncounted) =
        s.buf_count + s.callback.uncounted := by omega
    rw [slot_slot, whole, ring.tail, zero, Nat.sub_zero]
  · intro _
    rfl
  · nofun

theorem Ring.drains {log : List (Seen α)} (ring : Ring s) (zero : s.holds = 0)
    (none : s.bufferedElems = 0) (zero' : State.holds { s with place := place } = 0) :
    Ring { s with
      place := place
      buf_head := slot s.buf_head s.buf_count
      buf_count := 0
      log := log } := by
  have room := ring.room
  constructor
  · change State.holds { s with place := place } ≤ 0
    rw [zero']
  · change 0 + s.callback.uncounted ≤ n
    omega
  · intro b _
    exact Nat.pos_of_ne_zero (NeZero.ne n)
  · change s.buf_tail = slot (slot s.buf_head s.buf_count) (0 - _ + s.callback.uncounted)
    rw [slot_slot, ring.tail, zero, Nat.sub_zero, Nat.zero_sub, Nat.zero_add]
  · intro one
    change State.holds { s with place := place } = 1 at one
    simp [zero'] at one
  · intro _
    exact none

theorem Ring.releases {log : List (Seen α)} (ring : Ring s) (one : s.holds = 1)
    (zero : State.holds { s with place := place, bufferedElems := 0 } = 0) :
    Ring { s with
      place := place
      bufferedElems := 0
      buf_count := s.buf_count - 1
      log := log } := by
  have held := ring.held
  have room := ring.room
  constructor
  · change State.holds { s with place := place, bufferedElems := 0 } ≤ _
    rw [zero]
    exact Nat.zero_le _
  · change s.buf_count - 1 + s.callback.uncounted ≤ n
    omega
  · intro b stores
    have below := ring.stores b stores
    change s.buf_count - 1 < n
    omega
  · change s.buf_tail = slot s.buf_head
      (s.buf_count - 1 - State.holds { s with place := place, bufferedElems := 0 } + _)
    rw [zero, ring.tail, one]
    rfl
  · intro held
    change State.holds { s with place := place, bufferedElems := 0 } = 1 at held
    simp [zero] at held
  · intro _
    rfl

theorem Ring.step {a : Act α} (ring : Ring s) (calm : a = .activateStream → s.bufferedElems = 0)
    (step : Step s a s') : Ring s' := by
  cases step with
  | @arrive data idle joined =>
    split
    · exact ring.stays ⟨rfl, rfl, rfl, rfl, rfl⟩ rfl ring.empty
    · rename_i full
      exact ring.arrives idle full
  | store stores => exact ring.storing stores
  | count counts => exact ring.counting counts
  | activateStream at_p =>
    have none := calm rfl
    refine ring.stays ⟨rfl, rfl, rfl, rfl, rfl⟩ ?_ ?_
    · simp [State.holds, at_p, none]
    · exact fun _ => rfl
  | deactivateStream at_p idle => exact ring.stays ⟨rfl, rfl, rfl, rfl, rfl⟩ rfl ring.empty
  | request_reset => exact ring.stays ⟨rfl, rfl, rfl, rfl, rfl⟩ rfl ring.empty
  | readStream at_p =>
    refine ring.stays ⟨rfl, rfl, rfl, rfl, rfl⟩ ?_ ?_
    · simp only [State.holds, at_p]
    · nofun
  | drop_remainder at_p reset some =>
    have one : s.holds = 1 := by simp only [State.holds, at_p, if_neg some]
    exact ring.releases one rfl
  | keep_remainder at_p keep =>
    by_cases none : s.bufferedElems = 0
    · rw [if_pos none]
      refine ring.stays ⟨rfl, rfl, rfl, rfl, rfl⟩ ?_ ?_
      · simp only [State.holds, at_p, if_pos none]
      · exact fun _ => none
    · rw [if_neg none]
      refine ring.stays ⟨rfl, rfl, rfl, rfl, rfl⟩ ?_ ?_
      · simp only [State.holds, at_p, if_neg none]
      · nofun
  | drain at_p reset =>
    have zero : s.holds = 0 := by simp only [State.holds, at_p]
    exact ring.drains zero (ring.empty (by rw [at_p]; trivial)) rfl
  | no_reset at_p reset =>
    refine ring.stays ⟨rfl, rfl, rfl, rfl, rfl⟩ ?_ ?_
    · simp only [State.holds, at_p]
    · exact fun _ => ring.empty (by rw [at_p]; trivial)
  | unset_reset at_p =>
    refine ring.stays ⟨rfl, rfl, rfl, rfl, rfl⟩ ?_ ?_
    · simp only [State.holds, at_p]
    · exact fun _ => ring.empty (by rw [at_p]; trivial)
  | unset_overflow at_p =>
    refine ring.stays ⟨rfl, rfl, rfl, rfl, rfl⟩ ?_ ?_
    · simp only [State.holds, at_p]
    · exact fun _ => ring.empty (by rw [at_p]; trivial)
  | drain_overflow at_p overflow =>
    have zero : s.holds = 0 := by simp only [State.holds, at_p]
    exact ring.drains zero (ring.empty (by rw [at_p]; trivial)) rfl
  | no_overflow at_p off =>
    refine ring.stays ⟨rfl, rfl, rfl, rfl, rfl⟩ ?_ ?_
    · simp only [State.holds, at_p]
    · exact fun _ => ring.empty (by rw [at_p]; trivial)
  | return_overflow at_p =>
    have none : s.bufferedElems = 0 := ring.empty (by rw [at_p]; trivial)
    refine ring.stays ⟨rfl, rfl, rfl, rfl, rfl⟩ ?_ ?_
    · simp [State.holds, at_p, none]
    · exact fun _ => none
  | timeout at_p _ =>
    have none : s.bufferedElems = 0 := ring.empty (by rw [at_p]; trivial)
    refine ring.stays ⟨rfl, rfl, rfl, rfl, rfl⟩ ?_ ?_
    · simp [State.holds, at_p, none]
    · exact fun _ => none
  | acquire at_p some => exact ring.acquires at_p some
  | @copy numElems at_p =>
    have one : s.holds = 1 := by simp only [State.holds, at_p]
    by_cases some : s.bufferedElems - min s.bufferedElems numElems ≠ 0
    · rw [if_pos some]
      refine ring.stays ⟨rfl, rfl, rfl, rfl, rfl⟩ (Eq.trans ?_ one.symm) nofun
      simp only [State.holds, if_neg some]
    · rw [if_neg some]
      exact ring.stays ⟨rfl, rfl, rfl, rfl, rfl⟩ one.symm fun _ => not_ne_iff.mp some
  | release at_p =>
    have one : s.holds = 1 := by simp only [State.holds, at_p]
    have none : s.bufferedElems = 0 := ring.empty (by rw [at_p]; trivial)
    have released : Ring { s with
        place := .idle, bufferedElems := 0, buf_count := s.buf_count - 1, log := s.log } :=
      ring.releases one rfl
    rw [← none] at released
    exact released

end Steps

theorem Inv.step {s s' : State n α} {a : Act α} (inv : Inv s) (meets : Meets s a)
    (step : Step s a s') : Inv s' := by
  have ⟨ring, pos, free, order⟩ := inv
  refine ⟨ring.step (fun here => by subst here; exact meets) step, ?_⟩
  cases step with
  | @arrive data idle joined =>
    by_cases full : s.buf_count = n
    · rw [if_pos full]
      have apart : ¬ s.place.Draining := fun drains => meets drains full
      exact ⟨pos, free, order.dropped idle full apart⟩
    · rw [if_neg full]
      exact ⟨pos, free, order.arrives idle⟩
  | store stores => exact ⟨pos, free, order.storing ring stores⟩
  | count counts => exact ⟨pos, free, order.counting ring counts⟩
  | activateStream at_p =>
    have none : s.bufferedElems = 0 := meets
    refine ⟨pos, free, order.stays ⟨rfl, rfl, rfl, rfl, rfl, rfl⟩
      ⟨?_, rfl, rfl, fun _ => none.symm⟩ Iff.rfl id fun k at_k overflow => ⟨k, at_k, overflow⟩⟩
    simp [State.holds, at_p, none]
  | deactivateStream at_p idle =>
    exact ⟨pos, free, order.moves rfl Iff.rfl id fun k at_k overflow => ⟨k, at_k, overflow⟩⟩
  | request_reset =>
    exact ⟨pos, free, order.moves rfl Iff.rfl id fun k at_k overflow => ⟨k, at_k, overflow⟩⟩
  | @readStream numElems at_p =>
    refine ⟨pos, free, order.moves ?_ ?_ (fun tight => .inl (tight.resolve_right id)) nofun⟩
    · simp only [State.holds, at_p]
    · simp [at_p]
  | drop_remainder at_p reset some => exact ⟨pos, true, order.drops at_p some⟩
  | @keep_remainder numElems at_p keep =>
    by_cases none : s.bufferedElems = 0
    · rw [if_pos none]
      refine ⟨pos, free, order.moves ?_ ?_ (fun tight => .inl (tight.resolve_right id)) nofun⟩
      · simp only [State.holds, at_p, if_pos none]
      · simp [at_p]
    · rw [if_neg none]
      refine ⟨pos, free, order.moves ?_ ?_ (fun tight => .inl (tight.resolve_right id)) nofun⟩
      · simp only [State.holds, at_p, if_neg none]
      · simp [at_p]
  | drain at_p reset =>
    have zero : s.holds = 0 := by simp only [State.holds, at_p]
    refine ⟨pos, true, order.drains zero ⟨rfl, rfl, rfl, rfl, rfl⟩ ?_ rfl rfl nofun⟩
    exact .gap order.seen trivial
  | no_reset at_p reset =>
    refine ⟨pos, free, order.moves ?_ ?_ (fun tight => .inl (tight.resolve_right id)) nofun⟩
    · simp only [State.holds, at_p]
    · simp [at_p]
  | unset_reset at_p =>
    refine ⟨pos, free, order.moves ?_ ?_ (fun _ => .inr (by rw [at_p]; trivial)) nofun⟩
    · simp only [State.holds, at_p]
    · simp [at_p]
  | unset_overflow at_p =>
    refine ⟨pos, free, order.moves ?_ ?_ (fun _ => .inr (by rw [at_p]; trivial)) nofun⟩
    · simp only [State.holds, at_p]
    · simp [at_p]
  | drain_overflow at_p overflow =>
    have zero : s.holds = 0 := by simp only [State.holds, at_p]
    refine ⟨pos, free, order.drains zero ⟨rfl, rfl, rfl, rfl, rfl⟩ order.seen rfl ?_ nofun⟩
    simp
  | no_overflow at_p off =>
    refine ⟨pos, free, order.moves ?_ ?_ (fun _ => .inl off) ?_⟩
    · simp only [State.holds, at_p]
    · simp [at_p]
    · intro k _ overflow
      cases off.symm.trans overflow
  | return_overflow at_p =>
    exact ⟨pos, true, order.tells at_p (ring.empty (by rw [at_p]; trivial))⟩
  | timeout at_p _ =>
    have none : s.bufferedElems = 0 := ring.empty (by rw [at_p]; trivial)
    refine ⟨pos, free, order.moves ?_ ?_ (fun tight => .inl (tight.resolve_right id)) nofun⟩
    · simp [State.holds, at_p, none]
    · simp [at_p]
  | acquire at_p some => exact ⟨pos, free, order.acquires at_p some⟩
  | @copy numElems at_p =>
    let k := min s.bufferedElems numElems
    let place : Place := if s.bufferedElems - k ≠ 0 then .idle else .releases
    have holds : State.holds { s with place := place, bufferedElems := s.bufferedElems - k } = 1 := by
      by_cases some : s.bufferedElems - k ≠ 0
      · simp only [State.holds, place, if_pos some, if_neg some]
      · simp only [State.holds, place, if_neg some]
    have apart : ¬ place.Draining ∧ ∀ k, place ≠ .waits k := by
      by_cases some : s.bufferedElems - k ≠ 0
      · simp [place, if_pos some, Place.Draining]
      · simp [place, if_neg some, Place.Draining]
    exact ⟨_, false, order.copies at_p (Nat.min_le_left _ _) holds apart⟩
  | release at_p =>
    exact ⟨pos, free, order.releases at_p (ring.empty (by rw [at_p]; trivial))⟩

theorem Inv.of_run {s : State n α} (run : Runs Step Meets State.start s) : Inv s :=
  run.keeps (fun _ _ _ inv meets step => inv.step meets step) Inv.start

/-- Between calls the tail is as far behind the head as buffers wait, and what is read is in
    order but behind a reset or an overflow. -/
theorem samples_in_order {s : State n α} (run : Runs Step Meets State.start s) :
    (s.place = .idle → s.callback = .idle →
      (if s.bufferedElems = 0 then 0 else 1) ≤ s.buf_count ∧ s.buf_count ≤ n ∧
      s.buf_tail = slot s.buf_head (s.buf_count - if s.bufferedElems = 0 then 0 else 1)) ∧
    ∃ pos free, InOrder anywhere s.arrived s.log pos free := by
  obtain ⟨ring, pos, free, order⟩ := Inv.of_run run
  refine ⟨?_, pos, free, order.seen⟩
  intro at_p idle
  have holds : s.holds = if s.bufferedElems = 0 then 0 else 1 := by
    simp only [State.holds, at_p]
  have room := ring.room
  have tail := ring.tail
  rw [← holds]
  rw [idle] at room tail
  exact ⟨ring.held, room, tail⟩

theorem partly_read : ∃ s : State 1 Nat, Runs Step Meets State.start s ∧ s.bufferedElems = 1 ∧
    s.buf_tail = slot s.buf_head (s.buf_count - 1) ∧
    ∃ pos free, InOrder anywhere s.arrived [.gap, .samples ⟨0, [10, 11]⟩] pos free := by
  have start : Runs Step Meets (State.start : State 1 Nat) State.start := .refl
  have copied := start
    |>.tail (.activateStream rfl) rfl
    |>.tail (a := Act.readStream 2) (.readStream rfl)
    |>.tail (a := Act.keep_remainder) (.keep_remainder rfl (.inr rfl))
    |>.tail (.drain rfl rfl)
    |>.tail (.unset_reset rfl)
    |>.tail (.unset_overflow rfl)
    |>.tail (.no_overflow rfl rfl)
    |>.tail (a := Act.arrive [10, 11, 12]) (.arrive rfl rfl) False.elim
    |>.tail (.store rfl)
    |>.tail (.count rfl)
    |>.tail (.acquire rfl nofun)
    |>.tail (.copy rfl)
  have ordered := samples_in_order copied
  exact ⟨_, copied, rfl, (ordered.1 rfl rfl).2.2, ordered.2⟩

/-- A stream activated while a buffer is partly read moves the head past the tail, and the buffer is
    read once more. A ring that overflows while it is drained loses samples without a gap. -/
theorem order_breaks :
    (∃ s : State 2 Nat, Runs Step (fun _ _ => True) State.start s ∧ s.place = .idle ∧
      s.callback = .idle ∧
      s.buf_tail ≠ slot s.buf_head (s.buf_count - if s.bufferedElems = 0 then 0 else 1) ∧
      ¬ ∃ pos free, InOrder anywhere s.arrived s.log pos free) ∧
    ∃ s : State 1 Nat, Runs Step (fun _ _ => True) State.start s ∧
      ¬ ∃ pos free, InOrder anywhere s.arrived s.log pos free := by
  constructor
  · have start : Runs Step (fun _ _ => True) (State.start : State 2 Nat) State.start := .refl
    have activated := start
      |>.tail (.activateStream rfl)
      |>.tail (a := Act.readStream 1) (.readStream rfl)
      |>.tail (.keep_remainder rfl (.inr rfl))
      |>.tail (.drain rfl rfl)
      |>.tail (.unset_reset rfl)
      |>.tail (.unset_overflow rfl)
      |>.tail (.no_overflow rfl rfl)
      |>.tail (a := Act.arrive [10, 11]) (.arrive rfl rfl)
      |>.tail (.store rfl)
      |>.tail (.count rfl)
      |>.tail (.acquire rfl nofun)
      |>.tail (.copy rfl)
      |>.tail (.activateStream rfl)
    have called := activated.tail (a := Act.readStream 1) (.readStream rfl)
    have asked := called.tail (.keep_remainder rfl (.inr rfl))
    have drained := asked.tail (.drain rfl rfl)
    have unset := drained.tail (.unset_reset rfl)
    have checks := unset.tail (.unset_overflow rfl)
    have waits := checks.tail (.no_overflow rfl rfl)
    have arrived := waits.tail (a := Act.arrive [12, 13]) (.arrive rfl rfl)
    have stored := arrived.tail (.store rfl)
    have counted := stored.tail (.count rfl)
    have acquired := counted.tail (.acquire rfl nofun)
    have copied := acquired.tail (.copy rfl)
    refine ⟨_, copied, rfl, rfl, by decide, ?_⟩
    rintro ⟨pos, free, order⟩
    obtain ⟨pos', free', before, follows, -, -⟩ :=
      InOrder.before_samples [.gap, .samples ⟨0, [10]⟩, .gap] order
    obtain ⟨free'', before, -⟩ := InOrder.before_gap [.gap, .samples ⟨0, [10]⟩] before
    obtain ⟨-, -, -, -, stop, -⟩ := InOrder.before_samples [.gap] before
    rw [stop] at follows
    exact absurd follows.after (by decide)
  · have start : Runs Step (fun _ _ => True) (State.start : State 1 Nat) State.start := .refl
    have copied := start
      |>.tail (.activateStream rfl)
      |>.tail (a := Act.readStream 1) (.readStream rfl)
      |>.tail (.keep_remainder rfl (.inr rfl))
      |>.tail (.drain rfl rfl)
      |>.tail (a := Act.arrive [10]) (.arrive rfl rfl)
      |>.tail (.store rfl)
      |>.tail (.count rfl)
      |>.tail (a := Act.arrive [11]) (.arrive rfl rfl)
      |>.tail (.unset_reset rfl)
      |>.tail (.unset_overflow rfl)
      |>.tail (.no_overflow rfl rfl)
      |>.tail (.acquire rfl nofun)
      |>.tail (.copy rfl)
      |>.tail (.release rfl)
      |>.tail (a := Act.arrive [12]) (.arrive rfl rfl)
      |>.tail (.store rfl)
      |>.tail (.count rfl)
      |>.tail (a := Act.readStream 1) (.readStream rfl)
      |>.tail (.keep_remainder rfl (.inr rfl))
      |>.tail (.no_reset rfl rfl)
      |>.tail (.no_overflow rfl rfl)
      |>.tail (.acquire rfl nofun)
      |>.tail (.copy rfl)
    refine ⟨_, copied, ?_⟩
    rintro ⟨pos, free, order⟩
    obtain ⟨pos', free', before, follows, -, -⟩ :=
      InOrder.before_samples [.gap, .samples ⟨0, [10]⟩] order
    obtain ⟨-, -, -, -, stop, tight⟩ := InOrder.before_samples [.gap] before
    rw [stop] at follows
    exact absurd (follows.exactly tight) (by decide)

end Soapy.Receive.RTLSDR
