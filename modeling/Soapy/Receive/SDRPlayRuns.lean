import Soapy.Lib.SampleQueue
import Soapy.Receive.SDRPlay

/-! # What the reader of an SDRplay stream gets

The complete buffers from the head on wait for the reader, the one behind them is filled. When
the ring overflowed nothing more is read of them but the first one, by a reader that waits.
-/

namespace Soapy.Receive.SDRPlay

open Lib HandleRing

variable {n : Nat} [NeZero n] {α : Type} {c : Config}

def State.holds (s : State n α) : Nat :=
  match s.acquired with
  | some _ => 1
  | none => 0

def State.rest (s : State n α) : List (Block α) :=
  match s.acquired with
  | some handle => [(s.buffs handle).drop s.currentBuff]
  | none => []

/-- The complete buffers that wait for the reader. -/
def State.queue (s : State n α) : List (Block α) :=
  RingQueue.stored s.buffs s.head (s.count - s.holds)

def State.readable (s : State n α) : List (Block α) :=
  if s.overflowEvent then
    match s.place with
    | .waits _ => s.queue.take 1
    | _ => []
  else s.queue

def State.filling (s : State n α) : List α := if s.count < n then (s.buffs s.tail).data else []

/-- What is known where the reader is. -/
def State.At (s : State n α) : Prop :=
  match s.place with
  | .idle => s.acquired = none ↔ s.nElems = 0
  | .acquires _ | .waits _ => s.acquired = none ∧ s.nElems = 0
  | .copies _ => s.acquired ≠ none
  | .releases => s.acquired ≠ none ∧ s.nElems = 0

structure Inv (c : Config) (s : State n α) : Prop where
  held : s.holds ≤ s.count
  room : s.count ≤ n
  tail : s.tail = slot s.head (s.count - s.holds)
  acquired : ∀ handle, s.acquired = some handle → s.currentHandle = handle ∧
    slot handle 1 = s.head ∧ s.currentBuff + s.nElems = (s.buffs handle).data.length
  unread : ∀ i, s.unread i = true →
    s.acquired = some i ∨ ∃ k, k < s.count - s.holds ∧ slot s.head k = i
  empty : ∀ k, s.count - s.holds < k → k + s.holds < n → (s.buffs (slot s.head k)).data = []
  fits : ∀ i, c.size (s.buffs i) ≤ c.bufferLength
  kept : s.misfilled = false
  full : ∀ k, s.place = .waits k → s.overflowEvent = true → s.count ≠ 0
  place : s.At
  ready : ∃ stop, Ready anywhere s.arrived s.log false (s.rest ++ s.readable) stop ∧
    (s.overflowEvent = false →
      stop + s.filling.length = s.arrived.length ∧ s.filling <:+ s.arrived)

theorem Inv.start : Inv c (State.start : State n α) := by
  constructor
  · exact Nat.le_refl 0
  · exact Nat.zero_le n
  · exact (slot_zero 0).symm
  · nofun
  · nofun
  · intro k _ _
    rfl
  · intro i
    change c.shorts 0 ≤ _
    simp [Config.shorts]
  · rfl
  · nofun
  · exact Iff.intro (fun _ => rfl) (fun _ => rfl)
  · refine ⟨0, Ready.start, fun _ => ?_⟩
    have none : (State.start : State n α).filling = [] := by
      unfold State.filling
      split <;> rfl
    rw [none]
    exact ⟨rfl, List.suffix_rfl⟩

omit [NeZero n] in
theorem shorts_add (c : Config) (j k : Nat) : c.shorts (j + k) = c.shorts j + c.shorts k := by
  simp only [Config.shorts, Nat.add_mul]

theorem size_div (c : Config) (b : Block α) :
    c.size b / (elementsPerSample * c.shortsPerWord) = b.data.length := by
  have positive : 0 < elementsPerSample * c.shortsPerWord :=
    Nat.mul_pos (by decide) c.positive
  unfold Config.size Config.shorts
  rw [Nat.mul_assoc, Nat.mul_div_cancel _ positive]

omit [NeZero n] in
theorem fills_nil (s : State n α) : s.fills [] = s := by
  unfold State.fills
  simp

theorem completes_data (s : State n α) (i : Fin n) :
    (s.completes.buffs i).data = (s.buffs i).data := by
  simp only [State.completes]
  by_cases here : i = s.tail
  · rw [here, Function.update_self]
  · rw [Function.update_of_ne here]

theorem completes_size (s : State n α) (i : Fin n) :
    c.size (s.completes.buffs i) = c.size (s.buffs i) := by
  unfold Config.size
  rw [completes_data]

section Callback

variable {s : State n α}

theorem Inv.apart (inv : Inv c s) (room : s.count < n) {handle : Fin n}
    (held : s.acquired = some handle) : s.tail ≠ handle := by
  have one : s.holds = 1 := by simp only [State.holds, held]
  have some := inv.held
  rw [inv.tail]
  exact slot_apart (inv.acquired handle held).2.1 (by omega)

theorem Inv.rest_update (inv : Inv c s) (room : s.count < n) (b : Block α) :
    State.rest { s with buffs := Function.update s.buffs s.tail b } = s.rest := by
  unfold State.rest
  cases held : s.acquired with
  | none => rfl
  | some handle =>
    change [(Function.update s.buffs s.tail b handle).drop s.currentBuff] = _
    rw [Function.update_of_ne (inv.apart room held).symm]

/-- The samples are dropped, since the ring is full. -/
theorem Inv.loses {data : List α} (inv : Inv c s) (full : s.count = n) : Inv c (s.loses data) := by
  obtain ⟨stop, ready, -⟩ := inv.ready
  constructor
  · exact inv.held
  · exact inv.room
  · exact inv.tail
  · exact inv.acquired
  · exact inv.unread
  · exact inv.empty
  · exact inv.fits
  · exact inv.kept
  · intro _ _ _
    change s.count ≠ 0
    rw [full]
    exact NeZero.ne n
  · exact inv.place
  · -- What was readable begins with what still is.
    have shorter : ∃ back, s.rest ++ s.readable = (s.rest ++ (s.loses data).readable) ++ back := by
      have queue : (s.loses data).queue = s.queue := rfl
      unfold State.readable
      change ∃ back, _ = (s.rest ++ match s.place with
        | .waits _ => s.queue.take 1
        | _ => []) ++ back
      cases s.overflowEvent with
      | true => exact ⟨[], by rw [List.append_nil]; rfl⟩
      | false =>
        simp only [Bool.false_eq_true, if_false]
        split
        · refine ⟨s.queue.drop 1, ?_⟩
          rw [List.append_assoc, List.take_append_drop]
        · refine ⟨s.queue, ?_⟩
          rw [List.append_nil]
    obtain ⟨back, whole⟩ := shorter
    rw [whole] at ready
    obtain ⟨stop', first⟩ := ready.shorten
    exact ⟨stop', first.grow, nofun⟩

theorem Inv.completes (inv : Inv c s) (room : s.count < n) : Inv c s.completes := by
  have held := inv.held
  have holds : s.completes.holds = s.holds := rfl
  have count : s.count + 1 - s.holds = s.count - s.holds + 1 := by omega
  let b : Block α := ⟨s.arrived.length - (s.buffs s.tail).data.length, (s.buffs s.tail).data⟩
  have queue : s.completes.queue = s.queue ++ [b] := by
    unfold State.queue
    rw [holds]
    change RingQueue.stored (Function.update s.buffs s.tail b) s.head (s.count + 1 - s.holds) = _
    rw [count, inv.tail]
    exact RingQueue.stored_push s.buffs s.head (by omega) b
  have filling : s.completes.filling = [] := by
    unfold State.filling
    split
    · rename_i below
      change s.count + 1 < n at below
      rw [completes_data]
      change (s.buffs (slot s.tail 1)).data = []
      rw [inv.tail, slot_slot]
      exact inv.empty _ (by omega) (by omega)
    · rfl
  constructor
  · exact Nat.le_succ_of_le held
  · exact room
  · change slot s.tail 1 = slot s.head (s.count + 1 - s.holds)
    rw [count, inv.tail, slot_slot]
  · intro handle some
    obtain ⟨current, next, elems⟩ := inv.acquired handle some
    refine ⟨current, next, ?_⟩
    rw [completes_data]
    exact elems
  · intro i on
    change Function.update s.unread s.tail true i = true at on
    by_cases here : i = s.tail
    · refine .inr ⟨s.count - s.holds, ?_, ?_⟩
      · change s.count - s.holds < s.count + 1 - s.holds
        omega
      · rw [here]
        exact inv.tail.symm
    · rw [Function.update_of_ne here] at on
      rcases inv.unread i on with acquired | ⟨k, below, waits⟩
      · exact .inl acquired
      · refine .inr ⟨k, ?_, waits⟩
        change k < s.count + 1 - s.holds
        omega
  · intro k above below
    change s.count + 1 - s.holds < k at above
    rw [completes_data]
    exact inv.empty k (by omega) below
  · intro i
    rw [completes_size]
    exact inv.fits i
  · exact inv.kept
  · intro _ _ _
    exact Nat.succ_ne_zero s.count
  · exact inv.place
  · obtain ⟨stop, ready, last⟩ := inv.ready
    have rest : s.completes.rest = s.rest := inv.rest_update room b
    rw [filling, rest]
    cases overflow : s.overflowEvent with
    | false =>
      obtain ⟨length, suffix⟩ := last overflow
      have here : s.filling = (s.buffs s.tail).data := by
        unfold State.filling
        rw [if_pos room]
      rw [here] at length suffix
      have readable : s.completes.readable = s.readable ++ [b] := by
        have off : s.completes.overflowEvent = false := overflow
        simp only [State.readable, overflow, off, Bool.false_eq_true, if_false]
        exact queue
      have start : b.start = stop := by
        change s.arrived.length - (s.buffs s.tail).data.length = stop
        omega
      have of : b.Of s.arrived := by
        change (s.buffs s.tail).data <+: s.arrived.drop (s.arrived.length - _)
        rw [← List.suffix_iff_eq_drop.mp suffix]
      have pushed := ready.push of start
      rw [List.append_assoc, ← readable] at pushed
      refine ⟨b.stop, pushed, fun _ => ⟨?_, List.nil_suffix⟩⟩
      change b.start + (s.buffs s.tail).data.length + 0 = s.arrived.length
      omega
    | true =>
      have readable : s.completes.readable = s.readable := by
        have on : s.completes.overflowEvent = true := overflow
        simp only [State.readable, overflow, on, if_true]
        change (match s.place with
          | .waits _ => s.completes.queue.take 1
          | _ => []) = _
        cases at_p : s.place with
        | waits k =>
          -- An overflow while the reader waits filled the queue.
          have some := inv.full k at_p overflow
          have place := inv.place
          simp only [State.At, at_p] at place
          have zero : s.holds = 0 := by simp only [State.holds, place.1]
          have long : 1 ≤ s.queue.length := by
            unfold State.queue
            rw [RingQueue.stored_length, zero]
            exact Nat.pos_of_ne_zero some
          simp only
          rw [queue, List.take_append_of_le_length long]
        | idle | acquires | copies | releases => rfl
      rw [readable]
      refine ⟨stop, ready, ?_⟩
      intro off
      cases overflow.symm.trans off

theorem Inv.fills {data : List α} (inv : Inv c s) (room : s.count < n)
    (fits : c.size (s.buffs s.tail) + c.shorts data.length ≤ c.bufferLength) :
    Inv c (s.fills data) := by
  have held := inv.held
  let b : Block α := ⟨(s.buffs s.tail).start, (s.buffs s.tail).data ++ data⟩
  have queue : (s.fills data).queue = s.queue := by
    change RingQueue.stored (Function.update s.buffs s.tail b) s.head (s.count - s.holds) = _
    rw [inv.tail]
    exact RingQueue.stored_update_tail s.buffs s.head (by omega) b
  have rest : (s.fills data).rest = s.rest := inv.rest_update room b
  have readable : (s.fills data).readable = s.readable := by
    unfold State.readable
    rw [queue]
    rfl
  have free : s.unread s.tail = false := by
    by_contra on
    rcases inv.unread s.tail (Bool.eq_true_of_not_eq_false on) with acquired | ⟨k, below, waits⟩
    · exact inv.apart room acquired rfl
    · rw [inv.tail] at waits
      have same := slot_inj (by omega) (by omega) waits
      omega
  constructor
  · exact held
  · exact inv.room
  · exact inv.tail
  · intro handle some
    obtain ⟨current, next, elems⟩ := inv.acquired handle some
    refine ⟨current, next, ?_⟩
    change _ = (Function.update s.buffs s.tail b handle).data.length
    rw [Function.update_of_ne (inv.apart room some).symm]
    exact elems
  · exact inv.unread
  · intro k above below
    have apart : slot s.head k ≠ s.tail := by
      intro same
      rw [inv.tail] at same
      have equal := slot_inj (by omega) (by omega) same
      change s.count - s.holds < k at above
      omega
    change (Function.update s.buffs s.tail b (slot s.head k)).data = []
    rw [Function.update_of_ne apart]
    exact inv.empty k above below
  · intro i
    change c.size (Function.update s.buffs s.tail b i) ≤ _
    by_cases here : i = s.tail
    · rw [here, Function.update_self]
      unfold Config.size at fits ⊢
      rw [List.length_append, shorts_add]
      exact fits
    · rw [Function.update_of_ne here]
      exact inv.fits i
  · change (s.misfilled || s.unread s.tail && _) = false
    rw [inv.kept, free]
    rfl
  · exact inv.full
  · exact inv.place
  · obtain ⟨stop, ready, last⟩ := inv.ready
    rw [rest, readable]
    refine ⟨stop, ready.grow, ?_⟩
    intro off
    obtain ⟨length, suffix⟩ := last off
    have here : s.filling = (s.buffs s.tail).data := by
      unfold State.filling
      rw [if_pos room]
    have filling : (s.fills data).filling = s.filling ++ data := by
      rw [here]
      unfold State.filling
      change (if s.count < n then (Function.update s.buffs s.tail b s.tail).data else []) = _
      rw [if_pos room, Function.update_self]
    rw [filling]
    constructor
    · change stop + _ = (s.arrived ++ data).length
      rw [List.length_append, List.length_append, ← length, Nat.add_assoc]
    · obtain ⟨front, whole⟩ := suffix
      refine ⟨front, ?_⟩
      change front ++ (s.filling ++ data) = s.arrived ++ data
      rw [← List.append_assoc, whole]

theorem Inv.arrives {decimationFactor : Nat} {data : List α} (inv : Inv c s)
    (small : c.shorts data.length ≤ c.bufferLength)
    (meets : Meets c s (.arrive decimationFactor data)) :
    Inv c (s.rx_callback c decimationFactor data) := by
  unfold State.rx_callback
  split
  · rename_i full
    exact inv.loses full
  · rename_i free
    have room : s.count < n := Nat.lt_of_le_of_ne inv.room free
    split
    · rename_i long
      have complete := inv.completes room
      split
      · rename_i overflow
        exact complete.loses overflow.1
      · rename_i fits
        by_cases last : s.count + 1 = n
        · -- The tail is at the oldest buffer, so nothing is put there.
          have none : data = [] := by
            by_contra some
            have big := meets last long (by simpa using some)
            apply fits
            refine ⟨last, ?_⟩
            rw [completes_size]
            exact big
          rw [none, fills_nil]
          exact complete
        · have below : s.completes.count < n := by
            change s.count + 1 < n
            omega
          have none : (s.completes.buffs s.completes.tail).data = [] := by
            rw [completes_data]
            change (s.buffs (slot s.tail 1)).data = []
            have held := inv.held
            rw [inv.tail, slot_slot]
            exact inv.empty _ (by omega) (by omega)
          apply complete.fills below
          unfold Config.size
          rw [none, ← shorts_add, List.length_nil, Nat.zero_add]
          exact small
    · rename_i short
      apply inv.fills room
      have le := Nat.div_le_self c.bufferLength decimationFactor
      omega

end Callback

section Reader

variable {s s' : State n α}

theorem readable_moves {place : Place} (apart : s.overflowEvent = false ∨
      (∀ k, s.place ≠ .waits k) ∧ ∀ k, place ≠ .waits k) :
    State.readable { s with place := place } = s.readable := by
  have queue : State.queue { s with place := place } = s.queue := rfl
  unfold State.readable
  rw [queue]
  cases overflow : s.overflowEvent with
  | false => rfl
  | true =>
    rcases apart with off | ⟨before, behind⟩
    · cases overflow.symm.trans off
    · simp

theorem Inv.stays (inv : Inv c s)
    (ring : s'.buffs = s.buffs ∧ s'.head = s.head ∧ s'.tail = s.tail ∧ s'.count = s.count ∧
      s'.overflowEvent = s.overflowEvent ∧ s'.unread = s.unread ∧ s'.misfilled = s.misfilled ∧
      s'.arrived = s.arrived ∧ s'.acquired = s.acquired ∧ s'.currentHandle = s.currentHandle)
    (elems : s.acquired ≠ none →
      s'.currentBuff + s'.nElems = s.currentBuff + s.nElems)
    (full : ∀ k, s'.place = .waits k → s.overflowEvent = true → s.count ≠ 0) (place : s'.At)
    (ready : ∀ stop, Ready anywhere s.arrived s.log false (s.rest ++ s.readable) stop →
      Ready anywhere s.arrived s'.log false (s'.rest ++ s'.readable) stop) : Inv c s' := by
  obtain ⟨buffs, head, tail, count, overflow, unread, misfilled, arrived, acquired, handle⟩ := ring
  have holds : s'.holds = s.holds := by simp only [State.holds, acquired]
  have filling : s'.filling = s.filling := by simp only [State.filling, count, buffs, tail]
  constructor
  · rw [holds, count]
    exact inv.held
  · rw [count]
    exact inv.room
  · rw [tail, head, count, holds]
    exact inv.tail
  · intro current some
    rw [acquired] at some
    rw [handle, head, buffs, elems (by rw [some]; nofun)]
    exact inv.acquired current some
  · rw [unread, acquired, count, holds, head]
    exact inv.unread
  · rw [count, holds, buffs, head]
    exact inv.empty
  · rw [buffs]
    exact inv.fits
  · rw [misfilled]
    exact inv.kept
  · rw [overflow, count]
    exact full
  · exact place
  · obtain ⟨stop, before, last⟩ := inv.ready
    rw [arrived, overflow, filling]
    exact ⟨stop, ready stop before, last⟩

theorem Inv.drains {place : Place} {reset : Bool} (inv : Inv c s) (none : s.acquired = none)
    (at_p : State.At { s.drain with reset := reset, place := place }) :
    Inv c { s.drain with reset := reset, place := place } := by
  have zero : State.holds { s.drain with reset := reset, place := place } = 0 := by
    change (match s.acquired with
      | some _ => 1
      | Option.none => 0) = 0
    rw [none]
  constructor
  · rw [zero]
    exact Nat.le_refl 0
  · exact Nat.zero_le n
  · rw [zero]
    exact (slot_zero 0).symm
  · intro handle some
    cases none.symm.trans some
  · nofun
  · intro k _ _
    rfl
  · intro i
    change c.shorts 0 ≤ _
    simp [Config.shorts]
  · exact inv.kept
  · nofun
  · exact at_p
  · obtain ⟨stop, ready, -⟩ := inv.ready
    have rest : State.rest { s.drain with reset := reset, place := place } = [] := by
      unfold State.rest
      change (match s.acquired with
        | some _ => _
        | Option.none => []) = []
      rw [none]
    have readable : State.readable { s.drain with reset := reset, place := place } = [] := by
      change RingQueue.stored _ _ (0 - _) = []
      rw [Nat.zero_sub]
      rfl
    have filling : State.filling { s.drain with reset := reset, place := place } = [] := by
      unfold State.filling
      split <;> rfl
    rw [rest, readable, filling]
    exact ⟨s.arrived.length, ready.drain, fun _ => ⟨rfl, List.nil_suffix⟩⟩

theorem Inv.acquires {numElems : Nat} (inv : Inv c s)
    (at_p : (s.place = .acquires numElems ∧ s.reset = false ∧ s.overflowEvent = false) ∨
      s.place = .waits numElems) (filled : s.count ≠ 0) :
    Inv c { s with
      place := .copies numElems
      head := slot s.head 1
      nElems := c.size (s.buffs s.head) / (elementsPerSample * c.shortsPerWord)
      currentHandle := s.head
      currentBuff := 0
      acquired := some s.head } := by
  have none : s.acquired = Option.none := by
    have place := inv.place
    rcases at_p with ⟨here, -⟩ | here
    · simp only [State.At, here] at place
      exact place.1
    · simp only [State.At, here] at place
      exact place.1
  have zero : s.holds = 0 := by simp only [State.holds, none]
  have positive := Nat.pos_of_ne_zero filled
  have room := inv.room
  have rest : s.rest = [] := by simp only [State.rest, none]
  let s' : State n α := { s with
    place := .copies numElems
    head := slot s.head 1
    nElems := c.size (s.buffs s.head) / (elementsPerSample * c.shortsPerWord)
    currentHandle := s.head
    currentBuff := 0
    acquired := some s.head }
  have queue : s.queue = s.buffs s.head :: s'.queue := by
    simp only [State.queue, zero, Nat.sub_zero]
    rw [RingQueue.stored_of_pos positive]
    rfl
  have readable : s.readable = s.buffs s.head :: s'.readable := by
    unfold State.readable
    cases overflow : s.overflowEvent with
    | false =>
      simp only [s', overflow, Bool.false_eq_true, if_false]
      exact queue
    | true =>
      rcases at_p with ⟨-, -, off⟩ | here
      · cases overflow.symm.trans off
      · simp only [s', overflow, if_true, here, queue]
        rfl
  change Inv c s'
  constructor
  · exact positive
  · exact room
  · change s.tail = slot (slot s.head 1) (s.count - 1)
    rw [inv.tail, zero, slot_slot, Nat.add_sub_of_le positive, Nat.sub_zero]
  · intro handle same
    obtain rfl := Option.some.inj same
    refine ⟨rfl, rfl, ?_⟩
    change 0 + c.size (s.buffs s.head) / _ = (s.buffs s.head).data.length
    rw [size_div, Nat.zero_add]
  · intro i on
    rcases inv.unread i on with acquired | ⟨k, below, waits⟩
    · cases none.symm.trans acquired
    · rw [zero] at below
      cases k with
      | zero =>
        rw [slot_zero] at waits
        exact .inl (congrArg some waits)
      | succ k =>
        refine .inr ⟨k, ?_, ?_⟩
        · change k < s.count - 1
          omega
        · change slot (slot s.head 1) k = i
          rw [slot_slot, Nat.add_comm]
          exact waits
  · intro k above below
    change s.count - 1 < k at above
    change k + 1 < n at below
    change (s.buffs (slot (slot s.head 1) k)).data = []
    rw [slot_slot, Nat.add_comm]
    apply inv.empty
    · omega
    · omega
  · exact inv.fits
  · exact inv.kept
  · rintro _ ⟨⟩
  · rintro ⟨⟩
  · obtain ⟨stop, ready, last⟩ := inv.ready
    rw [rest, readable] at ready
    exact ⟨stop, ready, last⟩

theorem Inv.releases (inv : Inv c s) (at_p : s.place = .releases) :
    Inv c { s with
      place := .idle
      buffs := Function.update s.buffs s.currentHandle ⟨(s.buffs s.currentHandle).start, []⟩
      count := s.count - 1
      acquired := none
      unread := Function.update s.unread s.currentHandle false } := by
  have place := inv.place
  simp only [State.At, at_p] at place
  obtain ⟨some, done⟩ := place
  obtain ⟨handle, held⟩ := Option.ne_none_iff_exists'.mp some
  obtain ⟨rfl, next, elems⟩ := inv.acquired handle held
  have one : s.holds = 1 := by simp only [State.holds, held]
  have positive := inv.held
  have room := inv.room
  have tail := inv.tail
  rw [one] at positive tail
  -- The buffer in front of the head is the last one of the ring.
  have around : slot s.head (n - 1) = s.currentHandle := by
    have all : 1 + (n - 1) = n := by omega
    rw [← next, slot_slot, all, slot_all]
  let b : Block α := ⟨(s.buffs s.currentHandle).start, []⟩
  let s' : State n α := { s with
    place := .idle
    buffs := Function.update s.buffs s.currentHandle b
    count := s.count - 1
    acquired := none
    unread := Function.update s.unread s.currentHandle false }
  have queue : s'.queue = s.queue := by
    have apart : ∀ k, k < s.count - 1 → slot s.head k ≠ s.currentHandle := by
      intro k below
      exact slot_apart next (by omega)
    unfold State.queue
    rw [one]
    exact RingQueue.stored_update b apart
  have readable : s'.readable = s.readable := by
    unfold State.readable
    rw [queue, at_p]
  have filling : s'.filling = s.filling := by
    have below : s.count - 1 < n := by omega
    unfold State.filling
    change (if s.count - 1 < n then (Function.update s.buffs s.currentHandle b s.tail).data else []) = _
    rw [if_pos below]
    by_cases full : s.count = n
    · have here : s.tail = s.currentHandle := by rw [tail, full, around]
      rw [here, Function.update_self, if_neg (by omega)]
    · have less : s.count < n := Nat.lt_of_le_of_ne room full
      rw [Function.update_of_ne (inv.apart less held), if_pos less]
  change Inv c s'
  constructor
  · exact Nat.zero_le _
  · change s.count - 1 ≤ n
    omega
  · exact tail
  · nofun
  · intro i on
    change Function.update s.unread s.currentHandle false i = true at on
    by_cases here : i = s.currentHandle
    · rw [here, Function.update_self] at on
      cases on
    · rw [Function.update_of_ne here] at on
      rcases inv.unread i on with acquired | ⟨k, below, waits⟩
      · exact absurd (Option.some.inj (held.symm.trans acquired)).symm here
      · rw [one] at below
        exact .inr ⟨k, below, waits⟩
  · intro k above below
    change s.count - 1 < k at above
    change k < n at below
    change (Function.update s.buffs s.currentHandle b (slot s.head k)).data = []
    by_cases here : slot s.head k = s.currentHandle
    · rw [here, Function.update_self]
    · rw [Function.update_of_ne here]
      have inside : k ≠ n - 1 := by
        intro last
        rw [last] at here
        exact here around
      apply inv.empty
      · omega
      · omega
  · intro i
    change c.size (Function.update s.buffs s.currentHandle b i) ≤ _
    by_cases here : i = s.currentHandle
    · rw [here, Function.update_self]
      change c.shorts 0 ≤ _
      simp [Config.shorts]
    · rw [Function.update_of_ne here]
      exact inv.fits i
  · exact inv.kept
  · nofun
  · exact Iff.intro (fun _ => done) (fun _ => rfl)
  · obtain ⟨stop, ready, last⟩ := inv.ready
    have rest : s.rest = [(s.buffs s.currentHandle).drop s.currentBuff] := by
      simp only [State.rest, held]
    have empty : ((s.buffs s.currentHandle).drop s.currentBuff).data = [] := by
      apply List.drop_eq_nil_of_le
      omega
    rw [rest] at ready
    rw [readable, filling]
    exact ⟨stop, ready.finish empty, last⟩

end Reader

theorem Inv.step {s s' : State n α} {a : Act α} (inv : Inv c s) (meets : Meets c s a)
    (step : Step c s a s') : Inv c s' := by
  have place := inv.place
  unfold State.At at place
  cases step with
  | arrive small => exact inv.arrives small meets
  | request_reset =>
    apply Inv.stays inv
    · exact ⟨rfl, rfl, rfl, rfl, rfl, rfl, rfl, rfl, rfl, rfl⟩
    · exact fun _ => rfl
    · exact inv.full
    · exact place
    · exact fun _ ready => ready
  | @readStream numElems at_p =>
    simp only [at_p] at place
    let place' : Place := if s.nElems = 0 then .acquires numElems else .copies numElems
    have apart : ∀ k, place' ≠ .waits k := by
      intro k
      by_cases none : s.nElems = 0
      · simp [place', none]
      · simp [place', none]
    apply Inv.stays inv
    · exact ⟨rfl, rfl, rfl, rfl, rfl, rfl, rfl, rfl, rfl, rfl⟩
    · exact fun _ => rfl
    · intro k at_k
      exact absurd at_k (apart k)
    · by_cases none : s.nElems = 0
      · rw [if_pos none]
        exact ⟨place.mpr none, none⟩
      · rw [if_neg none]
        exact fun free => none (place.mp free)
    · intro stop ready
      have same : State.readable { s with place := place' } = s.readable :=
        readable_moves (.inr ⟨by rw [at_p]; nofun, apart⟩)
      rw [same]
      exact ready
  | @drain_reset numElems at_p on =>
    simp only [at_p] at place
    exact inv.drains place.1 place
  | return_overflow at_p off overflow =>
    simp only [at_p] at place
    apply inv.drains place.1
    exact Iff.intro (fun _ => place.2) (fun _ => place.1)
  | @wait numElems at_p off quiet empty =>
    simp only [at_p] at place
    apply Inv.stays inv
    · exact ⟨rfl, rfl, rfl, rfl, rfl, rfl, rfl, rfl, rfl, rfl⟩
    · exact fun _ => rfl
    · intro k _ overflow
      cases quiet.symm.trans overflow
    · exact place
    · intro stop ready
      have same : State.readable { s with place := .waits numElems } = s.readable :=
        readable_moves (.inl quiet)
      rw [same]
      exact ready
  | @timeout numElems at_p empty =>
    simp only [at_p] at place
    apply Inv.stays inv
    · exact ⟨rfl, rfl, rfl, rfl, rfl, rfl, rfl, rfl, rfl, rfl⟩
    · exact fun _ => rfl
    · nofun
    · exact Iff.intro (fun _ => place.2) (fun _ => place.1)
    · intro stop ready
      have quiet : s.overflowEvent = false := by
        by_contra overflow
        exact inv.full numElems at_p (Bool.eq_true_of_not_eq_false overflow) empty
      have same : State.readable { s with place := .idle } = s.readable :=
        readable_moves (.inl quiet)
      rw [same]
      exact ready
  | acquire at_p filled => exact inv.acquires at_p filled
  | @copy numElems at_p =>
    simp only [at_p] at place
    obtain ⟨handle, held⟩ := Option.ne_none_iff_exists'.mp place
    obtain ⟨rfl, -, elems⟩ := inv.acquired handle held
    let k := min s.nElems numElems
    have short : k ≤ s.nElems := Nat.min_le_left _ _
    let place' : Place := if s.nElems - k ≠ 0 then .idle else .releases
    have apart : ∀ k, place' ≠ .waits k := by
      intro j
      by_cases some : s.nElems - k ≠ 0
      · simp [place', if_pos some]
      · simp [place', if_neg some]
    apply Inv.stays inv
    · exact ⟨rfl, rfl, rfl, rfl, rfl, rfl, rfl, rfl, rfl, rfl⟩
    · intro _
      change s.currentBuff + k + (s.nElems - k) = _
      omega
    · intro j at_j
      exact absurd at_j (apart j)
    · by_cases some : s.nElems - k ≠ 0
      · rw [if_pos some]
        exact Iff.intro (fun free => absurd free place) (fun none => absurd none some)
      · rw [if_neg some]
        exact ⟨place, not_not.mp some⟩
    · intro stop ready
      have same : State.readable { s with place := place' } = s.readable :=
        readable_moves (.inr ⟨by rw [at_p]; nofun, apart⟩)
      have rest : s.rest = [(s.buffs s.currentHandle).drop s.currentBuff] := by
        simp only [State.rest, held]
      have rest' : State.rest { s with currentBuff := s.currentBuff + k } =
          [((s.buffs s.currentHandle).drop s.currentBuff).drop k] := by
        rw [Block.take_drop]
        simp only [State.rest, held]
      rw [rest] at ready
      have within : k ≤ ((s.buffs s.currentHandle).drop s.currentBuff).data.length := by
        simp only [Block.drop, List.length_drop]
        omega
      have read := ready.read within
      rw [← same] at read
      change Ready _ _ _ false
        (State.rest { s with currentBuff := s.currentBuff + k } ++
          State.readable { s with place := place' }) stop
      rw [rest']
      exact read
  | release at_p => exact inv.releases at_p

/-- What is read is in order but behind a reset or an overflow, nothing is filled that was
    complete, and no buffer outgrows its capacity. -/
theorem callbacks_in_order {s : State n α} (run : Runs (Step c) (Meets c) State.start s) :
    (∃ pos free, InOrder anywhere s.arrived s.log pos free) ∧ s.misfilled = false ∧
    ∀ i, c.size (s.buffs i) ≤ c.bufferLength := by
  have inv : Inv c s := run.keeps (fun _ _ _ inv meets step => inv.step meets step) Inv.start
  obtain ⟨stop, ready, -⟩ := inv.ready
  exact ⟨ready.in_order, inv.kept, inv.fits⟩

theorem two_of_three_read : ∃ s : State 2 Nat, Runs (Step ⟨4, 1, by decide⟩) (Meets ⟨4, 1, by decide⟩)
      State.start s ∧ s.nElems = 1 ∧ s.misfilled = false ∧
    ∃ pos free, InOrder anywhere s.arrived [.gap, .samples ⟨0, [10, 11]⟩] pos free := by
  have start : Runs (Step ⟨4, 1, by decide⟩) (Meets ⟨4, 1, by decide⟩)
    (State.start : State 2 Nat) State.start := .refl
  have called := start.tail (a := Act.readStream 2) (.readStream rfl)
  have drained := called.tail (a := Act.drain_reset) (.drain_reset rfl rfl)
  have filled := drained.tail (a := Act.arrive 1 [10, 11, 12]) (.arrive (by decide)) nofun
  have complete := filled.tail (a := Act.arrive 1 [13]) (.arrive (by decide)) nofun
  have acquired := complete.tail (a := Act.acquire) (.acquire (.inr rfl) nofun)
  have copied := acquired.tail (a := Act.copy) (.copy rfl)
  have ordered := callbacks_in_order copied
  exact ⟨_, copied, rfl, ordered.2.1, ordered.1⟩

/-- A sample that completes the last free buffer is put behind those of the oldest one. -/
theorem oldest_is_filled : ∃ s : State 2 Nat,
    Runs (Step ⟨4, 1, by decide⟩) (fun _ _ => True) State.start s ∧ s.misfilled = true ∧
    ¬ ∃ pos free, InOrder anywhere s.arrived s.log pos free := by
  have start : Runs (Step ⟨4, 1, by decide⟩) (fun _ _ => True)
    (State.start : State 2 Nat) State.start := .refl
  have called := start.tail (a := Act.readStream 4) (.readStream rfl)
  have drained := called.tail (a := Act.drain_reset) (.drain_reset rfl rfl)
  have first := drained.tail (a := Act.arrive 1 [10, 11, 12]) (.arrive (by decide))
  have second := first.tail (a := Act.arrive 1 [13]) (.arrive (by decide))
  have third := second.tail (a := Act.arrive 1 [14, 15]) (.arrive (by decide))
  have fourth := third.tail (a := Act.arrive 1 [16]) (.arrive (by decide))
  have acquired := fourth.tail (a := Act.acquire) (.acquire (.inr rfl) nofun)
  have copied := acquired.tail (a := Act.copy) (.copy rfl)
  have released := copied.tail (a := Act.release) (.release rfl)
  have called := released.tail (a := Act.readStream 4) (.readStream rfl)
  have acquired := called.tail (a := Act.acquire) (.acquire (.inl ⟨rfl, rfl, rfl⟩) nofun)
  have copied := acquired.tail (a := Act.copy) (.copy rfl)
  refine ⟨_, copied, rfl, ?_⟩
  rintro ⟨pos, free, order⟩
  obtain ⟨pos', free', before, follows, -, -⟩ :=
    InOrder.before_samples [.gap, .samples ⟨0, [10, 11, 12, 16]⟩] order
  obtain ⟨-, -, -, -, stop, -⟩ := InOrder.before_samples [.gap] before
  rw [stop] at follows
  exact absurd follows.after (by decide)

end Soapy.Receive.SDRPlay
