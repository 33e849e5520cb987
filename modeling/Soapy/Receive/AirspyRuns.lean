import Soapy.Receive.Airspy

/-! # Runs of the libairspy receive queue

The slots from the oldest buffer that is still held on keep the blocks that were received and not
released yet, each with its number of dropped buffers. The consumer has taken at most one of them.
-/

namespace Soapy.Receive.Airspy

open Lib HandleRing RingQueue

variable {n : Nat} {Buf α : Type}

/-- How many buffers the consumer has taken and not given back. -/
def State.held (s : State n Buf α) : Nat := if s.place.input.isSome then 1 else 0

/-- How many blocks the consumer has taken. -/
def State.taken (s : State n Buf α) : Nat :=
  match s.place with
  | .converts _ _ => s.delivered.length + 1
  | .waits | .returns _ | .ended => s.delivered.length

def State.waiting (s : State n Buf α) : List (α × Nat) := (blocks s.arrivals).drop s.taken

/-- What a slot keeps. -/
def State.entry (s : State n Buf α) (i : Fin RAW_BUFFER_COUNT) : α × Nat :=
  (s.memory (s.received_samples_queue i), s.dropped_buffers_queue i)

/-- A block with the number of discarded transfers, as a `uint32_t` counts them. -/
def counted (b : α × Nat) : α × Nat := (b.1, b.2 % 2 ^ 32)

/-- A block as it is given to the user's callback. -/
def reported (packing_enabled : Bool) (sample_type : SampleType) (b : α × Nat) : α × Nat :=
  (b.1, b.2 % 2 ^ 32 * sample_count packing_enabled sample_type)

section Invariant

variable {packing_enabled : Bool} {sample_type : SampleType} {s s' : State n Buf α}
  {oldest : Fin RAW_BUFFER_COUNT} {released : Nat}

/-- The queue from the slot `oldest` on, when `released` buffers were given back. -/
structure Queue (packing_enabled : Bool) (sample_type : SampleType) (s : State n Buf α)
    (oldest : Fin RAW_BUFFER_COUNT) (released : Nat) : Prop where
  apart : Function.Injective (Sum.elim s.received_samples_queue s.buffer)
  head : s.received_samples_queue_head = slot oldest s.received_buffer_count
  room : s.received_buffer_count ≤ RAW_BUFFER_COUNT
  entries : stored s.entry oldest s.received_buffer_count =
    ((blocks s.arrivals).drop released).map counted
  within : released + s.received_buffer_count = (blocks s.arrivals).length
  dropped : s.dropped_buffers = discardedFrom 0 s.arrivals % 2 ^ 32
  few : s.delivered.length ≤ (blocks s.arrivals).length
  delivered : s.delivered = ((blocks s.arrivals).take s.delivered.length).map
    (reported packing_enabled sample_type)

def State.At (s : State n Buf α) (oldest : Fin RAW_BUFFER_COUNT) (released : Nat) : Prop :=
  match s.place with
  | .waits | .ended =>
    s.received_samples_queue_tail = oldest ∧ s.delivered.length = released
  | .converts input dropped =>
    s.received_samples_queue_tail = slot oldest 1 ∧ s.delivered.length = released ∧
      0 < s.received_buffer_count ∧ s.received_samples_queue oldest = input ∧
        s.dropped_buffers_queue oldest = dropped
  | .returns input =>
    s.received_samples_queue_tail = slot oldest 1 ∧ s.delivered.length = released + 1 ∧
      0 < s.received_buffer_count ∧ s.received_samples_queue oldest = input

def Inv (packing_enabled : Bool) (sample_type : SampleType) (s : State n Buf α) : Prop :=
  ∃ oldest released, Queue packing_enabled sample_type s oldest released ∧ s.At oldest released

section

variable (queue : Queue packing_enabled sample_type s oldest released)
include queue

theorem Queue.stays
    (same : s' = { s with
      transfer := s'.transfer, streaming := s'.streaming, stop_requested := s'.stop_requested
      place := s'.place, received_samples_queue_tail := s'.received_samples_queue_tail }) :
    Queue packing_enabled sample_type s' oldest released := by
  rw [same]
  exact ⟨queue.apart, queue.head, queue.room, queue.entries, queue.within, queue.dropped,
    queue.few, queue.delivered⟩

omit queue in
theorem Inv.flags (inv : Inv packing_enabled sample_type s) (same : s' = { s with
      transfer := s'.transfer, streaming := s'.streaming, stop_requested := s'.stop_requested }) :
    Inv packing_enabled sample_type s' := by
  obtain ⟨oldest, released, queue, place⟩ := inv
  refine ⟨oldest, released, queue.stays ?_, ?_⟩
  · rw [same]
  · rw [same]
    exact place

omit queue in
theorem Inv.fills [DecidableEq Buf] (inv : Inv packing_enabled sample_type s) (i : Fin n) (block : α) :
    Inv packing_enabled sample_type
      { s with memory := Function.update s.memory (s.buffer i) block } := by
  obtain ⟨oldest, released, queue, place⟩ := inv
  have entry : State.entry { s with memory := Function.update s.memory (s.buffer i) block } =
      s.entry := by
    funext c
    have other : s.received_samples_queue c ≠ s.buffer i := by
      intro same
      cases @queue.apart (.inl c) (.inr i) same
    simp only [State.entry, Function.update_of_ne other]
  refine ⟨oldest, released, ?_, place⟩
  refine ⟨queue.apart, queue.head, queue.room, ?_, queue.within, queue.dropped, queue.few,
    queue.delivered⟩
  rw [entry]
  exact queue.entries

omit queue in
theorem swapped (queue : Fin RAW_BUFFER_COUNT → Buf) (buffer : Fin n → Buf)
    (h : Fin RAW_BUFFER_COUNT) (i : Fin n) :
    Sum.elim (Function.update queue h (buffer i)) (Function.update buffer i (queue h)) =
      Sum.elim queue buffer ∘ Equiv.swap (.inl h) (.inr i) := by
  funext k
  cases k with
  | inl c =>
    by_cases here : c = h
    · rw [here]
      simp
    · rw [Function.comp_apply, Equiv.swap_apply_of_ne_of_ne (by simpa using here) (by simp)]
      exact Function.update_of_ne here _ _
  | inr j =>
    by_cases here : j = i
    · rw [here]
      simp
    · rw [Function.comp_apply, Equiv.swap_apply_of_ne_of_ne (by simp) (by simpa using here)]
      exact Function.update_of_ne here _ _

theorem Queue.receives (i : Fin n) (free : s.received_buffer_count < RAW_BUFFER_COUNT) :
    Queue packing_enabled sample_type (s.transfer_callback i) oldest released := by
  have whole : blocks (s.arrivals ++ [.received (s.memory (s.buffer i))]) =
      blocks s.arrivals ++ [(s.memory (s.buffer i), discardedFrom 0 s.arrivals)] :=
    blocksFrom_append 0 _ _
  have before : released ≤ (blocks s.arrivals).length := by
    have within := queue.within
    omega
  unfold State.transfer_callback
  rw [if_pos free]
  constructor
  · change Function.Injective (Sum.elim (Function.update _ _ _) (Function.update _ _ _))
    rw [swapped]
    exact queue.apart.comp (Equiv.injective _)
  · change slot s.received_samples_queue_head 1 = _
    rw [queue.head, slot_slot]
  · exact free
  · have entry : (fun c => (s.memory (Function.update s.received_samples_queue
        s.received_samples_queue_head (s.buffer i) c), Function.update s.dropped_buffers_queue
          s.received_samples_queue_head s.dropped_buffers c)) =
        Function.update s.entry (slot oldest s.received_buffer_count)
          (s.memory (s.buffer i), s.dropped_buffers) := by
      rw [queue.head]
      funext c
      by_cases here : c = slot oldest s.received_buffer_count
      · rw [here]
        simp
      · simp only [Function.update_of_ne here]
        rfl
    change stored (fun c => (_, _)) oldest (s.received_buffer_count + 1) = _
    rw [entry, stored_push _ _ free, queue.entries, whole, List.drop_append_of_le_length before,
      List.map_append, queue.dropped]
    rfl
  · change released + (s.received_buffer_count + 1) = _
    rw [whole, List.length_append, ← queue.within]
    rfl
  · change 0 = discardedFrom 0 (s.arrivals ++ _) % 2 ^ 32
    rw [discardedFrom_append]
    rfl
  · change s.delivered.length ≤ _
    rw [whole, List.length_append]
    exact Nat.le_add_right_of_le queue.few
  · change s.delivered = _
    rw [whole, List.take_append_of_le_length queue.few]
    exact queue.delivered

theorem Queue.discards (i : Fin n) (full : ¬ s.received_buffer_count < RAW_BUFFER_COUNT) :
    Queue packing_enabled sample_type (s.transfer_callback i) oldest released := by
  have whole : blocks (s.arrivals ++ [.discarded]) = blocks s.arrivals := by
    rw [blocks, blocksFrom_append]
    exact List.append_nil _
  unfold State.transfer_callback
  rw [if_neg full]
  refine ⟨queue.apart, queue.head, queue.room, ?_, ?_, ?_, ?_, ?_⟩
  · rw [whole]
    exact queue.entries
  · rw [whole]
    exact queue.within
  · change (s.dropped_buffers + 1) % 2 ^ 32 = discardedFrom 0 (s.arrivals ++ _) % 2 ^ 32
    rw [discardedFrom_append, queue.dropped]
    exact Nat.mod_add_mod _ _ _
  · rw [whole]
    exact queue.few
  · rw [whole]
    exact queue.delivered

theorem head_apart
    (free : s.received_buffer_count < RAW_BUFFER_COUNT) (some : 0 < s.received_buffer_count) :
    oldest ≠ s.received_samples_queue_head := by
  intro same
  rw [queue.head] at same
  have none := slot_inj (by decide) free ((slot_zero oldest).trans same)
  omega

omit queue in
theorem Inv.receives (inv : Inv packing_enabled sample_type s) (i : Fin n) :
    Inv packing_enabled sample_type (s.transfer_callback i) := by
  obtain ⟨oldest, released, queue, place⟩ := inv
  by_cases free : s.received_buffer_count < RAW_BUFFER_COUNT
  · refine ⟨oldest, released, queue.receives i free, ?_⟩
    unfold State.transfer_callback
    rw [if_pos free]
    unfold State.At at place ⊢
    cases at_p : s.place with
    | waits | ended =>
      simp only [at_p] at place ⊢
      exact place
    | converts input dropped =>
      simp only [at_p] at place ⊢
      obtain ⟨tail, length, some, first, drops⟩ := place
      have apart := head_apart queue free some
      rw [Function.update_of_ne apart, Function.update_of_ne apart]
      exact ⟨tail, length, Nat.succ_pos _, first, drops⟩
    | returns input =>
      simp only [at_p] at place ⊢
      obtain ⟨tail, length, some, first⟩ := place
      rw [Function.update_of_ne (head_apart queue free some)]
      exact ⟨tail, length, Nat.succ_pos _, first⟩
  · refine ⟨oldest, released, queue.discards i free, ?_⟩
    unfold State.transfer_callback
    rw [if_neg free]
    exact place

theorem Queue.gives_back
    (some : 0 < s.received_buffer_count) :
    Queue packing_enabled sample_type
      { s with received_buffer_count := s.received_buffer_count - 1 } (slot oldest 1)
      (released + 1) := by
  have count : 1 + (s.received_buffer_count - 1) = s.received_buffer_count := by omega
  refine ⟨queue.apart, ?_, ?_, ?_, ?_, queue.dropped, queue.few, queue.delivered⟩
  · change s.received_samples_queue_head = slot (slot oldest 1) (s.received_buffer_count - 1)
    rw [slot_slot, count]
    exact queue.head
  · exact Nat.le_trans (Nat.sub_le _ _) queue.room
  · change stored s.entry (slot oldest 1) (s.received_buffer_count - 1) = _
    have entries := queue.entries
    rw [stored_of_pos some] at entries
    have rest := congrArg List.tail entries
    rwa [List.tail_cons, ← List.map_tail, List.tail_drop] at rest
  · change released + 1 + (s.received_buffer_count - 1) = _
    rw [Nat.add_assoc, count]
    exact queue.within

theorem Queue.loops
    (tail : s.received_samples_queue_tail = oldest) (length : s.delivered.length = released) :
    Inv packing_enabled sample_type s.consumer_loop := by
  refine ⟨oldest, released, ?_⟩
  unfold State.consumer_loop
  split
  · exact ⟨queue.stays rfl, tail, length⟩
  · split
    · exact ⟨queue.stays rfl, tail, length⟩
    · rename_i some
      refine ⟨queue.stays rfl, ?_⟩
      change slot s.received_samples_queue_tail 1 = _ ∧ _
      rw [tail]
      exact ⟨rfl, length, Nat.pos_of_ne_zero some, rfl, rfl⟩

theorem Queue.first
    (waits : 0 < s.received_buffer_count) :
    ∃ b, (blocks s.arrivals)[released]? = some b ∧ s.entry oldest = counted b := by
  have below : released < (blocks s.arrivals).length := by
    have within := queue.within
    omega
  have entries := queue.entries
  rw [stored_of_pos waits, List.drop_eq_getElem_cons below] at entries
  exact ⟨_, List.getElem?_eq_getElem below, (List.cons.inj entries).1⟩

end

theorem Inv.calls_back {input : Buf} {dropped : Nat} (stop : Bool)
    (inv : Inv packing_enabled sample_type s) (at_p : s.place = .converts input dropped) :
    Inv packing_enabled sample_type
      { s with
        place := .returns input
        stop_requested := stop
        delivered := s.delivered ++ [(s.memory input,
          dropped_samples dropped (sample_count packing_enabled sample_type))] } := by
  obtain ⟨oldest, released, queue, place⟩ := inv
  unfold State.At at place
  simp only [at_p] at place
  obtain ⟨tail, length, some, first, drops⟩ := place
  obtain ⟨b, next, entry⟩ := queue.first some
  have block : s.memory input = b.1 := by
    rw [← first]
    exact congrArg Prod.fst entry
  have number : dropped = b.2 % 2 ^ 32 := by
    rw [← drops]
    exact congrArg Prod.snd entry
  have samples : dropped_samples dropped (sample_count packing_enabled sample_type) =
      b.2 % 2 ^ 32 * sample_count packing_enabled sample_type := by
    rw [number]
    exact dropped_samples_eq (Nat.mod_lt _ (by decide)) (sample_count_lt _ _)
  refine ⟨oldest, released, ?_, tail, ?_, some, first⟩
  · refine ⟨queue.apart, queue.head, queue.room, queue.entries, queue.within, queue.dropped, ?_,
      ?_⟩
    · change (s.delivered ++ [_]).length ≤ _
      have within := queue.within
      rw [List.length_append, length, List.length_singleton]
      change released + 1 ≤ (blocks s.arrivals).length
      omega
    · change s.delivered ++ [_] = _
      rw [List.length_append, List.length_singleton, List.take_add_one, length, next,
        List.map_append, block, samples, ← length, ← queue.delivered]
      rfl
  · change (s.delivered ++ [_]).length = _
    rw [List.length_append, length]
    rfl

theorem Inv.step [DecidableEq Buf] {a : Act n α} (inv : Inv packing_enabled sample_type s)
    (step : Step packing_enabled sample_type s a s') : Inv packing_enabled sample_type s' := by
  cases step with
  | fill with_device => exact inv.fills _ _
  | enter with_device => exact inv.flags rfl
  | break_off with_device => exact inv.flags rfl
  | receive at_p => exact inv.receives _
  | resubmit at_p => exact inv.flags rfl
  | wake at_p =>
    obtain ⟨oldest, released, queue, place⟩ := inv
    unfold State.At at place
    simp only [at_p] at place
    exact queue.loops place.1 place.2
  | callback at_p => exact inv.calls_back _ at_p
  | finish at_p =>
    obtain ⟨oldest, released, queue, place⟩ := inv
    unfold State.At at place
    simp only [at_p] at place
    obtain ⟨tail, length, some, first⟩ := place
    exact (queue.gives_back some).loops tail length
  | stop_rx => exact inv.flags rfl

theorem Inv.start {queue : Fin RAW_BUFFER_COUNT → Buf} {buffer : Fin n → Buf} (memory : Buf → α)
    (apart : Function.Injective (Sum.elim queue buffer)) :
    Inv packing_enabled sample_type (State.start queue buffer memory) :=
  ⟨0, 0, ⟨apart, rfl, Nat.zero_le _, rfl, rfl, rfl, Nat.le_refl 0, rfl⟩, rfl, rfl⟩

theorem State.At.taken (place : s.At oldest released) :
    s.taken = released + s.held ∧ s.received_samples_queue_tail = slot oldest s.held := by
  unfold State.At at place
  unfold State.taken State.held
  cases at_p : s.place with
  | waits | ended =>
    simp only [at_p] at place ⊢
    exact ⟨place.2, place.1.trans (slot_zero oldest).symm⟩
  | converts input dropped =>
    simp only [at_p] at place ⊢
    exact ⟨congrArg (· + 1) place.2.1, place.1⟩
  | returns input =>
    simp only [at_p] at place ⊢
    exact ⟨place.2.1, place.1⟩

theorem State.At.held_le (place : s.At oldest released) : s.held ≤ s.received_buffer_count := by
  unfold State.At at place
  unfold State.held
  cases at_p : s.place with
  | waits | ended => exact Nat.zero_le _
  | converts input dropped =>
    simp only [at_p] at place
    exact place.2.2.1
  | returns input =>
    simp only [at_p] at place
    exact place.2.2.1

theorem State.At.input {input : Buf} (place : s.At oldest released)
    (has : s.place.input = some input) : s.received_samples_queue oldest = input := by
  unfold State.At at place
  cases at_p : s.place with
  | waits | ended =>
    rw [at_p] at has
    cases has
  | converts input' dropped =>
    rw [at_p] at has
    cases has
    simp only [at_p] at place
    exact place.2.2.2.1
  | returns input' =>
    rw [at_p] at has
    cases has
    simp only [at_p] at place
    exact place.2.2.2

theorem Inv.no_transfer (inv : Inv packing_enabled sample_type s) {input : Buf}
    (has : s.place.input = some input) (i : Fin n) : s.buffer i ≠ input := by
  obtain ⟨oldest, released, queue, place⟩ := inv
  intro same
  cases @queue.apart (.inl oldest) (.inr i) ((place.input has).trans same.symm)

theorem Inv.count (inv : Inv packing_enabled sample_type s) :
    s.received_buffer_count = s.waiting.length + s.held := by
  obtain ⟨oldest, released, queue, place⟩ := inv
  have taken := place.taken.1
  have held := place.held_le
  have within := queue.within
  unfold State.waiting
  rw [List.length_drop]
  omega

theorem Inv.waiting (inv : Inv packing_enabled sample_type s) :
    stored (fun i => s.memory (s.received_samples_queue i)) s.received_samples_queue_tail
      s.waiting.length = s.waiting.map Prod.fst := by
  have count := inv.count
  obtain ⟨oldest, released, queue, place⟩ := inv
  obtain ⟨taken, tail⟩ := place.taken
  have entries := queue.entries
  rw [count, Nat.add_comm, stored_add, ← tail] at entries
  have rest := congrArg (fun l => (l.drop s.held).map Prod.fst) entries
  have held : (stored s.entry oldest s.held).length = s.held := stored_length
  simp only [List.drop_append_of_le_length (Nat.le_of_eq held.symm),
    List.drop_of_length_le (Nat.le_of_eq held), List.nil_append, stored_map, ← List.map_drop,
    List.drop_drop, List.map_map] at rest
  unfold State.waiting at rest ⊢
  rw [taken]
  rw [taken] at rest
  exact rest

end Invariant

/-- No buffer is in two places nor the consumer's one in a transfer, the count is that of the
    waiting buffers and the one being converted, and the blocks are delivered in order. The dropped
    samples are those of the discarded transfers, counted with 32 bits. -/
theorem blocks_delivered [DecidableEq Buf] {packing_enabled : Bool} {sample_type : SampleType}
    {queue : Fin RAW_BUFFER_COUNT → Buf} {buffer : Fin n → Buf} {memory : Buf → α}
    {s : State n Buf α} (apart : Function.Injective (Sum.elim queue buffer))
    (run : Runs (Step packing_enabled sample_type) (fun _ _ => True)
      (State.start queue buffer memory) s) :
    Function.Injective (Sum.elim s.received_samples_queue s.buffer) ∧
    (∀ input, s.place.input = some input → ∀ i, s.buffer i ≠ input) ∧
    s.received_buffer_count = s.waiting.length + s.held ∧
    s.received_buffer_count ≤ RAW_BUFFER_COUNT ∧
    stored (fun i => s.memory (s.received_samples_queue i)) s.received_samples_queue_tail
      s.waiting.length = s.waiting.map Prod.fst ∧
    s.delivered = ((blocks s.arrivals).take s.delivered.length).map
      (reported packing_enabled sample_type) := by
  have inv : Inv packing_enabled sample_type s :=
    run.keeps (fun _ _ _ inv _ step => inv.step step) (Inv.start memory apart)
  have count := inv.count
  have waiting := inv.waiting
  have no_transfer : ∀ input, s.place.input = some input → ∀ i, s.buffer i ≠ input :=
    fun input has => inv.no_transfer has
  obtain ⟨oldest, released, queue, -⟩ := inv
  exact ⟨queue.apart, no_transfer, count, queue.room, waiting, queue.delivered⟩

section OneTransfer

theorem nine_apart :
    Function.Injective (Sum.elim (Fin.castSucc : Fin 8 → Fin 9) fun _ : Fin 1 => Fin.last 8) := by
  intro a b same
  cases a with
  | inl a =>
    cases b with
    | inl b => exact congrArg _ (Fin.castSucc_injective 8 same)
    | inr b => exact absurd same (Fin.castSucc_lt_last a).ne
  | inr a =>
    cases b with
    | inl b => exact absurd same (Fin.castSucc_lt_last b).ne'
    | inr b => exact congrArg _ (Subsingleton.elim a b)

theorem one_delivered :
    ∃ s : State 1 (Fin 9) Nat, s.delivered = [(7, 0)] ∧
      s.delivered = ((blocks s.arrivals).take 1).map (reported false .int16_real) := by
  have start : Runs (Step false .int16_real) (fun _ _ => True)
      (State.start Fin.castSucc (fun _ => Fin.last 8) (fun _ => 0) : State 1 (Fin 9) Nat)
      (State.start Fin.castSucc (fun _ => Fin.last 8) (fun _ => 0)) := .refl
  have run := ((((start.tail (a := Act.fill 0 7) (.fill rfl) trivial).tail
    (a := Act.enter 0) (.enter rfl) trivial).tail
    (a := Act.receive 0) (.receive rfl) trivial).tail
    (a := Act.wake) (.wake rfl) trivial).tail
    (a := Act.callback false) (.callback (s := _) rfl) trivial
  exact ⟨_, rfl, (blocks_delivered nine_apart run).2.2.2.2.2⟩

/-- The device streams through one transfer, while the consumer converts a block. -/
structure Flows (s : State 1 (Fin 9) Unit) (count : Nat) (arrivals : List (Arrival Unit))
    (delivered : Nat) : Prop where
  runs : s.runs = true
  with_device : s.transfer 0 = .submitted
  converts : ∃ input dropped, s.place = .converts input dropped
  count : s.received_buffer_count = count
  arrivals : s.arrivals = arrivals
  delivered : s.delivered.length = delivered

variable {start s : State 1 (Fin 9) Unit} {count delivered : Nat} {l : List (Arrival Unit)}

abbrev Goes : State 1 (Fin 9) Unit → State 1 (Fin 9) Unit → Prop :=
  Runs (Step false .int16_real) (fun _ _ => True)

theorem Flows.arrives (flows : Flows s count l delivered) (run : Goes start s) :
    ∃ s', Goes start s' ∧
      Flows s' (if count < RAW_BUFFER_COUNT then count + 1 else count)
        (l ++ [if count < RAW_BUFFER_COUNT then .received () else .discarded]) delivered := by
  obtain ⟨runs, with_device, converts, rfl, rfl, rfl⟩ := flows
  have resubmitted := run
    |>.tail (a := Act.enter 0) (.enter with_device)
    |>.tail (a := Act.receive 0)
      (.receive (by simp only [runs, Function.update_self]; rfl)) trivial
    |>.tail (a := Act.resubmit 0 true)
      (.resubmit (by rw [transfer_callback_transfer, Function.update_self])) trivial
  refine ⟨_, resubmitted, ?_⟩
  unfold State.transfer_callback
  by_cases room : s.received_buffer_count < RAW_BUFFER_COUNT
  · simp only [if_pos room]
    exact ⟨runs, rfl, converts, rfl, rfl, rfl⟩
  · simp only [if_neg room]
    exact ⟨runs, rfl, converts, rfl, rfl, rfl⟩

theorem Flows.fills {k : Nat} (flows : Flows s count l delivered) (run : Goes start s)
    (room : count + k ≤ RAW_BUFFER_COUNT) :
    ∃ s', Goes start s' ∧
      Flows s' (count + k) (l ++ List.replicate k (.received ())) delivered := by
  induction k with
  | zero =>
    refine ⟨s, run, ?_⟩
    rw [List.replicate_zero, List.append_nil]
    exact flows
  | succ k ih =>
    obtain ⟨s', run', flows'⟩ := ih (Nat.le_of_succ_le room)
    obtain ⟨s'', run'', flows''⟩ := flows'.arrives run'
    have free : count + k < RAW_BUFFER_COUNT := room
    rw [if_pos free, if_pos free, List.append_assoc, ← List.replicate_succ'] at flows''
    exact ⟨s'', run'', flows''⟩

theorem Flows.loses (k : Nat) (flows : Flows s RAW_BUFFER_COUNT l delivered) (run : Goes start s) :
    ∃ s', Goes start s' ∧
      Flows s' RAW_BUFFER_COUNT (l ++ List.replicate k .discarded) delivered := by
  induction k with
  | zero =>
    refine ⟨s, run, ?_⟩
    rw [List.replicate_zero, List.append_nil]
    exact flows
  | succ k ih =>
    obtain ⟨s', run', flows'⟩ := ih
    obtain ⟨s'', run'', flows''⟩ := flows'.arrives run'
    rw [if_neg (Nat.lt_irrefl _), if_neg (Nat.lt_irrefl _), List.append_assoc,
      ← List.replicate_succ'] at flows''
    exact ⟨s'', run'', flows''⟩

theorem Flows.delivers (flows : Flows s (count + 2) l delivered) (run : Goes start s) :
    ∃ s', Goes start s' ∧ Flows s' (count + 1) l (delivered + 1) := by
  obtain ⟨runs, with_device, ⟨input, dropped, at_p⟩, two, rfl, rfl⟩ := flows
  have called := run.tail (a := Act.callback false) (.callback at_p)
  have finished := called.tail (a := Act.finish) (.finish rfl)
  refine ⟨_, finished, ?_⟩
  unfold State.consumer_loop
  rw [if_neg (by rw [Bool.not_eq_false]; exact runs), if_neg (by rw [two]; nofun)]
  refine ⟨runs, with_device, ⟨_, _, rfl⟩, ?_, rfl, ?_⟩
  · change s.received_buffer_count - 1 = _
    rw [two]
    rfl
  · exact List.length_append

theorem Flows.empties {k : Nat} (flows : Flows s (k + 1) l delivered) (run : Goes start s) :
    ∃ s', Goes start s' ∧ Flows s' 1 l (delivered + k) := by
  induction k generalizing s delivered with
  | zero => exact ⟨s, run, flows⟩
  | succ k ih =>
    obtain ⟨s', run', flows'⟩ := flows.delivers run
    obtain ⟨s'', run'', flows''⟩ := ih flows' run'
    rw [Nat.add_assoc, Nat.add_comm 1] at flows''
    exact ⟨s'', run'', flows''⟩

theorem blocksFrom_discarded (d k : Nat) (l : List (Arrival Unit)) :
    blocksFrom d (List.replicate k .discarded ++ l) = blocksFrom (d + k) l := by
  induction k generalizing d with
  | zero => rfl
  | succ k ih =>
    rw [List.replicate_succ, List.cons_append]
    change blocksFrom (d + 1) (List.replicate k .discarded ++ l) = _
    rw [ih, Nat.add_assoc, Nat.add_comm 1]

/-- The counter of the dropped buffers starts again at `2 ^ 32`, and a block is reported without
    the samples lost in front of it. -/
theorem dropped_wrap :
    ¬ ∀ s : State 1 (Fin 9) Unit,
      Goes (State.start Fin.castSucc (fun _ => Fin.last 8) fun _ => ()) s →
      s.delivered = ((blocks s.arrivals).take s.delivered.length).map
        fun b => (b.1, b.2 * sample_count false .int16_real) := by
  intro holds
  have start : Goes (State.start Fin.castSucc (fun _ => Fin.last 8) fun _ => ())
      (State.start Fin.castSucc (fun _ => Fin.last 8) fun _ => ()) := .refl
  have first := (((start.tail (a := Act.enter 0) (.enter rfl) trivial).tail
    (a := Act.receive 0) (.receive rfl) trivial).tail
    (a := Act.resubmit 0 true) (.resubmit rfl) trivial).tail (a := Act.wake) (.wake rfl)
  obtain ⟨s₀, run₀, taken⟩ : ∃ s, Goes (State.start Fin.castSucc (fun _ => Fin.last 8) fun _ => ())
      s ∧ Flows s 1 [.received ()] 0 := ⟨_, first, rfl, rfl, ⟨_, _, rfl⟩, rfl, rfl, rfl⟩
  obtain ⟨s₁, run₁, full⟩ := taken.fills run₀ (k := 7) (Nat.le_refl 8)
  obtain ⟨s₂, run₂, lost⟩ := full.loses (2 ^ 32) run₁
  obtain ⟨s₃, run₃, seven⟩ := lost.delivers run₂
  obtain ⟨s₄, run₄, eight⟩ := seven.arrives run₃
  obtain ⟨s₅, run₅, last⟩ := eight.empties (k := 7) run₄
  obtain ⟨runs, with_device, ⟨input, dropped, at_p⟩, one, arrivals, delivered⟩ := last
  have run₆ := run₅.tail (a := Act.callback false) (.callback at_p)
  have inv : Inv false .int16_real _ := run₆.keeps (fun _ _ _ inv _ step => inv.step step)
    (Inv.start (fun _ => ()) nine_apart)
  have claimed := holds _ run₆
  obtain ⟨oldest, released, queue, _⟩ := inv
  have reports := queue.delivered.symm.trans claimed
  have length : (s₅.delivered ++ [(s₅.memory input,
      dropped_samples dropped (sample_count false .int16_real))]).length = 9 := by
    rw [List.length_append, delivered]
    rfl
  have whole : blocks s₅.arrivals = List.replicate 8 ((), 0) ++ [((), 2 ^ 32)] := by
    rw [arrivals, if_pos (by decide), List.append_assoc, blocks, blocksFrom_append,
      blocksFrom_discarded]
    rfl
  change List.map _ (List.take (List.length (_ ++ _)) (blocks s₅.arrivals)) =
    List.map _ (List.take (List.length (_ ++ _)) (blocks s₅.arrivals)) at reports
  rw [length, whole] at reports
  have ninth := congrArg (fun m => m[8]?) reports
  simp [reported, sample_count, buffer_size] at ninth

end OneTransfer

end Soapy.Receive.Airspy
