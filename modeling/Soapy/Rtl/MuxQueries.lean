import Soapy.Rtl.MuxInvariant

/-! # Synchronous queries without a stream

As long as no thread asks for a stream, no data comes. Then nothing is ever left for a slot
that is given back, and every run keeps to what the invariant needs.
-/

namespace Soapy.Rtl.Mux

open Lib Soapy.Rtl

variable {T D R : Type}

def Synchronous (_ : State T D R) : Act T D R → Prop
  | .send_read_async => False
  | _ => True

def Message.Replies (x : Message D R) : Prop := ∃ n r, x.answer = .reply n r

/-- The modes of a thread that does not read a stream. -/
def Mode.Calm : Mode → Prop
  | .idle | .holds _ | .leaves _ => True
  | _ => False

/-- Nobody streams, and all that is under way are queries and their answers. -/
structure Quiet (s : State T D R) : Prop where
  reader : (s.mode none).Calm
  stream : s.stream = .off
  queries : ∀ q ∈ s.queries, ∃ n, q.ask = .query n
  replies : ∀ x ∈ s.replies, x.Replies
  reply : ∀ i x, s.reply i = some x → x.Replies

theorem Quiet.start : Quiet (State.start : State T D R) := by
  constructor
  · trivial
  · rfl
  · intro q member
    cases member
  · intro x member
    cases member
  · intro i x reply
    cases reply

theorem Quiet.clean {s : State T D R} {i : Slot} (quiet : Quiet s) (spent : (s.view i).Spent) :
    (s.view i).Clean := by
  have off := streaming_off quiet.stream i
  have answers : ∀ x ∈ (s.view i).pending, x.Replies := by
    intro x member
    rcases List.mem_append.mp member with boxed | arriving
    · split at boxed
      · exact quiet.reply i x (by simpa [State.view] using boxed)
      · cases boxed
    · exact quiet.replies x (List.mem_filter.mp arriving).1
  refine ⟨?_, ?_, off⟩
  · rcases spent.2 with ⟨asked, -⟩ | ⟨-, on⟩
    · exact asked
    · simp [off] at on
  · apply List.eq_nil_iff_forall_not_mem.mpr
    intro x member
    obtain ⟨n, r, reply⟩ := answers x member
    obtain ⟨d, data⟩ := spent.1 x member
    cases reply.symm.trans data

variable [DecidableEq T]

theorem Quiet.meets {s s' : State T D R} {a : Act T D R} (quiet : Quiet s) (inv : Inv s)
    (step : Step s a s') : Meets s a := by
  have clean : ∀ h i, s.mode h = .holds i → (s.view i).Clean := by
    intro h i at_i
    have fits := inv.slots.fits h i (by rw [at_i]; rfl)
    rw [at_i] at fits
    exact quiet.clean (fits.of_spends trivial)
  cases step with
  | @send t => exact fun i => clean (some t) i
  | send_read_async => exact fun i => clean none i
  | recv_other =>
    intro reading
    have calm := quiet.reader
    cases at_none : s.mode none with
    | idle | holds | leaves | cancels | flushes => simp [at_none, Mode.reading] at reading
    | waits | receives | answered | loops =>
      rw [at_none] at calm
      cases calm
  | @drop i x rest at_i =>
    have calm := quiet.reader
    rw [at_i] at calm
    cases calm
  | _ => trivial

theorem Quiet.reader_step {s s' : State T D R} {a : Act T D R} (quiet : Quiet s)
    (allowed : Synchronous s a) (step : Step s a s') : (s'.mode none).Calm := by
  have calm := quiet.reader
  have moves : ∀ {h m}, (h = none → m.Calm) → (Function.update s.mode h m none).Calm := by
    intro h m next
    by_cases here : h = none
    · subst here
      rw [Function.update_self]
      exact next rfl
    · rw [Function.update_of_ne (Ne.symm here)]
      exact calm
  have other : ∀ {h m m'}, s.mode h = m → ¬ m.Calm →
      (Function.update s.mode h m' none).Calm := by
    intro h m m' at_m loud
    apply moves
    rintro rfl
    rw [at_m] at calm
    exact absurd calm loud
  cases step with
  | alloc_qr | send_fails | free_qr => exact moves (fun _ => trivial)
  | send => exact calm
  | recv_box at_i | recv_lock at_i | recv_own at_i => exact other at_i id
  | send_read_async => cases allowed
  | refused at_i | started at_i | next_round at_i | callback at_i | send_cancel at_i
  | flush_lock at_i | flush_end at_i =>
    rw [at_i] at calm
    cases calm
  | recv_other | serve | cancel_async | drop | start_stream | refuse_stream => exact calm
  | send_data | take_cancel | stray_cancel => exact calm

theorem Quiet.step {s s' : State T D R} {a : Act T D R} (quiet : Quiet s)
    (allowed : Synchronous s a) (step : Step s a s') : Quiet s' := by
  have reader := quiet.reader_step allowed step
  have tail : ∀ {q rest}, s.queries = q :: rest → ∀ q' ∈ rest, ∃ n, q'.ask = .query n := by
    intro q rest queries q' member
    exact quiet.queries q' (by rw [queries]; exact List.mem_cons_of_mem q member)
  have head : ∀ {q rest}, s.queries = q :: rest → ∃ n, q.ask = .query n := by
    intro q rest queries
    exact quiet.queries q (by rw [queries]; exact List.mem_cons_self)
  have first : ∀ {x rest}, s.replies = x :: rest → x.Replies := by
    intro x rest replies
    exact quiet.replies x (by rw [replies]; exact List.mem_cons_self)
  have others : ∀ {x rest}, s.replies = x :: rest → ∀ y ∈ rest, y.Replies := by
    intro x rest replies y member
    exact quiet.replies y (by rw [replies]; exact List.mem_cons_of_mem x member)
  cases step with
  | alloc_qr | send_fails | recv_box | recv_lock | free_qr | cancel_async | refused | started
  | next_round | callback | flush_lock | flush_end =>
    exact ⟨reader, quiet.stream, quiet.queries, quiet.replies, quiet.reply⟩
  | @send t i at_i =>
    apply Quiet.mk reader quiet.stream _ quiet.replies quiet.reply
    intro q member
    rcases List.mem_append.mp member with old | new
    · exact quiet.queries q old
    · obtain rfl := List.mem_singleton.mp new
      exact ⟨s.next, rfl⟩
  | @recv_own h i want x rest at_i replies own =>
    constructor
    · exact reader
    · exact quiet.stream
    · exact quiet.queries
    · exact others replies
    · intro j y reply
      by_cases here : j = i
      · obtain rfl : x = y := by simpa [here] using reply
        exact first replies
      · exact quiet.reply j y (by simpa [here] using reply)
  | @recv_other h i want x rest at_i replies other =>
    constructor
    · exact reader
    · exact quiet.stream
    · exact quiet.queries
    · exact others replies
    · intro j y reply
      by_cases here : j = x.id
      · obtain rfl : x = y := by simpa [here] using reply
        exact first replies
      · by_cases own : j = i
        · simp [own, Ne.symm other] at reply
        · exact quiet.reply j y (by simpa [here, own] using reply)
  | @serve i n rest r queries =>
    apply Quiet.mk reader quiet.stream (tail queries) _ quiet.reply
    intro x member
    rcases List.mem_append.mp member with old | new
    · exact quiet.replies x old
    · obtain rfl := List.mem_singleton.mp new
      exact ⟨n, r, rfl⟩
  | send_read_async => cases allowed
  | send_cancel at_i | drop at_i =>
    have calm := quiet.reader
    rw [at_i] at calm
    cases calm
  | start_stream queries | stray_cancel queries =>
    obtain ⟨n, query⟩ := head queries
    cases query
  | refuse_stream on | send_data on => cases on.symm.trans quiet.stream
  | take_cancel queries on => cases on.symm.trans quiet.stream

theorem Quiet.run {s : State T D R} (run : Runs Step Synchronous State.start s) :
    Inv s ∧ Quiet s := by
  have keeps : ∀ (s : State T D R) a s', Inv s ∧ Quiet s → Synchronous s a → Step s a s' →
      Inv s' ∧ Quiet s' := by
    intro s a s' holds allowed step
    exact ⟨holds.1.step (holds.2.meets holds.1 step) step, holds.2.step allowed step⟩
  exact run.keeps keeps ⟨.start, .start⟩

/-- No two threads hold one slot, and a thread behind `send_recv_msg` has its own answer in its
    reply. The server answered each query once, in order, and an answer that was not found is in the
    mailbox of the thread that waits or on the socket. No bit is set for a free slot. -/
theorem queries_multiplexed {s : State T D R} (run : Runs Step Synchronous State.start s) :
    (∀ h h' i, (s.mode h).slot = some i → (s.mode h').slot = some i → h = h') ∧
    (∀ t i n, s.mode (some t) = .answered i (.reply n) →
      ∃ r, s.reply i = some ⟨i, .reply n r⟩ ∧ (n, r) ∈ s.served) ∧
    (∀ n x, (n, x) ∈ s.found → ∃ i r, x = some ⟨i, .reply n r⟩ ∧ (n, r) ∈ s.served) ∧
    s.served.map Prod.fst ++ s.queries.filterMap (fun q => q.ask.number) = List.range s.next ∧
    (∀ n r, (n, r) ∈ s.served → (∃ i, (n, some ⟨i, .reply n r⟩) ∈ s.found) ∨
      ∃ t i, (s.mode (some t)).Awaits i (.reply n) ∧ (s.view i).pending = [⟨i, .reply n r⟩]) ∧
    ∀ i, s.qr_box i = true → s.qr_mask i = true := by
  obtain ⟨inv, quiet⟩ := Quiet.run run
  constructor
  · exact inv.slots.distinct
  constructor
  · exact fun t i n => inv.answer
  constructor
  · exact inv.records.found
  constructor
  · exact inv.records.numbered
  constructor
  · exact fun n r => inv.kept
  · intro i boxed
    by_cases empty : ∀ h, (s.mode h).slot ≠ some i
    · have clean := (quiet.clean (inv.slots.free i empty)).2.1
      obtain ⟨x, reply⟩ := inv.guards.boxed i boxed
      rw [pending_boxed boxed reply] at clean
      cases clean
    · push Not at empty
      obtain ⟨h, at_i⟩ := empty
      exact inv.held h i at_i

theorem parked_answer_found : ∃ s : State Bool Unit Nat,
    s.mode (some true) = .answered 0 (.reply 0) ∧
      ∃ r, s.reply 0 = some ⟨0, .reply 0 r⟩ ∧ (0, r) ∈ s.served := by
  have start : Runs Step Synchronous (State.start : State Bool Unit Nat) State.start := .refl
  have ten := start
    |>.tail (.alloc_qr (h := some true) (i := 0) rfl rfl (by decide))
    |>.tail (.alloc_qr (h := some false) (i := 1) rfl rfl (by decide))
    |>.tail (.send (t := true) rfl)
    |>.tail (.send (t := false) rfl)
    |>.tail (.recv_lock (h := some false) rfl rfl rfl)
    |>.tail (.serve (r := 100) rfl (by simp [State.start]))
    |>.tail (.recv_other (h := some false) rfl rfl (by decide))
    |>.tail (.serve (r := 101) rfl (by simp [State.start]))
    |>.tail (.recv_own (h := some false) rfl rfl rfl)
    |>.tail (.recv_box (h := some true) rfl rfl rfl)
  exact ⟨_, rfl, (queries_multiplexed ten).2.1 true 0 0 rfl⟩

end Soapy.Rtl.Mux
