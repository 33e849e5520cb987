import Soapy.Rtl.MuxInvariant

/-! # A stream among queries

The reply of the streaming slot is its mailbox, too, and the flush behind the cancel takes
whatever is on the socket. So a stream delivers all data, and the queries get their answers,
in the runs in which no thread parks data over data and the flush meets no answer.
-/

namespace Soapy.Rtl.Mux

open Lib Soapy.Rtl

variable {T D R : Type}

/-- What a state shows of a stream that loses nothing before its cancel, and of queries that
    all get their own answers. -/
structure Delivers (s : State T D R) : Prop where
  /-- The callback was given the data as it was sent, without a gap. -/
  passed : s.passed <+: s.sent.map .data
  /-- Before the stream runs, what follows the reply to the query is all data. -/
  starting : ∀ i, (s.mode none).Awaits i .start → (s.view i).streaming = some true →
    s.passed = [] ∧ (s.view i).pending.map Message.answer = .started :: s.sent.map .data
  started : ∀ i, s.mode none = .answered i .start → (s.view i).streaming = some true →
    s.passed = [] ∧ (s.view i).pending.map Message.answer = s.sent.map .data
  /-- While it runs, what the callback was not given yet is on its way. -/
  reading : ∀ i, s.mode none = .loops i ∨ (s.mode none).Awaits i .data →
    s.passed ++ (s.view i).pending.map Message.answer = s.sent.map .data
  callback : ∀ i, s.mode none = .answered i .data → ∃ x, s.reply i = some x ∧
    s.passed ++ x.answer :: (s.view i).pending.map Message.answer = s.sent.map .data
  distinct : ∀ h h' i, (s.mode h).slot = some i → (s.mode h').slot = some i → h = h'
  /-- A thread behind `send_recv_msg` has the answer to its own query. -/
  answer : ∀ t i n, s.mode (some t) = .answered i (.reply n) →
    ∃ r, s.reply i = some ⟨i, .reply n r⟩ ∧ (n, r) ∈ s.served
  found : ∀ n x, (n, x) ∈ s.found → ∃ i r, x = some ⟨i, .reply n r⟩ ∧ (n, r) ∈ s.served
  numbered : s.served.map Prod.fst ++ s.queries.filterMap (fun q => q.ask.number) = List.range s.next
  /-- No answer gets lost on its way to the thread that waits for it. -/
  kept : ∀ n r, (n, r) ∈ s.served → (∃ i, (n, some ⟨i, .reply n r⟩) ∈ s.found) ∨
    ∃ t i, (s.mode (some t)).Awaits i (.reply n) ∧ (s.view i).pending = [⟨i, .reply n r⟩]

theorem Mode.Awaits.slot {m : Mode} {i : Slot} {want : Want} (awaits : m.Awaits i want) :
    m.slot = some i := by
  rcases awaits with rfl | rfl
  · rfl
  · rfl

theorem Inv.delivers {s : State T D R} (inv : Inv s) : Delivers s := by
  have fits := inv.slots.fits none
  constructor
  · exact inv.records.passed
  · intro i awaits on
    cases (fits i awaits.slot).of_starts awaits with
    | asked _ _ off => simp [on] at off
    | reads _ _ silent => simp [on] at silent
    | streams _ first answer behind _ none => exact ⟨none, by rw [first, List.map_cons, answer, behind]⟩
    | refused _ _ _ off => simp [on] at off
  · intro i at_i on
    have fits := fits i (by rw [at_i]; rfl)
    rw [at_i] at fits
    cases fits.of_started with
    | streams _ _ _ all _ none => exact ⟨none, all⟩
    | refused clean =>
      have off := clean.2.2
      simp [on] at off
  · intro i mode
    have at_i : (s.mode none).slot = some i := by
      rcases mode with loops | awaits
      · rw [loops]
        rfl
      · exact awaits.slot
    exact ((fits i at_i).of_streams mode).sent
  · intro i at_i
    have fits := fits i (by rw [at_i]; rfl)
    rw [at_i] at fits
    exact fits.of_callback.sent
  · exact inv.slots.distinct
  · exact fun t i n => inv.answer
  · exact inv.records.found
  · exact inv.records.numbered
  · exact fun n r => inv.kept

variable [DecidableEq T]

/-- In a run whose steps keep to `Meets`, the stream and the queries lose nothing. -/
theorem stream_delivers {s : State T D R} (run : Runs Step Meets State.start s) : Delivers s :=
  (Inv.start.run run).delivers

omit [DecidableEq T] in
theorem Meets.send {s : State T D R} {t : T} {i : Slot} (at_i : s.mode (some t) = .holds i)
    (clean : (s.view i).Clean) : Meets s (.send t) := by
  intro j at_j
  obtain rfl := Mode.holds.inj (at_i.symm.trans at_j)
  exact clean

theorem query_in_stream : ∃ s : State Unit Nat Nat,
    s.mode (some ()) = .answered 1 (.reply 0) ∧ s.passed = [.data 1] ∧ Delivers s := by
  have start : Runs Step Meets (State.start : State Unit Nat Nat) State.start := .refl
  have passed := start
    |>.tail (.alloc_qr (h := none) (i := 0) rfl rfl (by decide))
    |>.tail (.send_read_async rfl) (fun i at_i => ⟨rfl, rfl, rfl⟩)
    |>.tail (.start_stream rfl rfl)
    |>.tail (.send_data (d := 1) rfl)
    |>.tail (.recv_lock (h := none) rfl rfl rfl)
    |>.tail (.recv_own (h := none) rfl rfl rfl)
    |>.tail (.started rfl rfl (.inl rfl))
    |>.tail (.alloc_qr (h := some ()) (i := 1) rfl rfl (by decide))
    |>.tail (.send (t := ()) rfl) (.send rfl ⟨rfl, rfl, rfl⟩)
    |>.tail (.recv_lock (h := some ()) rfl rfl rfl)
    |>.tail (.recv_other (h := some ()) rfl rfl (by decide))
      (fun _ => ⟨rfl, nofun⟩)
    |>.tail (.serve (r := 7) rfl (by simp))
    |>.tail (.recv_own (h := some ()) rfl rfl rfl)
    |>.tail (.next_round rfl rfl)
    |>.tail (.recv_box (h := none) rfl rfl rfl)
    |>.tail (.callback rfl rfl)
  exact ⟨_, rfl, rfl, stream_delivers passed⟩

/-- A query thread parks the second data over the first, which the callback never gets; and the
    flush takes the answer to a query, whose thread waits forever. -/
theorem stream_loses :
    (∃ s : State Unit Nat Nat, Runs Step (fun _ _ => True) State.start s ∧
      s.is_async_cancel = false ∧ s.sent = [1, 2] ∧ s.passed = [.data 2] ∧ ¬ Delivers s) ∧
    ∃ s : State Unit Nat Nat, Runs Step (fun _ _ => True) State.start s ∧ s.served = [(0, 7)] ∧
      s.mode (some ()) = .receives 1 (.reply 0) ∧ (s.view 1).pending = [] ∧ s.queries = [] ∧
      ¬ Delivers s := by
  have start : Runs Step (fun _ _ => True) (State.start : State Unit Nat Nat) State.start := .refl
  have alloc' := start
    |>.tail (.alloc_qr (h := none) (i := 0) rfl rfl (by decide))
    |>.tail (.send_read_async rfl)
    |>.tail (.start_stream rfl rfl)
    |>.tail (.send_data (d := 1) rfl)
    |>.tail (.recv_lock (h := none) rfl rfl rfl)
    |>.tail (.recv_own (h := none) rfl rfl rfl)
    |>.tail (.started rfl rfl (.inl rfl))
    |>.tail (.alloc_qr (h := some ()) (i := 1) rfl rfl (by decide))
  constructor
  · have asked' := alloc'.tail (.send (t := ()) rfl)
    have served := asked'
      |>.tail (.recv_lock (h := some ()) rfl rfl rfl)
      |>.tail (.recv_other (h := some ()) rfl rfl (by decide))
      |>.tail (.send_data (d := 2) rfl)
      |>.tail (.recv_other (h := some ()) rfl rfl (by decide))
      |>.tail (.serve (r := 7) rfl (by simp))
    have passed := served
      |>.tail (.recv_own (h := some ()) rfl rfl rfl)
      |>.tail (.next_round rfl rfl)
      |>.tail (.recv_box (h := none) rfl rfl rfl)
      |>.tail (.callback rfl rfl)
    refine ⟨_, passed, rfl, rfl, rfl, ?_⟩
    intro delivers
    obtain ⟨rest, gap⟩ := delivers.passed
    simp at gap
  · have cancel := alloc'.tail .cancel_async
    have waits := cancel
      |>.tail (.send_cancel rfl rfl)
      |>.tail (.send (t := ()) rfl)
      |>.tail (.flush_lock rfl rfl)
      |>.tail (.take_cancel rfl rfl)
      |>.tail (.serve (r := 7) rfl (by simp))
      |>.tail (.drop rfl rfl)
      |>.tail (.drop rfl rfl)
      |>.tail (.flush_end rfl)
      |>.tail (.recv_lock (h := some ()) rfl rfl rfl)
    refine ⟨_, waits, rfl, rfl, rfl, rfl, ?_⟩
    intro delivers
    rcases delivers.kept 0 7 (by simp [State.start]) with ⟨i, found⟩ | ⟨t, i, awaits, pending⟩
    · cases found
    · have here : i = 1 := by
        have at_i := awaits.slot
        exact (Option.some.inj at_i).symm
      subst here
      cases pending

end Soapy.Rtl.Mux
