import Soapy.Rtl.MuxViews

/-! # The invariant of the multiplexer

It holds in all runs in which no message is stored where another one still is, and nothing
of a stream stays behind for the next user of its slot.
-/

namespace Soapy.Rtl.Mux

open Lib Soapy.Rtl

variable {T D R : Type} [DecidableEq T]

section Guards

variable {mode : Option T → Mode} {box : Slot → Bool} {lock : Option (Option T)}
  {reply : Slot → Option (Message D R)} {h : Option T} {i : Slot} {m : Mode} {x : Message D R}

def Mode.Locks : Mode → Prop
  | .receives _ _ | .flushes _ => True
  | _ => False

/-- What the receive lock and the mailbox bits say of the threads and the replies. -/
structure Guards (mode : Option T → Mode) (lock : Option (Option T)) (box : Slot → Bool)
    (reply : Slot → Option (Message D R)) : Prop where
  locked : ∀ h, (mode h).Locks → lock = some h
  unboxed : ∀ h i want, mode h = .receives i want → box i = false
  boxed : ∀ i, box i = true → ∃ m, reply i = some m

section

variable (guards : Guards mode lock box reply)
include guards

theorem Guards.moves (free : ¬ m.Locks) :
    Guards (Function.update mode h m) lock box reply := by
  constructor
  · intro h' locks
    by_cases here : h' = h
    · subst here
      rw [Function.update_self] at locks
      exact absurd locks free
    · rw [Function.update_of_ne here] at locks
      exact guards.locked h' locks
  · intro h' i want receives
    by_cases here : h' = h
    · subst here
      rw [Function.update_self] at receives
      subst receives
      exact absurd trivial free
    · rw [Function.update_of_ne here] at receives
      exact guards.unboxed h' i want receives
  · exact guards.boxed

omit guards in
theorem Guards.locks (guards : Guards mode none box reply)
    (unboxed : ∀ i want, m = .receives i want → box i = false) :
    Guards (Function.update mode h m) (some h) box reply := by
  constructor
  · intro h' locks
    by_cases here : h' = h
    · rw [here]
    · rw [Function.update_of_ne here] at locks
      have held := guards.locked h' locks
      simp at held
  · intro h' i want receives
    by_cases here : h' = h
    · subst here
      rw [Function.update_self] at receives
      exact unboxed i want receives
    · rw [Function.update_of_ne here] at receives
      exact guards.unboxed h' i want receives
  · exact guards.boxed

theorem Guards.unlocks (has : (mode h).Locks)
    (free : ¬ m.Locks) : Guards (Function.update mode h m) none box reply := by
  constructor
  · intro h' locks
    by_cases here : h' = h
    · subst here
      rw [Function.update_self] at locks
      exact absurd locks free
    · rw [Function.update_of_ne here] at locks
      have one := (guards.locked h' locks).symm.trans (guards.locked h has)
      exact absurd (Option.some.inj one) here
  · exact (guards.moves free).unboxed
  · exact guards.boxed

omit [DecidableEq T] in
theorem Guards.unboxes :
    Guards mode lock (Function.update box i false) reply := by
  constructor
  · exact guards.locked
  · intro h j want receives
    by_cases here : j = i
    · rw [here, Function.update_self]
    · rw [Function.update_of_ne here]
      exact guards.unboxed h j want receives
  · intro j boxed
    by_cases here : j = i
    · simp [here] at boxed
    · rw [Function.update_of_ne here] at boxed
      exact guards.boxed j boxed

omit [DecidableEq T] in
theorem Guards.stores :
    Guards mode lock box (Function.update reply i (some x)) := by
  constructor
  · exact guards.locked
  · exact guards.unboxed
  · intro j boxed
    by_cases here : j = i
    · exact ⟨x, by rw [here, Function.update_self]⟩
    · rw [Function.update_of_ne here]
      exact guards.boxed j boxed

omit [DecidableEq T] in
/-- The header of a message for slot `j` goes through the reply of the receiving thread, whose
    mailbox is empty. -/
theorem Guards.parks {j : Slot} {want} (receives : mode h = .receives i want) (other : j ≠ i) :
    Guards mode lock (Function.update box j true)
      (Function.update (Function.update reply i none) j (some x)) := by
  constructor
  · exact guards.locked
  · intro h' k want' receives'
    have has := guards.locked h (by rw [receives]; trivial)
    have has' := guards.locked h' (by rw [receives']; trivial)
    obtain rfl : h' = h := Option.some.inj (has'.symm.trans has)
    obtain ⟨rfl, -⟩ := Mode.receives.inj (receives'.symm.trans receives)
    rw [Function.update_of_ne (Ne.symm other)]
    exact guards.unboxed h' k want' receives'
  · intro k boxed
    by_cases here : k = j
    · exact ⟨x, by rw [here, Function.update_self]⟩
    · rw [Function.update_of_ne here] at boxed ⊢
      have apart : k ≠ i := by
        rintro rfl
        rw [guards.unboxed h k want receives] at boxed
        cases boxed
      rw [Function.update_of_ne apart]
      exact guards.boxed k boxed

end

theorem Guards.step {s s' : State T D R} {a : Act T D R}
    (guards : Guards s.mode s.recv_lock s.qr_box s.reply) (step : Step s a s') :
    Guards s'.mode s'.recv_lock s'.qr_box s'.reply := by
  cases step with
  | alloc_qr => exact guards.moves id
  | send | send_fails | send_read_async => exact guards.moves id
  | refused | started | next_round | callback | send_cancel => exact guards.moves id
  | recv_box at_i free boxed => exact (guards.moves id).unboxes
  | recv_lock at_i free unboxed =>
    rw [free] at guards
    apply guards.locks
    intro j want receives
    cases receives
    exact unboxed
  | recv_own at_i replies own =>
    exact (guards.unlocks (by rw [at_i]; trivial) id).stores
  | recv_other at_i replies other => exact guards.parks at_i other
  | free_qr => exact guards.moves id
  | flush_lock at_i free =>
    rw [free] at guards
    apply guards.locks
    intro j want receives
    cases receives
  | flush_end at_i => exact guards.unlocks (by rw [at_i]; trivial) id
  | drop | cancel_async | serve => exact guards
  | start_stream | refuse_stream | send_data | take_cancel | stray_cancel => exact guards

theorem held_step {s s' : State T D R} {a : Act T D R}
    (held : ∀ h i, (s.mode h).slot = some i → s.qr_mask i = true)
    (distinct : ∀ h h' i, (s.mode h).slot = some i → (s.mode h').slot = some i → h = h')
    (step : Step s a s') : ∀ h i, (s'.mode h).slot = some i → s'.qr_mask i = true := by
  have moves : ∀ {h m} h' j, m.slot = (s.mode h).slot →
      (Function.update s.mode h m h').slot = some j → s.qr_mask j = true := by
    intro h m h' j still at_j
    by_cases here : h' = h
    · subst here
      rw [Function.update_self, still] at at_j
      exact held h' j at_j
    · rw [Function.update_of_ne here] at at_j
      exact held h' j at_j
  cases step with
  | @alloc_qr h i =>
    intro h' j at_j
    by_cases here : j = i
    · simp [here]
    · simp only [Function.update_of_ne here]
      by_cases own : h' = h
      · subst own
        simp only [Function.update_self] at at_j
        exact absurd (Option.some.inj at_j).symm here
      · simp only [Function.update_of_ne own] at at_j
        exact held h' j at_j
  | @free_qr h i done =>
    have at_i : (s.mode h).slot = some i := by
      rcases done with leaves | ⟨n, answered⟩
      · rw [leaves]
        rfl
      · rw [answered]
        rfl
    intro h' j at_j
    by_cases own : h' = h
    · subst own
      simp [Mode.slot] at at_j
    · simp only [Function.update_of_ne own] at at_j
      have apart : j ≠ i := by
        rintro rfl
        exact own (distinct h' h j at_j at_i)
      simp only [Function.update_of_ne apart]
      exact held h' j at_j
  | send at_i | send_fails at_i | send_read_async at_i | recv_box at_i | recv_lock at_i
  | recv_own at_i | refused at_i | started at_i | next_round at_i | callback at_i
  | send_cancel at_i | flush_lock at_i | flush_end at_i =>
    intro h' j
    exact moves h' j (by rw [at_i]; rfl)
  | recv_other | drop | cancel_async | serve => exact held
  | start_stream | refuse_stream | send_data | take_cancel | stray_cancel => exact held

end Guards

/-- No second message is put into the reply of the stream while the first one is in its mailbox or
    in the hands of the callback, the flush drops no answer to a query, and a query goes out on a
    slot for which nothing more comes. -/
def Meets (s : State T D R) : Act T D R → Prop
  | .send t => ∀ i, s.mode (some t) = .holds i → (s.view i).Clean
  | .send_read_async => ∀ i, s.mode none = .holds i → (s.view i).Clean
  | .recv_other _ m => (s.mode none).reading = some m.id →
      s.qr_box m.id = false ∧ s.mode none ≠ .answered m.id .data
  | .drop m => ∀ n r, m.answer ≠ .reply n r
  | _ => True

variable {i : Slot} {t : T} {n : Nat}

section Step

variable {s s' : State T D R} {a : Act T D R}

omit [DecidableEq T] in
theorem streaming_apart {replied} (stream : s.stream = .on i replied) :
    ∀ j, j ≠ i → (s.view j).streaming = none := by
  intro j other
  simp [State.view, stream, Stream.to, Ne.symm other]

omit [DecidableEq T] in
theorem streaming_off (stream : s.stream = .off) (j : Slot) : (s.view j).streaming = none := by
  simp [State.view, stream, Stream.to]

omit [DecidableEq T] in
theorem pending_unboxed (unboxed : s.qr_box i = false) :
    (s.view i).pending = s.replies.filter (fun x => x.id = i) := by
  simp [View.pending, State.view, unboxed]

omit [DecidableEq T] in
theorem pending_boxed {x} (boxed : s.qr_box i = true) (reply : s.reply i = some x) :
    (s.view i).pending = x :: s.replies.filter (fun x => x.id = i) := by
  simp [View.pending, State.view, boxed, reply]

omit [DecidableEq T] in
theorem stream_on {replied} (streaming : (s.view i).streaming = some replied) :
    s.stream = .on i replied := by
  cases on : s.stream with
  | off => simp [streaming_off on i] at streaming
  | on j replied' =>
    simp only [State.view, on, Stream.to, Option.ite_none_right_eq_some] at streaming
    obtain ⟨rfl, same⟩ := streaming
    rw [Option.some.inj same]

section

variable (slots : Slots s.mode s.view s.served s.sent s.passed)
include slots

omit [DecidableEq T] in
theorem Slots.cancelled {rest}
    (asked : (s.view i).asked = .cancel_async :: rest) : s.stream = .on i true := by
  by_cases empty : ∀ h, (s.mode h).slot ≠ some i
  · rcases (slots.free i empty).2 with ⟨none, -⟩ | ⟨-, on⟩
    · simp [asked] at none
    · exact stream_on on
  · push Not at empty
    obtain ⟨h, at_i⟩ := empty
    rcases (slots.fits h i at_i).asked_cases with none | ⟨-, on, -⟩ | ⟨k, t, query, -⟩ | ⟨read, -⟩
    · simp [asked] at none
    · exact stream_on on
    · simp [asked] at query
    · simp [asked] at read

omit [DecidableEq T] in
theorem Slots.asker {rest}
    (asked : (s.view i).asked = .query n :: rest) : ∃ t, (s.mode (some t)).Awaits i (.reply n) := by
  by_cases empty : ∀ h, (s.mode h).slot ≠ some i
  · rcases (slots.free i empty).2 with ⟨none, -⟩ | ⟨cancel, -⟩
    · simp [asked] at none
    · simp [asked] at cancel
  · push Not at empty
    obtain ⟨h, at_i⟩ := empty
    rcases (slots.fits h i at_i).asked_cases with none | ⟨cancel, -⟩ | ⟨k, t, query, -, -, rfl, mode⟩ |
        ⟨read, -⟩
    · simp [asked] at none
    · simp [asked] at cancel
    · obtain ⟨rfl, -⟩ : n = k ∧ rest = [] := by simpa [asked] using query
      exact ⟨t, mode⟩
    · simp [asked] at read

omit [DecidableEq T] in
theorem Slots.step_other {h i want x rest}
    (guards : Guards s.mode s.recv_lock s.qr_box s.reply) (receives : s.mode h = .receives i want)
    (replies : s.replies = x :: rest) (other : x.id ≠ i) (meets : Meets s (.recv_other h x)) :
    Slots s.mode
      (State.view { s with
        qr_box := Function.update s.qr_box x.id true
        reply := Function.update (Function.update s.reply i none) x.id (some x)
        replies := rest }) s.served s.sent s.passed := by
  have unboxed := guards.unboxed h i want receives
  -- First the header goes through the reply of the receiving thread.
  have passing : Slots s.mode (State.view { s with reply := Function.update s.reply i none })
      s.served s.sent s.passed := by
    apply slots.changes (i := i) _ (fun _ member => member) (.inl ⟨rfl, rfl⟩)
    · intro h' at_i fits
      obtain rfl := slots.distinct h' h i at_i (by rw [receives]; rfl)
      rw [receives] at fits ⊢
      apply Fits.awaiting fits (.inr rfl) (.inr rfl)
      · rfl
      · simp [View.pending, State.view, unboxed]
      · rfl
    · intro empty
      exact absurd (by rw [receives]; rfl) (empty h)
    · intro j apart
      simp [State.view, Function.update_of_ne apart]
  have same : State.view { s with reply := Function.update s.reply i none } x.id = s.view x.id := by
    simp [State.view, Function.update_of_ne other]
  -- Then it is stored for its own slot, where at most one message is in its way.
  let after := State.view { s with
    qr_box := Function.update s.qr_box x.id true
    reply := Function.update (Function.update s.reply i none) x.id (some x)
    replies := rest }
  have one : (after x.id).pending = x :: rest.filter (fun y => y.id = x.id) :=
    pending_boxed (by simp) (by simp)
  have pending : s.qr_box x.id = false ∧ (s.view x.id).pending = (after x.id).pending ∨
      s.qr_box x.id = true ∧ ∃ y, (s.view x.id).pending = y :: (after x.id).pending := by
    cases box : s.qr_box x.id with
    | false => exact .inl ⟨rfl, by rw [one, pending_unboxed box, replies]; simp⟩
    | true =>
      obtain ⟨y, reply⟩ := guards.boxed x.id box
      exact .inr ⟨rfl, y, by rw [one, pending_boxed box reply, replies]; simp⟩
  apply passing.changes (i := x.id) _ (fun _ member => member) (.inl ⟨rfl, rfl⟩)
  · intro h' at_x fits
    rw [same] at fits
    apply Fits.parked (x := x) fits
    · rfl
    · simp [State.view]
    · exact one
    · exact pending.imp And.right And.right
    · rfl
    · intro reader reading
      subst reader
      obtain ⟨empty, apart⟩ := meets reading
      rcases pending with ⟨-, eq⟩ | ⟨full, -⟩
      · exact ⟨eq, apart⟩
      · simp [empty] at full
  · intro empty spent
    rw [same] at spent
    apply View.Spent.less spent
    · rfl
    · rcases pending with ⟨-, eq⟩ | ⟨-, y, more⟩
      · rw [eq]
        exact fun _ member => member
      · rw [more]
        exact fun _ member => List.mem_cons_of_mem _ member
    · rfl
  · intro j apart
    simp [State.view, Function.update_of_ne apart, replies, Ne.symm apart]

omit slots in
theorem Slots.step (slots : Slots s.mode s.view s.served s.sent s.passed)
    (guards : Guards s.mode s.recv_lock s.qr_box s.reply)
    (held : ∀ h i, (s.mode h).slot = some i → s.qr_mask i = true) (meets : Meets s a)
    (step : Step s a s') : Slots s'.mode s'.view s'.served s'.sent s'.passed := by
  have fits : ∀ {h m i}, s.mode h = m → m.slot = some i →
      Fits (s.view i) s.served s.sent s.passed h i m := by
    intro h m i at_i slot
    subst at_i
    exact slots.fits h i slot
  cases step with
  | @alloc_qr h i idle free lower =>
    apply slots.taken idle
    intro h' at_i
    have marked := held h' i at_i
    simp [free] at marked
  | @send t i at_i =>
    obtain ⟨asked, pending, off⟩ := meets i at_i
    apply slots.moves (i := i) (by rw [at_i]; rfl) rfl _ (.inl rfl)
    · apply Fits.awaits rfl (.inl rfl)
      exact .asked (by simpa [State.view] using asked) pending off
    · intro j other
      simp [State.view, Ne.symm other]
  | @send_fails h i at_i =>
    apply slots.moves (i := i) (by rw [at_i]; rfl) rfl (fun _ _ => rfl) (.inl rfl)
    exact .spent trivial ((fits at_i rfl).of_spends trivial)
  | @recv_box h i want at_i free boxed =>
    obtain ⟨x, reply⟩ := guards.boxed i boxed
    apply slots.moves (i := i) (by rw [at_i]; rfl) rfl _ (.inl rfl)
    · apply Fits.received (x := x) (fits at_i rfl) (.inl rfl)
      · rfl
      · simp [State.view]
      · exact reply
      · rw [pending_boxed boxed reply, pending_unboxed (by simp)]
      · rfl
    · intro j other
      simp [State.view, Function.update_of_ne other]
  | @recv_lock h i want at_i free unboxed =>
    apply slots.moves (i := i) (by rw [at_i]; rfl) rfl (fun _ _ => rfl) (.inl rfl)
    apply Fits.awaiting (fits at_i rfl)
    · exact .inl rfl
    · exact .inr rfl
    · rfl
    · rfl
    · rfl
  | @recv_own h i want x rest at_i replies own =>
    have unboxed := guards.unboxed h i want at_i
    apply slots.moves (i := i) (by rw [at_i]; rfl) rfl _ (.inl rfl)
    · apply Fits.received (x := x) (fits at_i rfl) (.inr rfl)
      · rfl
      · exact unboxed
      · simp [State.view]
      · rw [pending_unboxed unboxed, replies]
        simp [View.pending, State.view, unboxed, own]
      · rfl
    · intro j other
      have apart : x.id ≠ j := by rw [own]; exact Ne.symm other
      simp [State.view, Function.update_of_ne other, replies, apart]
  | recv_other at_i replies other => exact slots.step_other guards at_i replies other meets
  | @free_qr h i done =>
    apply slots.given_back (i := i)
    · rcases done with leaves | ⟨n, answered⟩
      · rw [leaves]
        rfl
      · rw [answered]
        rfl
    · rcases done with leaves | ⟨n, answered⟩
      · exact (fits leaves rfl).of_spends trivial
      · exact (fits answered rfl).of_answered.1.spent
  | @serve i n rest r queries _ =>
    have asked : (s.view i).asked = .query n :: ((rest.filter (fun q => q.id = i)).map Query.ask) := by
      simp [State.view, queries]
    apply slots.changes (i := i) _ (fun _ member => List.mem_append_left _ member) (.inl ⟨rfl, rfl⟩)
    · intro h at_i fits
      apply Fits.serve fits asked
      · rfl
      · exact View.pending_append rfl rfl (by simp [State.view])
      · rfl
    · intro empty spent
      rcases spent.2 with ⟨none, -⟩ | ⟨cancel, -⟩
      · simp [asked] at none
      · simp [asked] at cancel
    · intro j other
      simp [State.view, queries, Ne.symm other]
  | @send_read_async i at_i =>
    obtain ⟨asked, pending, off⟩ := meets i at_i
    apply slots.moves (i := i) (by rw [at_i]; rfl) rfl _ (.inl rfl)
    · apply Fits.starts rfl (.inl rfl)
      exact .asked (by simpa [State.view] using asked) pending off
    · intro j other
      simp [State.view, Ne.symm other]
  | @refused i x at_i reply answer =>
    apply slots.moves (i := i) (by rw [at_i]; rfl) rfl (fun _ _ => rfl) (.inl rfl)
    apply Fits.spent (m := .leaves i) trivial
    cases (fits at_i rfl).of_started with
    | streams _ reply' first =>
      obtain rfl := Option.some.inj (reply'.symm.trans reply)
      rcases first with first | ⟨d, first⟩
      · cases first.symm.trans answer
      · cases first.symm.trans answer
    | refused clean => exact clean.spent
  | @started i x at_i reply answer =>
    apply slots.moves (i := i) (by rw [at_i]; rfl) rfl (fun _ _ => rfl) (.inl rfl)
    cases (fits at_i rfl).of_started with
    | streams asked _ _ behind on none =>
      apply Fits.streams rfl (.inl rfl)
      exact ⟨asked, on, by rw [none, behind]; rfl⟩
    | refused _ reply' refused =>
      obtain rfl := Option.some.inj (reply'.symm.trans reply)
      rcases answer with answer | ⟨d, answer⟩
      · cases answer.symm.trans refused
      · cases answer.symm.trans refused
  | cancel_async => exact slots
  | @next_round i at_i =>
    apply slots.moves (i := i) (by rw [at_i]; rfl) rfl (fun _ _ => rfl) (.inl rfl)
    exact .streams rfl (.inr (.inl rfl)) ((fits at_i rfl).of_streams (.inl rfl))
  | @callback i x at_i reply =>
    have callback := (fits at_i rfl).of_callback
    obtain ⟨x', reply', all⟩ := callback.sent
    obtain rfl := Option.some.inj (reply'.symm.trans reply)
    apply slots.moves (i := i) (by rw [at_i]; rfl) rfl (fun _ _ => rfl)
    · exact .inr (streaming_apart (stream_on callback.streaming))
    · apply Fits.streams rfl (.inl rfl)
      exact ⟨callback.asked, callback.streaming, by rw [List.append_assoc]; exact all⟩
  | @send_cancel i at_i cancelled =>
    have streams := (fits at_i rfl).of_streams (.inl rfl)
    apply slots.moves (i := i) (by rw [at_i]; rfl) rfl _ (.inl rfl)
    · apply Fits.spent (m := .cancels i) trivial
      constructor
      · exact fun x member => streams.data member
      · have asked := streams.asked
        exact .inr ⟨by simpa [State.view] using asked, streams.streaming⟩
    · intro j other
      simp [State.view, Ne.symm other]
  | @flush_lock i at_i free =>
    apply slots.moves (i := i) (by rw [at_i]; rfl) rfl (fun _ _ => rfl) (.inl rfl)
    exact .spent trivial ((fits at_i rfl).of_spends trivial)
  | @drop i x rest at_i replies =>
    have before : (s.view x.id).arriving = x :: rest.filter (fun y => y.id = x.id) := by
      simp [State.view, replies]
    have less : (State.view { s with replies := rest } x.id).pending ⊆ (s.view x.id).pending := by
      intro y member
      simp only [View.pending, List.mem_append] at member ⊢
      rw [before]
      exact member.imp_right (List.mem_cons_of_mem x)
    apply slots.changes (i := x.id) _ (fun _ member => member) (.inl ⟨rfl, rfl⟩)
    · intro h at_x fits
      apply Fits.dropped (x := x) fits
      · simp [View.pending, before]
      · exact meets
      · intro reader
        subst reader
        simp only [at_i]
        trivial
      · rfl
      · exact less
      · rfl
    · intro empty spent
      exact View.Spent.less spent rfl less rfl
    · intro j other
      simp [State.view, replies, Ne.symm other]
  | @flush_end i at_i =>
    apply slots.moves (i := i) (by rw [at_i]; rfl) rfl (fun _ _ => rfl) (.inl rfl)
    exact .spent trivial ((fits at_i rfl).of_spends trivial)
  | @start_stream i rest queries off =>
    have asked : (s.view i).asked = .read_async :: ((rest.filter (fun q => q.id = i)).map Query.ask) := by
      simp [State.view, queries]
    apply slots.changes (i := i) _ (fun _ member => member)
      (.inr (fun j _ => streaming_off off j))
    · intro h at_i fits
      apply Fits.start_stream fits asked
      · rfl
      · rfl
      · simp [State.view, Stream.to]
    · intro empty spent
      rcases spent.2 with ⟨none, -⟩ | ⟨cancel, -⟩
      · simp [asked] at none
      · simp [asked] at cancel
    · intro j other
      simp [State.view, queries, Ne.symm other, off, Stream.to]
  | @refuse_stream i on =>
    have streaming : (s.view i).streaming = some false := by simp [State.view, on, Stream.to]
    apply slots.changes (i := i) _ (fun _ member => member) (.inl ⟨rfl, rfl⟩)
    · intro h at_i fits
      apply Fits.refuse_stream fits streaming
      · rfl
      · exact View.pending_append rfl rfl (by simp [State.view])
      · rfl
    · intro empty spent
      rcases spent.2 with ⟨-, off⟩ | ⟨-, replied⟩
      · simp [streaming] at off
      · simp [streaming] at replied
    · intro j other
      simp [State.view, on, Ne.symm other, Stream.to]
  | @send_data i replied d on =>
    have streaming : (s.view i).streaming = some replied := by simp [State.view, on, Stream.to]
    apply slots.changes (i := i) _ (fun _ member => member) (.inr (streaming_apart on))
    · intro h at_i fits
      apply Fits.send_data fits streaming
      · rfl
      · rfl
      · rfl
      · apply View.pending_append
        · rfl
        · rfl
        · cases replied <;> simp [State.view]
      · simp [State.view, Stream.to]
    · intro empty spent
      have replied : replied = true := by
        rcases spent.2 with ⟨-, off⟩ | ⟨-, on⟩
        · simp [streaming] at off
        · simpa [streaming] using on
      subst replied
      apply View.Spent.send_data (i := i) (d := d) spent streaming
      · rfl
      · exact View.pending_append rfl rfl (by simp [State.view])
      · simp [State.view, Stream.to]
    · intro j other
      cases replied <;> simp [State.view, on, Ne.symm other, Stream.to]
  | @take_cancel i j rest queries on =>
    have asked : (s.view j).asked =
        .cancel_async :: ((rest.filter (fun q => q.id = j)).map Query.ask) := by
      simp [State.view, queries]
    obtain ⟨rfl, -⟩ := Stream.on.inj (on.symm.trans (slots.cancelled asked))
    apply slots.changes (i := i) _ (fun _ member => member) (.inl ⟨rfl, rfl⟩)
    · intro h at_i fits
      exact Fits.take_cancel fits asked rfl rfl rfl
    · intro empty spent
      exact View.Spent.take_cancel spent asked rfl rfl rfl
    · intro k other
      simp [State.view, queries, on, Ne.symm other, Stream.to]
  | @stray_cancel j rest queries off =>
    have asked : (s.view j).asked =
        .cancel_async :: ((rest.filter (fun q => q.id = j)).map Query.ask) := by
      simp [State.view, queries]
    cases off.symm.trans (slots.cancelled asked)

omit slots in
def Ask.number : Ask → Option Nat
  | .query n => some n
  | .read_async | .cancel_async => none

omit slots in
/-- Every query was served once, in order, or is still in the queue, every thread found its own
    answer, no answer got lost, and the callback was given the data from the first on. -/
structure Records (s : State T D R) : Prop where
  numbered : s.served.map Prod.fst ++ s.queries.filterMap (fun q => q.ask.number) = List.range s.next
  found : ∀ n x, (n, x) ∈ s.found → ∃ i r, x = some ⟨i, .reply n r⟩ ∧ (n, r) ∈ s.served
  kept : ∀ n r, (n, r) ∈ s.served →
    (∃ x, (n, x) ∈ s.found) ∨ ∃ t i, (s.mode (some t)).Awaits i (.reply n)
  passed : s.passed <+: s.sent.map .data

omit slots in
theorem numbered_step
    (numbered : s.served.map Prod.fst ++ s.queries.filterMap (fun q => q.ask.number) =
      List.range s.next) (step : Step s a s') :
    s'.served.map Prod.fst ++ s'.queries.filterMap (fun q => q.ask.number) = List.range s'.next := by
  cases step with
  | send => simp [List.range_succ, Ask.number, ← numbered]
  | serve queries => simpa [queries, Ask.number] using numbered
  | send_read_async | send_cancel => simpa [Ask.number] using numbered
  | start_stream queries | take_cancel queries | stray_cancel queries =>
    simpa [queries, Ask.number] using numbered
  | alloc_qr | send_fails | recv_box | recv_lock | recv_own | recv_other | free_qr => exact numbered
  | refused | started | cancel_async | next_round | callback => exact numbered
  | flush_lock | drop | flush_end | refuse_stream | send_data => exact numbered

omit slots in
theorem found_step
    (found : ∀ n x, (n, x) ∈ s.found → ∃ i r, x = some ⟨i, .reply n r⟩ ∧ (n, r) ∈ s.served)
    (slots : Slots s'.mode s'.view s'.served s'.sent s'.passed) (step : Step s a s') :
    ∀ n x, (n, x) ∈ s'.found → ∃ i r, x = some ⟨i, .reply n r⟩ ∧ (n, r) ∈ s'.served := by
  cases step with
  | @recv_box h i want at_i free boxed =>
    intro n x member
    rcases List.mem_append.mp member with old | new
    · exact found n x old
    · have fits := slots.fits h i (by simp [Mode.slot])
      simp only [Function.update_self] at fits
      cases want with
      | reply k =>
        obtain ⟨rfl, rfl⟩ : n = k ∧ x = s.reply i := by simpa [Want.query] using new
        obtain ⟨-, r, reply, served⟩ := fits.of_answered
        exact ⟨i, r, reply, served⟩
      | start | data => simp [Want.query] at new
  | @recv_own h i want y rest at_i replies own =>
    intro n x member
    rcases List.mem_append.mp member with old | new
    · exact found n x old
    · have fits := slots.fits h i (by simp [Mode.slot])
      simp only [Function.update_self] at fits
      cases want with
      | reply k =>
        obtain ⟨rfl, rfl⟩ : n = k ∧ x = some y := by simpa [Want.query] using new
        obtain ⟨-, r, reply, served⟩ := fits.of_answered
        exact ⟨i, r, by simpa [State.view] using reply, served⟩
      | start | data => simp [Want.query] at new
  | serve =>
    intro n x member
    obtain ⟨i, r, eq, served⟩ := found n x member
    exact ⟨i, r, eq, List.mem_append_left _ served⟩
  | alloc_qr | send | send_fails | recv_lock | recv_other | free_qr | send_read_async => exact found
  | refused | started | cancel_async | next_round | callback | send_cancel => exact found
  | flush_lock | drop | flush_end | start_stream | refuse_stream | send_data => exact found
  | take_cancel | stray_cancel => exact found

omit slots in
theorem awaits_step (awaits : (s.mode (some t)).Awaits i (.reply n)) (step : Step s a s') :
    (s'.mode (some t)).Awaits i (.reply n) ∨ ∃ x, (n, x) ∈ s'.found := by
  have stays : ∀ {h m}, h ≠ some t → (Function.update s.mode h m (some t)).Awaits i (.reply n) := by
    intro h m other
    rw [Function.update_of_ne (Ne.symm other)]
    exact awaits
  have moves : ∀ {h m₀ m}, s.mode h = m₀ → ¬ m₀.Awaits i (.reply n) →
      (Function.update s.mode h m (some t)).Awaits i (.reply n) := by
    intro h m₀ m at_m apart
    apply stays
    rintro rfl
    exact apart (at_m ▸ awaits)
  cases step with
  | alloc_qr at_m | send at_m | send_fails at_m => exact .inl (moves at_m (by simp [Mode.Awaits]))
  | send_read_async | refused | started | next_round | callback => exact .inl awaits
  | send_cancel | flush_lock | flush_end => exact .inl awaits
  | free_qr done =>
    rcases done with at_m | ⟨k, at_m⟩
    · exact .inl (moves at_m (by simp [Mode.Awaits]))
    · exact .inl (moves at_m (by simp [Mode.Awaits]))
  | @recv_lock h j want at_m =>
    by_cases own : h = some t
    · subst own
      rw [at_m] at awaits
      obtain ⟨rfl, rfl⟩ : j = i ∧ want = .reply n := by simpa [Mode.Awaits] using awaits
      exact .inl (.inr (by simp))
    · exact .inl (stays own)
  | @recv_box h j want at_m =>
    by_cases own : h = some t
    · subst own
      rw [at_m] at awaits
      obtain ⟨rfl, rfl⟩ : j = i ∧ want = .reply n := by simpa [Mode.Awaits] using awaits
      exact .inr ⟨s.reply j, by simp [Want.query]⟩
    · exact .inl (stays own)
  | @recv_own h j want x rest at_m =>
    by_cases own : h = some t
    · subst own
      rw [at_m] at awaits
      obtain ⟨rfl, rfl⟩ : j = i ∧ want = .reply n := by simpa [Mode.Awaits] using awaits
      exact .inr ⟨some x, by simp [Want.query]⟩
    · exact .inl (stays own)
  | recv_other | serve | cancel_async | drop => exact .inl awaits
  | start_stream | refuse_stream | send_data | take_cancel | stray_cancel => exact .inl awaits

omit slots in
theorem found_kept {x : Option (Message D R)} (member : (n, x) ∈ s.found)
    (step : Step s a s') : (n, x) ∈ s'.found := by
  cases step with
  | recv_box | recv_own => exact List.mem_append_left _ member
  | alloc_qr | send | send_fails | recv_lock | recv_other | free_qr | serve => exact member
  | send_read_async | refused | started | cancel_async | next_round | callback => exact member
  | send_cancel | flush_lock | drop | flush_end | start_stream | refuse_stream => exact member
  | send_data | take_cancel | stray_cancel => exact member

theorem kept_step
    (kept : ∀ n r, (n, r) ∈ s.served →
      (∃ x, (n, x) ∈ s.found) ∨ ∃ t i, (s.mode (some t)).Awaits i (.reply n))
    (step : Step s a s') : ∀ n r, (n, r) ∈ s'.served →
      (∃ x, (n, x) ∈ s'.found) ∨ ∃ t i, (s'.mode (some t)).Awaits i (.reply n) := by
  intro n r member
  have before : (∃ x, (n, x) ∈ s.found) ∨ ∃ t i, (s.mode (some t)).Awaits i (.reply n) := by
    cases step with
    | @serve i k rest r' queries =>
      rcases List.mem_append.mp member with old | new
      · exact kept n r old
      · obtain ⟨rfl, rfl⟩ : n = k ∧ r = r' := by simpa using new
        have asked : (s.view i).asked =
            .query n :: ((rest.filter (fun q => q.id = i)).map Query.ask) := by
          simp [State.view, queries]
        obtain ⟨t, awaits⟩ := slots.asker asked
        exact .inr ⟨t, i, awaits⟩
    | alloc_qr | send | send_fails | recv_box | recv_lock | recv_own | recv_other | free_qr =>
      exact kept n r member
    | send_read_async | refused | started | cancel_async | next_round | callback =>
      exact kept n r member
    | send_cancel | flush_lock | drop | flush_end | start_stream | refuse_stream =>
      exact kept n r member
    | send_data | take_cancel | stray_cancel => exact kept n r member
  rcases before with ⟨x, found⟩ | ⟨t, i, awaits⟩
  · exact .inl ⟨x, found_kept found step⟩
  · rcases awaits_step awaits step with still | found
    · exact .inr ⟨t, i, still⟩
    · exact .inl found

theorem passed_step
    (passed : s.passed <+: s.sent.map .data) (step : Step s a s') :
    s'.passed <+: s'.sent.map .data := by
  cases step with
  | @callback i x at_i reply =>
    have fits := slots.fits none i (by rw [at_i]; rfl)
    rw [at_i] at fits
    obtain ⟨x', reply', all⟩ := fits.of_callback.sent
    obtain rfl := Option.some.inj (reply'.symm.trans reply)
    refine ⟨(s.view i).pending.map Message.answer, ?_⟩
    rw [← all, List.append_assoc]
    rfl
  | start_stream => exact List.nil_prefix
  | send_data =>
    rw [List.map_append]
    exact passed.trans (List.prefix_append _ _)
  | alloc_qr | send | send_fails | recv_box | recv_lock | recv_own | recv_other => exact passed
  | free_qr | serve | send_read_async | refused | started | cancel_async => exact passed
  | next_round | send_cancel | flush_lock | drop | flush_end | refuse_stream => exact passed
  | take_cancel | stray_cancel => exact passed

end

end Step

/-- The invariant of the runs that keep to `Meets`. -/
structure Inv (s : State T D R) : Prop where
  slots : Slots s.mode s.view s.served s.sent s.passed
  guards : Guards s.mode s.recv_lock s.qr_box s.reply
  held : ∀ h i, (s.mode h).slot = some i → s.qr_mask i = true
  records : Records s

omit [DecidableEq T] in
theorem Inv.start : Inv (State.start : State T D R) := by
  constructor
  · constructor
    · intro h h' i at_i
      cases at_i
    · intro h i at_i
      cases at_i
    · intro i _
      exact View.Clean.spent ⟨rfl, rfl, rfl⟩
  · constructor
    · intro h locks
      cases locks
    · intro h i want receives
      cases receives
    · intro i boxed
      cases boxed
  · intro h i at_i
    cases at_i
  · constructor
    · rfl
    · intro n x member
      cases member
    · intro n r member
      cases member
    · exact List.nil_prefix

theorem Inv.step {s s' : State T D R} {a : Act T D R} (inv : Inv s) (meets : Meets s a)
    (step : Step s a s') : Inv s' := by
  have slots := inv.slots.step inv.guards inv.held meets step
  constructor
  · exact slots
  · exact inv.guards.step step
  · exact held_step inv.held inv.slots.distinct step
  · constructor
    · exact numbered_step inv.records.numbered step
    · exact found_step inv.records.found slots step
    · exact kept_step inv.slots inv.records.kept step
    · exact passed_step inv.slots inv.records.passed step

omit [DecidableEq T] in
theorem Records.once {s : State T D R} (records : Records s) :
    (s.served.map Prod.fst).Nodup ∧
      (n ∈ s.served.map Prod.fst → n ∉ s.queries.filterMap (fun q => q.ask.number)) := by
  have nodup := List.nodup_range (n := s.next)
  rw [← records.numbered, List.nodup_append] at nodup
  exact ⟨nodup.1, fun served queued => nodup.2.2 n served n queued rfl⟩

omit [DecidableEq T] in
theorem Inv.pending {s : State T D R} {r : R} (inv : Inv s)
    (awaits : (s.mode (some t)).Awaits i (.reply n)) (served : (n, r) ∈ s.served) :
    (s.view i).pending = [⟨i, .reply n r⟩] := by
  have at_i : (s.mode (some t)).slot = some i := by
    rcases awaits with at_i | at_i
    · rw [at_i]
      rfl
    · rw [at_i]
      rfl
  cases (inv.slots.fits (some t) i at_i).of_awaits awaits with
  | asked asked =>
    have member : Ask.query n ∈ (s.view i).asked := by
      rw [asked]
      exact List.mem_cons_self
    obtain ⟨q, listed, ask⟩ := List.mem_map.mp member
    have queued : n ∈ s.queries.filterMap (fun q => q.ask.number) := by
      apply List.mem_filterMap.mpr
      exact ⟨q, (List.mem_filter.mp listed).1, by rw [ask]; rfl⟩
    exact absurd queued (inv.records.once.2 (List.mem_map_of_mem (f := Prod.fst) served))
  | @served r' _ one member =>
    have same := List.inj_on_of_nodup_map (inv.records.once (n := n)).1 served member rfl
    rw [one, (Prod.mk.inj same).2]

omit [DecidableEq T] in
/-- A thread behind `send_recv_msg` has the answer to its own query. -/
theorem Inv.answer {s : State T D R} (inv : Inv s)
    (at_i : s.mode (some t) = .answered i (.reply n)) :
    ∃ r, s.reply i = some ⟨i, .reply n r⟩ ∧ (n, r) ∈ s.served := by
  have fits := inv.slots.fits (some t) i (by rw [at_i]; rfl)
  rw [at_i] at fits
  exact fits.of_answered.2

omit [DecidableEq T] in
theorem Inv.kept {s : State T D R} {r : R} (inv : Inv s) (served : (n, r) ∈ s.served) :
    (∃ i, (n, some ⟨i, .reply n r⟩) ∈ s.found) ∨
      ∃ t i, (s.mode (some t)).Awaits i (.reply n) ∧ (s.view i).pending = [⟨i, .reply n r⟩] := by
  rcases inv.records.kept n r served with ⟨x, found⟩ | ⟨t, i, awaits⟩
  · obtain ⟨i, r', rfl, served'⟩ := inv.records.found n x found
    have same := List.inj_on_of_nodup_map (inv.records.once (n := n)).1 served served' rfl
    obtain rfl := (Prod.mk.inj same).2
    exact .inl ⟨i, found⟩
  · exact .inr ⟨t, i, awaits, inv.pending awaits served⟩

theorem Inv.run {s s' : State T D R} (inv : Inv s) (run : Runs Step Meets s s') : Inv s' :=
  run.keeps (fun _ _ _ inv meets step => inv.step meets step) inv

end Soapy.Rtl.Mux
