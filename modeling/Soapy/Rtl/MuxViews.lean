import Soapy.Rtl.MuxSlots

/-! # What the steps make of the view of a slot

One lemma for each thing that can happen to a slot, whoever holds it: the server takes a
query or sends, the message a thread waits for comes, another thread parks a message, or the
flush drops one.
-/

namespace Soapy.Rtl.Mux

open Lib Soapy.Rtl

variable {T D R : Type}

variable {served : List (Nat × R)} {sent : List D} {passed : List (Answer D R)} {i : Slot} {n : Nat}
  {want : Want} {v v' : View D R} {h : Option T} {m : Mode} {x : Message D R}

theorem View.pending_append {xs} (boxed' : v'.boxed = v.boxed) (reply' : v'.reply = v.reply)
    (arriving' : v'.arriving = v.arriving ++ xs) : v'.pending = v.pending ++ xs := by
  simp [View.pending, boxed', reply', arriving']

theorem Mode.Awaits.not_spends (mode : m.Awaits i want) : ¬ m.Spends := by
  rcases mode with rfl | rfl
  · exact id
  · exact id

theorem Mode.Awaits.want_eq {want'} (mode : m.Awaits i want) (mode' : m.Awaits i want') :
    want = want' := by
  rcases mode with rfl | rfl
  · simpa [Mode.Awaits] using mode'
  · simpa [Mode.Awaits] using mode'

theorem Mode.Awaits.ne_answered {j want'} (mode : m.Awaits i want) : m ≠ .answered j want' := by
  rcases mode with rfl | rfl
  · simp
  · simp

section

variable (fits : Fits v served sent passed h i m)
include fits

theorem Fits.of_spends (spends : m.Spends) : v.Spent := by
  cases fits with
  | spent _ spent => exact spent
  | awaits _ mode | starts _ mode => exact absurd spends mode.not_spends
  | answered _ mode | started _ mode | callback _ mode => simp [mode, Mode.Spends] at spends
  | streams _ mode =>
    rcases mode with rfl | mode
    · cases spends
    · exact absurd spends mode.not_spends

theorem Fits.of_awaits (mode : m.Awaits i (.reply n)) :
    v.Awaits i n served := by
  cases fits with
  | spent spends => exact absurd spends mode.not_spends
  | awaits _ own awaits =>
    obtain rfl := Want.reply.inj (mode.want_eq own)
    exact awaits
  | answered _ own | started _ own | callback _ own => exact absurd own mode.ne_answered
  | starts _ own => cases mode.want_eq own
  | streams _ own =>
    rcases own with rfl | own
    · rcases mode with own | own <;> cases own
    · cases mode.want_eq own

omit fits in
theorem Fits.of_answered (fits : Fits v served sent passed h i (.answered i (.reply n))) :
    v.Answered i n served := by
  cases fits with
  | spent spends => cases spends
  | awaits _ mode | starts _ mode => exact absurd rfl mode.ne_answered
  | answered _ mode answered =>
    cases mode
    exact answered
  | started _ mode | callback _ mode => cases mode
  | streams _ mode =>
    rcases mode with mode | mode
    · cases mode
    · exact absurd rfl mode.ne_answered

theorem Fits.of_starts (mode : m.Awaits i .start) :
    v.Starts sent passed := by
  cases fits with
  | spent spends => exact absurd spends mode.not_spends
  | awaits _ own => cases mode.want_eq own
  | starts _ own starts => exact starts
  | answered _ own | started _ own | callback _ own => exact absurd own mode.ne_answered
  | streams _ own =>
    rcases own with rfl | own
    · rcases mode with own | own <;> cases own
    · cases mode.want_eq own

omit fits in
theorem Fits.of_started (fits : Fits v served sent passed h i (.answered i .start)) :
    v.Started sent passed := by
  cases fits with
  | spent spends => cases spends
  | awaits _ mode | starts _ mode => exact absurd rfl mode.ne_answered
  | answered _ mode | callback _ mode => cases mode
  | started _ _ started => exact started
  | streams _ mode =>
    rcases mode with mode | mode
    · cases mode
    · exact absurd rfl mode.ne_answered

theorem Fits.of_streams
    (mode : m = .loops i ∨ m.Awaits i .data) : v.Streams sent passed := by
  cases fits with
  | streams _ _ streams => exact streams
  | spent spends =>
    rcases mode with rfl | mode
    · cases spends
    · exact absurd spends mode.not_spends
  | awaits _ own | starts _ own =>
    rcases mode with rfl | mode
    · rcases own with own | own <;> cases own
    · cases mode.want_eq own
  | answered _ own | started _ own | callback _ own =>
    rcases mode with rfl | mode
    · cases own
    · exact absurd own mode.ne_answered

omit fits in
theorem Fits.of_callback (fits : Fits v served sent passed h i (.answered i .data)) :
    v.InCallback sent passed := by
  cases fits with
  | spent spends => cases spends
  | awaits _ mode | starts _ mode => exact absurd rfl mode.ne_answered
  | answered _ mode | started _ mode => cases mode
  | callback _ _ callback => exact callback
  | streams _ mode =>
    rcases mode with mode | mode
    · cases mode
    · exact absurd rfl mode.ne_answered

theorem Fits.asked_cases :
    v.asked = [] ∨
    (v.asked = [.cancel_async] ∧ v.streaming = some true ∧ m.Spends ∧ v.Spent) ∨
    (∃ n t, v.asked = [.query n] ∧ v.pending = [] ∧ v.streaming = none ∧ h = some t ∧
      m.Awaits i (.reply n)) ∨
    (v.asked = [.read_async] ∧ v.pending = [] ∧ v.streaming = none ∧ h = none ∧
      m.Awaits i .start) := by
  cases fits with
  | spent spends spent =>
    rcases spent.2 with ⟨asked, -⟩ | ⟨asked, on⟩
    · exact .inl asked
    · exact .inr (.inl ⟨asked, on, spends, spent⟩)
  | @awaits t n who mode awaits =>
    cases awaits with
    | asked asked pending off => exact .inr (.inr (.inl ⟨n, t, asked, pending, off, who, mode⟩))
    | served asked => exact .inl asked
  | answered who mode answered => exact .inl answered.1.1
  | starts who mode starts =>
    cases starts with
    | asked asked pending off => exact .inr (.inr (.inr ⟨asked, pending, off, who, mode⟩))
    | reads asked | streams asked | refused asked => exact .inl asked
  | started who mode started =>
    cases started with
    | streams asked => exact .inl asked
    | refused clean => exact .inl clean.1
  | streams who mode streams => exact .inl streams.asked
  | callback who mode callback => exact .inl callback.asked

theorem Fits.serve {rest r} (asked : v.asked = .query n :: rest) (asked' : v'.asked = rest)
    (pending : v'.pending = v.pending ++ [⟨i, .reply n r⟩]) (streaming : v'.streaming = v.streaming) :
    Fits v' (served ++ [(n, r)]) sent passed h i m := by
  rcases fits.asked_cases with none | ⟨cancel, -⟩ | ⟨k, t, query, clean, off, who, mode⟩ | ⟨read, -⟩
  · simp [asked] at none
  · simp [asked] at cancel
  · obtain ⟨rfl, rfl⟩ : n = k ∧ rest = [] := by simpa [asked] using query
    apply Fits.awaits who mode
    exact .served (r := r) asked' (by rw [pending, clean]; rfl) (by simp) (by rw [streaming, off])
  · simp [asked] at read

theorem Fits.start_stream {rest} (asked : v.asked = .read_async :: rest) (asked' : v'.asked = rest)
    (pending : v'.pending = v.pending) (streaming : v'.streaming = some false) :
    Fits v' served [] [] h i m := by
  rcases fits.asked_cases with none | ⟨cancel, -⟩ | ⟨k, t, query, -⟩ | ⟨read, clean, off, who, mode⟩
  · simp [asked] at none
  · simp [asked] at cancel
  · simp [asked] at query
  · obtain rfl : rest = [] := by simpa [asked] using read
    exact .starts who mode (.reads asked' (by rw [pending, clean]) streaming rfl rfl)

omit fits in
theorem View.Spent.take_cancel {rest} (spent : v.Spent) (asked : v.asked = .cancel_async :: rest)
    (asked' : v'.asked = rest) (pending : v'.pending = v.pending) (streaming : v'.streaming = none) :
    v'.Spent := by
  constructor
  · rw [pending]
    exact spent.1
  · rcases spent.2 with ⟨none, -⟩ | ⟨cancel, -⟩
    · simp [asked] at none
    · obtain rfl : rest = [] := by simpa [asked] using cancel
      exact .inl ⟨asked', streaming⟩

theorem Fits.take_cancel {rest} (asked : v.asked = .cancel_async :: rest) (asked' : v'.asked = rest)
    (pending : v'.pending = v.pending) (streaming : v'.streaming = none) :
    Fits v' served sent passed h i m := by
  rcases fits.asked_cases with none | ⟨-, -, spends, spent⟩ | ⟨k, t, query, -⟩ | ⟨read, -⟩
  · simp [asked] at none
  · exact .spent spends (spent.take_cancel asked asked' pending streaming)
  · simp [asked] at query
  · simp [asked] at read

omit fits in
theorem View.Awaits.off (awaits : v.Awaits i n served) : v.streaming = none := by
  cases awaits with
  | asked _ _ off | served _ _ _ off => exact off

theorem Fits.unreplied (streaming : v.streaming = some false) :
    h = none ∧ m.Awaits i .start ∧ v.asked = [] ∧ v.pending = [] ∧ sent = [] ∧ passed = [] := by
  cases fits with
  | spent spends spent =>
    rcases spent.2 with ⟨-, off⟩ | ⟨-, on⟩
    · simp [streaming] at off
    · simp [streaming] at on
  | awaits who mode awaits =>
    have off := awaits.off
    simp [streaming] at off
  | answered who mode answered =>
    have off := answered.1.2.2
    simp [streaming] at off
  | starts who mode starts =>
    cases starts with
    | asked _ _ off => simp [streaming] at off
    | reads asked pending _ sent passed => exact ⟨who, mode, asked, pending, sent, passed⟩
    | streams _ _ _ _ on => simp [streaming] at on
    | refused _ _ _ off => simp [streaming] at off
  | started who mode started =>
    cases started with
    | streams _ _ _ _ on => simp [streaming] at on
    | refused clean =>
      have off := clean.2.2
      simp [streaming] at off
  | streams who mode streams =>
    have on := streams.streaming
    simp [streaming] at on
  | callback who mode callback =>
    have on := callback.streaming
    simp [streaming] at on

theorem Fits.refuse_stream
    (streaming : v.streaming = some false) (asked' : v'.asked = v.asked)
    (pending : v'.pending = v.pending ++ [⟨i, .refused⟩]) (streaming' : v'.streaming = none) :
    Fits v' served sent passed h i m := by
  obtain ⟨who, mode, asked, clean, -⟩ := fits.unreplied streaming
  apply Fits.starts who mode
  exact .refused (m := ⟨i, .refused⟩) (by rw [asked', asked]) (by rw [pending, clean]; rfl) rfl
    streaming'

omit fits in
theorem View.Spent.send_data {d} (spent : v.Spent) (streaming : v.streaming = some true)
    (asked' : v'.asked = v.asked) (pending : v'.pending = v.pending ++ [⟨i, .data d⟩])
    (streaming' : v'.streaming = some true) : v'.Spent := by
  constructor
  · intro x member
    rw [pending] at member
    rcases List.mem_append.mp member with old | new
    · exact spent.1 x old
    · obtain rfl := List.mem_singleton.mp new
      exact ⟨d, rfl⟩
  · rcases spent.2 with ⟨-, off⟩ | ⟨asked, -⟩
    · simp [streaming] at off
    · exact .inr ⟨by rw [asked', asked], streaming'⟩

theorem Fits.send_data {replied d}
    (streaming : v.streaming = some replied) (asked' : v'.asked = v.asked)
    (boxed' : v'.boxed = v.boxed) (reply' : v'.reply = v.reply) (pending : v'.pending =
      v.pending ++ ((if replied then [] else [⟨i, .started⟩]) ++ [⟨i, .data d⟩]))
    (streaming' : v'.streaming = some true) :
    Fits v' served (sent ++ [d]) passed h i m := by
  cases replied with
  | false =>
    obtain ⟨who, mode, asked, clean, rfl, none⟩ := fits.unreplied streaming
    apply Fits.starts who mode
    exact .streams (m := ⟨i, .started⟩) (by rw [asked', asked])
      (by rw [pending, clean]; rfl) rfl rfl streaming' none
  | true =>
    have later : v'.pending = v.pending ++ [⟨i, .data d⟩] := pending
    cases fits with
    | spent spends spent =>
      exact .spent spends (spent.send_data streaming asked' later streaming')
    | awaits who mode awaits =>
      have off := awaits.off
      simp [streaming] at off
    | answered who mode answered =>
      have off := answered.1.2.2
      simp [streaming] at off
    | starts who mode starts =>
      cases starts with
      | asked _ _ off => simp [streaming] at off
      | reads _ _ on => simp [streaming] at on
      | @streams x rest asked first answer behind on none =>
        apply Fits.starts who mode
        exact .streams (m := x) (by rw [asked', asked])
          (later.trans (congrArg (· ++ [_]) first)) answer (by simp [behind]) streaming' none
      | refused _ _ _ off => simp [streaming] at off
    | started who mode started =>
      cases started with
      | streams asked reply answer behind on none =>
        apply Fits.started who mode
        exact .streams (by rw [asked', asked]) (by rw [reply', reply]) answer
          (by simp [later, behind]) streaming' none
      | refused clean =>
        have off := clean.2.2
        simp [streaming] at off
    | streams who mode streams =>
      apply Fits.streams who mode
      constructor
      · rw [asked', streams.asked]
      · exact streaming'
      · simp [later, ← streams.sent]
    | callback who mode callback =>
      obtain ⟨x, reply, all⟩ := callback.sent
      apply Fits.callback who mode
      constructor
      · rw [asked', callback.asked]
      · exact streaming'
      · rw [boxed', callback.boxed]
      · refine ⟨x, by rw [reply', reply], ?_⟩
        simp [later, ← all]

theorem Fits.received (mode : m.Awaits i want)
    (asked' : v'.asked = v.asked) (boxed' : v'.boxed = false) (reply' : v'.reply = some x)
    (pending : v.pending = x :: v'.pending) (streaming' : v'.streaming = v.streaming) :
    Fits v' served sent passed h i (.answered i want) := by
  cases fits with
  | spent spends => exact absurd spends mode.not_spends
  | @awaits t n who own awaits =>
    obtain rfl := mode.want_eq own
    cases awaits with
    | asked _ clean => simp [pending] at clean
    | @served r asked one member off =>
      obtain ⟨rfl, clean⟩ : x = ⟨i, .reply n r⟩ ∧ v'.pending = [] := by simpa [pending] using one
      apply Fits.answered who rfl
      exact ⟨⟨by rw [asked', asked], clean, by rw [streaming', off]⟩, r, reply', member⟩
  | answered _ own | started _ own | callback _ own => exact absurd own mode.ne_answered
  | starts who own starts =>
    obtain rfl := mode.want_eq own
    apply Fits.started who rfl
    cases starts with
    | asked _ clean => simp [pending] at clean
    | reads _ clean => simp [pending] at clean
    | streams asked first answer behind on none =>
      obtain ⟨rfl, rfl⟩ := List.cons.inj (pending.symm.trans first)
      exact .streams (by rw [asked', asked]) reply' (.inl answer) behind
        (by rw [streaming', on]) none
    | refused asked one answer off =>
      obtain ⟨rfl, clean⟩ := List.cons.inj (pending.symm.trans one)
      exact .refused ⟨by rw [asked', asked], clean, by rw [streaming', off]⟩ reply' answer
  | streams who own streams =>
    obtain rfl : want = .data := by
      rcases own with rfl | own
      · rcases mode with own | own <;> cases own
      · exact mode.want_eq own
    apply Fits.callback who rfl
    constructor
    · rw [asked', streams.asked]
    · rw [streaming', streams.streaming]
    · exact boxed'
    · refine ⟨x, reply', ?_⟩
      rw [← streams.sent, pending]
      rfl

theorem Fits.awaiting {m'} (mode : m.Awaits i want)
    (mode' : m'.Awaits i want) (asked' : v'.asked = v.asked) (pending : v'.pending = v.pending)
    (streaming' : v'.streaming = v.streaming) : Fits v' served sent passed h i m' := by
  cases fits with
  | spent spends => exact absurd spends mode.not_spends
  | awaits who own awaits =>
    obtain rfl := mode.want_eq own
    apply Fits.awaits who mode'
    cases awaits with
    | asked asked clean off =>
      exact .asked (by rw [asked', asked]) (by rw [pending, clean]) (by rw [streaming', off])
    | served asked one member off =>
      exact .served (by rw [asked', asked]) (by rw [pending, one]) member (by rw [streaming', off])
  | answered _ own | started _ own | callback _ own => exact absurd own mode.ne_answered
  | starts who own starts =>
    obtain rfl := mode.want_eq own
    apply Fits.starts who mode'
    cases starts with
    | asked asked clean off =>
      exact .asked (by rw [asked', asked]) (by rw [pending, clean]) (by rw [streaming', off])
    | reads asked clean on sent passed =>
      exact .reads (by rw [asked', asked]) (by rw [pending, clean]) (by rw [streaming', on]) sent
        passed
    | streams asked first answer behind on none =>
      exact .streams (by rw [asked', asked]) (by rw [pending, first]) answer behind
        (by rw [streaming', on]) none
    | refused asked one answer off =>
      exact .refused (by rw [asked', asked]) (by rw [pending, one]) answer
        (by rw [streaming', off])
  | streams who own streams =>
    obtain rfl : want = .data := by
      rcases own with rfl | own
      · rcases mode with own | own <;> cases own
      · exact mode.want_eq own
    apply Fits.streams who (.inr mode')
    constructor
    · rw [asked', streams.asked]
    · rw [streaming', streams.streaming]
    · rw [pending, streams.sent]

omit fits in
theorem View.Spent.less (spent : v.Spent) (asked' : v'.asked = v.asked)
    (pending : v'.pending ⊆ v.pending) (streaming' : v'.streaming = v.streaming) : v'.Spent := by
  constructor
  · intro x member
    exact spent.1 x (pending member)
  · rw [asked', streaming']
    exact spent.2

omit fits in
/-- The slot for which the reader of a stream still wants what the server sends. -/
def Mode.reading : Mode → Option Slot
  | .waits i _ | .receives i _ | .answered i _ | .loops i => some i
  | _ => none

omit fits in
theorem Mode.Awaits.reading (mode : m.Awaits i want) : m.reading = some i := by
  rcases mode with rfl | rfl <;> rfl

theorem Fits.parked {rest}
    (asked' : v'.asked = v.asked) (reply' : v'.reply = some x) (one : v'.pending = x :: rest)
    (pending : v.pending = v'.pending ∨ ∃ y, v.pending = y :: v'.pending)
    (streaming' : v'.streaming = v.streaming)
    (free : h = none → m.reading = some i → v.pending = v'.pending ∧ m ≠ .answered i .data) :
    Fits v' served sent passed h i m := by
  have filled : v.pending ≠ [] := by
    intro clean
    rcases pending with same | ⟨y, more⟩
    · simp [clean, one] at same
    · simp [clean] at more
  cases fits with
  | spent spends spent =>
    apply Fits.spent spends
    apply spent.less asked' _ streaming'
    rcases pending with same | ⟨y, more⟩
    · rw [same]
      exact fun _ member => member
    · rw [more]
      exact fun _ member => List.mem_cons_of_mem _ member
  | awaits who own awaits =>
    apply Fits.awaits who own
    cases awaits with
    | asked asked clean off => exact absurd clean filled
    | served asked single member off =>
      have same : v.pending = v'.pending := by
        rcases pending with same | ⟨y, more⟩
        · exact same
        · simp [single, one] at more
      exact .served (by rw [asked', asked]) (by rw [← same, single]) member
        (by rw [streaming', off])
  | answered who own answered => exact absurd answered.1.2.1 filled
  | starts who own starts =>
    have same := (free who own.reading).1
    exact Fits.awaiting (.starts who own starts) own own asked' same.symm streaming'
  | started who own started =>
    have same := (free who (by rw [own]; rfl)).1
    apply Fits.started who own
    cases started with
    | streams asked reply answer behind on none =>
      have data : ∃ d, x.answer = .data d := by
        have member : x.answer ∈ sent.map Answer.data := by
          rw [← behind, same, one]
          exact List.mem_cons_self
        obtain ⟨d, -, eq⟩ := List.mem_map.mp member
        exact ⟨d, eq.symm⟩
      exact .streams (by rw [asked', asked]) reply' (.inr data) (by rw [← same, behind])
        (by rw [streaming', on]) none
    | refused clean => exact absurd clean.2.1 filled
  | streams who own streams =>
    have reading : m.reading = some i := by
      rcases own with rfl | own
      · rfl
      · exact own.reading
    have same := (free who reading).1
    apply Fits.streams who own
    constructor
    · rw [asked', streams.asked]
    · rw [streaming', streams.streaming]
    · rw [← same, streams.sent]
  | callback who own => exact absurd own (free who (by rw [own]; rfl)).2

theorem Fits.dropped (member : x ∈ v.pending)
    (other : ∀ n r, x.answer ≠ .reply n r) (reader : h = none → m.Spends)
    (asked' : v'.asked = v.asked) (pending : v'.pending ⊆ v.pending)
    (streaming' : v'.streaming = v.streaming) : Fits v' served sent passed h i m := by
  have apart : ∀ want, m.Spends → ¬ (m.Awaits i want ∨ m = .answered i want ∨ m = .loops i) := by
    rintro want spends ((rfl | rfl) | rfl | rfl) <;> cases spends
  cases fits with
  | spent spends spent => exact .spent spends (spent.less asked' pending streaming')
  | @awaits t n who own awaits =>
    cases awaits with
    | asked _ clean => simp [clean] at member
    | @served r asked single =>
      rw [single] at member
      obtain rfl := List.mem_singleton.mp member
      exact absurd rfl (other n r)
  | answered who own answered => simp [answered.1.2.1] at member
  | starts who own => exact absurd (.inl own) (apart _ (reader who))
  | started who own => exact absurd (.inr (.inl own)) (apart _ (reader who))
  | streams who own =>
    rcases own with loops | own
    · exact absurd (.inr (.inr loops)) (apart .data (reader who))
    · exact absurd (.inl own) (apart _ (reader who))
  | callback who own => exact absurd (.inr (.inl own)) (apart _ (reader who))

end

end Soapy.Rtl.Mux
