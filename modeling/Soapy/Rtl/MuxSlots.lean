import Soapy.Rtl.Mux

/-! # What is on its way to a slot

Every slot is free or in the hands of one thread, and what the system holds of it follows
from where that thread is. A step changes the mode of one thread and the view of one slot,
or the view of one slot only.
-/

namespace Soapy.Rtl.Mux

open Soapy.Rtl

variable {T D R : Type}

namespace View

/-- Nothing is left of an earlier use of the slot. -/
def Clean (v : View D R) : Prop :=
  v.asked = [] ∧ v.pending = [] ∧ v.streaming = none

def Spent (v : View D R) : Prop :=
  (∀ m ∈ v.pending, ∃ d, m.answer = .data d) ∧
    (v.asked = [] ∧ v.streaming = none ∨ v.asked = [.cancel_async] ∧ v.streaming = some true)

/-- Query `n` is on its way to the server, or its answer on the way back. -/
inductive Awaits (v : View D R) (i : Slot) (n : Nat) (served : List (Nat × R)) : Prop where
  | asked : v.asked = [.query n] → v.pending = [] → v.streaming = none → Awaits v i n served
  | served {r} : v.asked = [] → v.pending = [⟨i, .reply n r⟩] → (n, r) ∈ served →
      v.streaming = none → Awaits v i n served

/-- The answer to query `n` is in the reply. -/
def Answered (v : View D R) (i : Slot) (n : Nat) (served : List (Nat × R)) : Prop :=
  v.Clean ∧ ∃ r, v.reply = some ⟨i, .reply n r⟩ ∧ (n, r) ∈ served

inductive Starts (v : View D R) (sent : List D) (passed : List (Answer D R)) : Prop where
  | asked : v.asked = [.read_async] → v.pending = [] → v.streaming = none → Starts v sent passed
  | reads : v.asked = [] → v.pending = [] → v.streaming = some false → sent = [] → passed = [] →
      Starts v sent passed
  | streams {m rest} : v.asked = [] → v.pending = m :: rest → m.answer = .started →
      rest.map Message.answer = sent.map .data → v.streaming = some true → passed = [] →
      Starts v sent passed
  | refused {m} : v.asked = [] → v.pending = [m] → m.answer = .refused → v.streaming = none →
      Starts v sent passed

inductive Started (v : View D R) (sent : List D) (passed : List (Answer D R)) : Prop where
  | streams {m} : v.asked = [] → v.reply = some m → (m.answer = .started ∨ ∃ d, m.answer = .data d) →
      v.pending.map Message.answer = sent.map .data → v.streaming = some true → passed = [] →
      Started v sent passed
  | refused {m} : v.Clean → v.reply = some m → m.answer = .refused → Started v sent passed

/-- What was sent is what the callback was given and what is on its way. -/
structure Streams (v : View D R) (sent : List D) (passed : List (Answer D R)) : Prop where
  asked : v.asked = []
  streaming : v.streaming = some true
  sent : passed ++ v.pending.map Message.answer = sent.map .data

/-- The callback reads the reply, which nothing may overwrite. -/
structure InCallback (v : View D R) (sent : List D) (passed : List (Answer D R)) : Prop where
  asked : v.asked = []
  streaming : v.streaming = some true
  boxed : v.boxed = false
  sent : ∃ m, v.reply = some m ∧
    passed ++ m.answer :: v.pending.map Message.answer = sent.map .data

variable {v v' : View D R} {i : Slot} {n : Nat} {served : List (Nat × R)} {sent : List D}
  {passed : List (Answer D R)}

theorem Clean.spent (clean : v.Clean) : v.Spent :=
  ⟨fun m member => by simp [clean.2.1] at member, .inl ⟨clean.1, clean.2.2⟩⟩

theorem Streams.data (streams : v.Streams sent passed) {m : Message D R} (member : m ∈ v.pending) :
    ∃ d, m.answer = .data d := by
  have passes : m.answer ∈ sent.map Answer.data := by
    rw [← streams.sent]
    exact List.mem_append_right _ (List.mem_map_of_mem member)
  obtain ⟨d, -, same⟩ := List.mem_map.mp passes
  exact ⟨d, same.symm⟩

end View

/-- The modes in which nothing but old data may come for the slot. -/
def Mode.Spends : Mode → Prop
  | .holds _ | .leaves _ | .cancels _ | .flushes _ => True
  | _ => False

def Mode.Awaits (i : Slot) (want : Want) (m : Mode) : Prop :=
  m = .waits i want ∨ m = .receives i want

/-- What the view of slot `i` is like when thread `h` holds it in mode `m`. -/
inductive Fits (v : View D R) (served : List (Nat × R)) (sent : List D)
    (passed : List (Answer D R)) (h : Option T) (i : Slot) (m : Mode) : Prop where
  | spent : m.Spends → v.Spent → Fits v served sent passed h i m
  | awaits {t n} : h = some t → m.Awaits i (.reply n) → v.Awaits i n served →
      Fits v served sent passed h i m
  | answered {t n} : h = some t → m = .answered i (.reply n) → v.Answered i n served →
      Fits v served sent passed h i m
  | starts : h = none → m.Awaits i .start → v.Starts sent passed → Fits v served sent passed h i m
  | started : h = none → m = .answered i .start → v.Started sent passed →
      Fits v served sent passed h i m
  | streams : h = none → (m = .loops i ∨ m.Awaits i .data) → v.Streams sent passed →
      Fits v served sent passed h i m
  | callback : h = none → m = .answered i .data → v.InCallback sent passed →
      Fits v served sent passed h i m

structure Slots (mode : Option T → Mode) (view : Slot → View D R) (served : List (Nat × R))
    (sent : List D) (passed : List (Answer D R)) : Prop where
  distinct : ∀ h h' i, (mode h).slot = some i → (mode h').slot = some i → h = h'
  fits : ∀ h i, (mode h).slot = some i → Fits (view i) served sent passed h i (mode h)
  free : ∀ i, (∀ h, (mode h).slot ≠ some i) → (view i).Spent

section Frame

variable {mode : Option T → Mode} {view view' : Slot → View D R}
  {served served' : List (Nat × R)} {sent sent' : List D} {passed passed' : List (Answer D R)}
  {i : Slot} {n : Nat} {v v' : View D R} {h : Option T} {m m' : Mode}

theorem View.Awaits.more (awaits : v.Awaits i n served) (more : served ⊆ served') :
    v.Awaits i n served' := by
  cases awaits with
  | asked asked pending off => exact .asked asked pending off
  | served asked pending member off => exact .served asked pending (more member) off

theorem View.Answered.more (answered : v.Answered i n served) (more : served ⊆ served') :
    v.Answered i n served' := by
  obtain ⟨clean, r, reply, member⟩ := answered
  exact ⟨clean, r, reply, more member⟩

theorem View.Starts.off (starts : v.Starts sent passed) (off : v.streaming = none) :
    v.Starts sent' passed' := by
  cases starts with
  | asked asked pending off => exact .asked asked pending off
  | reads _ _ on => simp [off] at on
  | streams _ _ _ _ on => simp [off] at on
  | refused asked pending answer off => exact .refused asked pending answer off

theorem View.Started.off (started : v.Started sent passed) (off : v.streaming = none) :
    v.Started sent' passed' := by
  cases started with
  | streams _ _ _ _ on => simp [off] at on
  | refused clean reply answer => exact .refused clean reply answer

theorem Fits.more (fits : Fits v served sent passed h i m) (more : served ⊆ served')
    (same : sent' = sent ∧ passed' = passed ∨ v.streaming = none) :
    Fits v served' sent' passed' h i m := by
  cases fits with
  | spent spends spent => exact .spent spends spent
  | awaits who mode awaits => exact .awaits who mode (awaits.more more)
  | answered who mode answered => exact .answered who mode (answered.more more)
  | starts who mode starts =>
    rcases same with ⟨rfl, rfl⟩ | off
    · exact .starts who mode starts
    · exact .starts who mode (starts.off off)
  | started who mode started =>
    rcases same with ⟨rfl, rfl⟩ | off
    · exact .started who mode started
    · exact .started who mode (started.off off)
  | streams who mode streams =>
    rcases same with ⟨rfl, rfl⟩ | off
    · exact .streams who mode streams
    · have on := streams.streaming
      simp [off] at on
  | callback who mode callback =>
    rcases same with ⟨rfl, rfl⟩ | off
    · exact .callback who mode callback
    · have on := callback.streaming
      simp [off] at on

theorem Slots.at_slot {mode' : Option T → Mode} (slots : Slots mode view served sent passed)
    (modes : ∀ h, mode' h = mode h ∨
      ((mode h).slot = none ∨ (mode h).slot = some i) ∧
        ((mode' h).slot = none ∨ (mode' h).slot = some i))
    (views : ∀ j, j ≠ i → view' j = view j) (more : served ⊆ served')
    (same : sent' = sent ∧ passed' = passed ∨ ∀ j, j ≠ i → (view j).streaming = none)
    (distinct : ∀ h h', (mode' h).slot = some i → (mode' h').slot = some i → h = h')
    (fits : ∀ h, (mode' h).slot = some i → Fits (view' i) served' sent' passed' h i (mode' h))
    (free : (∀ h, (mode' h).slot ≠ some i) → (view' i).Spent) :
    Slots mode' view' served' sent' passed' := by
  have kept : ∀ h j, j ≠ i → (mode' h).slot = some j → mode' h = mode h := by
    intro h j other at_j
    rcases modes h with eq | ⟨-, none | at_i⟩
    · exact eq
    · simp [none] at at_j
    · exact absurd (Option.some.inj (at_j.symm.trans at_i)) other
  have back : ∀ h j, j ≠ i → (mode h).slot = some j → mode' h = mode h := by
    intro h j other at_j
    rcases modes h with eq | ⟨none | at_i, -⟩
    · exact eq
    · simp [none] at at_j
    · exact absurd (Option.some.inj (at_j.symm.trans at_i)) other
  constructor
  · intro h h' j at_j at_j'
    by_cases here : j = i
    · subst here
      exact distinct h h' at_j at_j'
    · rw [kept h j here at_j] at at_j
      rw [kept h' j here at_j'] at at_j'
      exact slots.distinct h h' j at_j at_j'
  · intro h j at_j
    by_cases here : j = i
    · subst here
      exact fits h at_j
    · have eq := kept h j here at_j
      rw [eq] at at_j ⊢
      rw [views j here]
      exact (slots.fits h j at_j).more more (same.imp_right (fun off => off j here))
  · intro j empty
    by_cases here : j = i
    · subst here
      exact free empty
    · rw [views j here]
      apply slots.free
      intro h at_j
      apply empty h
      rw [back h j here at_j]
      exact at_j

variable [DecidableEq T]

section

variable (slots : Slots mode view served sent passed)
include slots

theorem Slots.taken (idle : mode h = .idle) (free : ∀ h', (mode h').slot ≠ some i) :
    Slots (Function.update mode h (.holds i)) view served sent passed := by
  have holder : ∀ h', (Function.update mode h (.holds i) h').slot = some i → h' = h := by
    intro h' at_i
    by_contra other
    rw [Function.update_of_ne other] at at_i
    exact free h' at_i
  apply slots.at_slot (i := i) _ (fun _ _ => rfl) (fun _ member => member) (.inl ⟨rfl, rfl⟩)
  · intro h₁ h₂ at₁ at₂
    rw [holder h₁ at₁, holder h₂ at₂]
  · intro h' at_i
    obtain rfl := holder h' at_i
    rw [Function.update_self]
    exact .spent trivial (slots.free i free)
  · intro empty
    exact absurd (by rw [Function.update_self]; rfl) (empty h)
  · intro h'
    by_cases here : h' = h
    · subst here
      rw [Function.update_self, idle]
      exact .inr ⟨.inl rfl, .inr rfl⟩
    · exact .inl (Function.update_of_ne here _ _)

theorem Slots.given_back
    (at_i : (mode h).slot = some i) (spent : (view i).Spent) :
    Slots (Function.update mode h .idle) view served sent passed := by
  have empty : ∀ h', (Function.update mode h .idle h').slot ≠ some i := by
    intro h' at_i'
    by_cases here : h' = h
    · subst here
      rw [Function.update_self] at at_i'
      simp [Mode.slot] at at_i'
    · rw [Function.update_of_ne here] at at_i'
      exact here (slots.distinct h' h i at_i' at_i)
  apply slots.at_slot (i := i) _ (fun _ _ => rfl) (fun _ member => member) (.inl ⟨rfl, rfl⟩)
  · intro h₁ h₂ at₁
    exact absurd at₁ (empty h₁)
  · intro h' at_i'
    exact absurd at_i' (empty h')
  · intro _
    exact spent
  · intro h'
    by_cases here : h' = h
    · subst here
      rw [Function.update_self]
      exact .inr ⟨.inr at_i, .inl rfl⟩
    · exact .inl (Function.update_of_ne here _ _)

theorem Slots.moves (at_i : (mode h).slot = some i)
    (still : m'.slot = some i) (views : ∀ j, j ≠ i → view' j = view j)
    (same : passed' = passed ∨ ∀ j, j ≠ i → (view j).streaming = none)
    (fits : Fits (view' i) served sent passed' h i m') :
    Slots (Function.update mode h m') view' served sent passed' := by
  have holder : ∀ h', (Function.update mode h m' h').slot = some i → h' = h := by
    intro h' at_i'
    by_contra other
    rw [Function.update_of_ne other] at at_i'
    exact other (slots.distinct h' h i at_i' at_i)
  apply slots.at_slot (i := i) _ views (fun _ member => member)
    (same.imp_left (fun eq => ⟨rfl, eq⟩))
  · intro h₁ h₂ at₁ at₂
    rw [holder h₁ at₁, holder h₂ at₂]
  · intro h' at_i'
    obtain rfl := holder h' at_i'
    rw [Function.update_self]
    exact fits
  · intro empty
    exact absurd (by rw [Function.update_self]; exact still) (empty h)
  · intro h'
    by_cases here : h' = h
    · subst here
      rw [Function.update_self]
      exact .inr ⟨.inr at_i, .inr still⟩
    · exact .inl (Function.update_of_ne here _ _)

omit [DecidableEq T] in
theorem Slots.changes
    (views : ∀ j, j ≠ i → view' j = view j) (more : served ⊆ served')
    (same : sent' = sent ∧ passed' = passed ∨ ∀ j, j ≠ i → (view j).streaming = none)
    (fits : ∀ h, (mode h).slot = some i → Fits (view i) served sent passed h i (mode h) →
      Fits (view' i) served' sent' passed' h i (mode h))
    (spent : (∀ h, (mode h).slot ≠ some i) → (view i).Spent → (view' i).Spent) :
    Slots mode view' served' sent' passed' := by
  apply slots.at_slot (fun h => .inl rfl) views more same
  · intro h h' at_i at_i'
    exact slots.distinct h h' i at_i at_i'
  · intro h at_i
    exact fits h at_i (slots.fits h i at_i)
  · intro empty
    exact spent empty (slots.free i empty)

end

end Frame

end Soapy.Rtl.Mux
