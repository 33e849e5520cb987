import Mathlib

/-! # Stateful actions that may stop early

An action changes a state and either returns or stops with a reason; what it did
to the state before stopping stays done. `wp m Q R s` says how `m` ends from `s`:
if it returns, the value and the state satisfy `Q`, and if it stops, `R`. The
rules follow the shape of a program, so a fact about a long program reduces to
facts about its calls.
-/

namespace Soapy.Lib

def Action (σ ε α : Type) : Type := σ → Except ε α × σ

namespace Action

variable {σ ε α β : Type}

instance : Monad (Action σ ε) where
  pure a := fun s => (.ok a, s)
  bind m f := fun s =>
    match m s with
    | (.ok a, s') => f a s'
    | (.error e, s') => (.error e, s')

def stop (e : ε) : Action σ ε α := fun s => (.error e, s)

def get : Action σ ε σ := fun s => (.ok s, s)

def modify (f : σ → σ) : Action σ ε Unit := fun s => (.ok (), f s)

/-- Run `m`; if it stops, continue with `handler` from the state it left. -/
def rescue (m : Action σ ε α) (handler : ε → Action σ ε α) : Action σ ε α := fun s =>
  match m s with
  | (.ok a, s') => (.ok a, s')
  | (.error e, s') => handler e s'

/-- A loop over a list, left by the first stop. -/
def forEach (f : β → Action σ ε Unit) : List β → Action σ ε Unit
  | [] => pure ()
  | b :: rest => do
    f b
    forEach f rest

variable {m : Action σ ε α} {s' : σ} {a : α}

theorem bind_ok {f : α → Action σ ε β} {s : σ} (h : m s = (.ok a, s')) : (m >>= f) s = f a s' := by
  change (match m s with | (.ok a, s') => f a s' | (.error e, s') => (.error e, s')) = f a s'
  rw [h]

theorem bind_error {f : α → Action σ ε β} {s : σ} {e : ε}
    (h : m s = (.error e, s')) : (m >>= f) s = (.error e, s') := by
  change (match m s with | (.ok a, s') => f a s' | (.error e, s') => (.error e, s')) = _
  rw [h]

theorem rescue_ok {handler : ε → Action σ ε α} {s : σ}
    (h : m s = (.ok a, s')) : m.rescue handler s = (.ok a, s') := by
  rw [rescue, h]

theorem rescue_error {handler : ε → Action σ ε α} {s : σ} {e : ε}
    (h : m s = (.error e, s')) : m.rescue handler s = handler e s' := by
  rw [rescue, h]

def wp (m : Action σ ε α) (Q : α → σ → Prop) (R : ε → σ → Prop) (s : σ) : Prop :=
  match m s with
  | (.ok a, s') => Q a s'
  | (.error e, s') => R e s'

section Rules

variable {Q : α → σ → Prop} {R : ε → σ → Prop} {s : σ}

@[simp] theorem wp_stop (e : ε) : wp (stop e : Action σ ε α) Q R s = R e s := rfl

@[simp] theorem wp_get {Q : σ → σ → Prop} : wp (get : Action σ ε σ) Q R s = Q s s := rfl

@[simp] theorem wp_modify {Q : Unit → σ → Prop} (f : σ → σ) :
    wp (modify f : Action σ ε Unit) Q R s = Q () (f s) := rfl

theorem wp_bind {Q : β → σ → Prop} (m : Action σ ε α) (f : α → Action σ ε β) :
    wp (m >>= f) Q R s = wp m (fun a => wp (f a) Q R) R s := by
  unfold wp
  cases h : m s with
  | mk result s' =>
    cases result with
    | ok a => rw [bind_ok h]
    | error e => rw [bind_error h]

theorem wp_rescue (m : Action σ ε α) (handler : ε → Action σ ε α) :
    wp (m.rescue handler) Q R s = wp m Q (fun e => wp (handler e) Q R) s := by
  unfold wp rescue
  cases h : m s with
  | mk result s' =>
    cases result with
    | ok a => rfl
    | error e => rfl

theorem wp_mono {Q' : α → σ → Prop} {R' : ε → σ → Prop}
    (ends : wp m Q R s) (returns : ∀ a s', Q a s' → Q' a s') (stops : ∀ e s', R e s' → R' e s') :
    wp m Q' R' s := by
  unfold wp at ends ⊢
  cases h : m s with
  | mk result s' =>
    rw [h] at ends
    cases result with
    | ok a => exact returns a s' ends
    | error e => exact stops e s' ends

theorem wp_of_ok (returns : m s = (.ok a, s')) (holds : Q a s') : wp m Q R s := by
  rw [wp, returns]
  exact holds

theorem wp_of_forall (returns : ∀ a s', Q a s') (stops : ∀ e s', R e s') :
    wp m Q R s := by
  unfold wp
  cases m s with
  | mk result s' =>
    cases result with
    | ok a => exact returns a s'
    | error e => exact stops e s'

theorem wp_forEach {f : β → Action σ ε Unit} {R : ε → σ → Prop} (Inv : List β → σ → Prop)
    (step : ∀ b rest s, Inv (b :: rest) s → wp (f b) (fun _ => Inv rest) R s)
    (l : List β) (s : σ) (start : Inv l s) : wp (forEach f l) (fun _ => Inv []) R s := by
  induction l generalizing s with
  | nil => exact start
  | cons b rest ih =>
    rw [forEach, wp_bind]
    exact wp_mono (step b rest s start) (fun _ s' kept => ih s' kept) (fun _ _ h => h)

theorem ok_of_wp (ends : wp m Q (fun _ _ => False) s) :
    ∃ a s', m s = (.ok a, s') ∧ Q a s' := by
  unfold wp at ends
  cases h : m s with
  | mk result s' =>
    rw [h] at ends
    cases result with
    | ok a => exact ⟨a, s', rfl, ends⟩
    | error e => exact ends.elim

end Rules

end Action

end Soapy.Lib
