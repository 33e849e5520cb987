import Mathlib

/-! # Programs over a fixed set of instructions

A program issues instructions, and each answer may decide what comes next.
Running one threads a state through a machine that executes single
instructions; the state survives an exception, as an object survives a throwing
member function. `steps` lists the instructions a run executes, so a property
of single instructions can be carried to whole runs.
-/

namespace Soapy.Lib

/-- `I` are the instructions, `R i` is the answer to `i`, `E` the exceptions. -/
inductive Program (I : Type) (R : I → Type) (E : Type) (α : Type) where
  | ret (a : α)
  | fail (e : E)
  | op (i : I) (next : R i → Program I R E α)

namespace Program

variable {I : Type} {R : I → Type} {E α β γ σ : Type}

protected def bind : Program I R E α → (α → Program I R E β) → Program I R E β
  | .ret a, f => f a
  | .fail e, _ => .fail e
  | .op i next, f => .op i (fun r => (next r).bind f)

instance : Monad (Program I R E) where
  pure := .ret
  bind := Program.bind

/-- Issue one instruction and return its answer. -/
def call (i : I) : Program I R E (R i) := .op i .ret

/-- The program issues instruction `i` and then returns, whatever the answer is. -/
inductive Only (i : I) : Program I R E α → Prop where
  | op {next : R i → Program I R E α} (returns : ∀ r, ∃ a, next r = .ret a) : Only i (.op i next)

theorem Only.returns {i j : I} {next : R j → Program I R E α} (only : Only i (.op j next)) (r : R j) :
    ∃ a, next r = .ret a := by
  cases only with
  | op returns => exact returns r

theorem Only.call (i : I) : Only i (call i : Program I R E (R i)) := .op fun r => ⟨r, rfl⟩

/-- Execute one instruction: its answer or an exception, and the state after. -/
abbrev Machine (I : Type) (R : I → Type) (E σ : Type) := (i : I) → σ → Except E (R i) × σ

def run (m : Machine I R E σ) : Program I R E α → σ → Except E α × σ
  | .ret a, s => (.ok a, s)
  | .fail e, s => (.error e, s)
  | .op i next, s =>
    match m i s with
    | (.ok r, s') => (next r).run m s'
    | (.error e, s') => (.error e, s')

/-- An executed instruction with the states before and after it. -/
structure Step (I σ : Type) where
  before : σ
  instr : I
  after : σ

def steps (m : Machine I R E σ) : Program I R E α → σ → List (Step I σ)
  | .ret _, _ => []
  | .fail _, _ => []
  | .op i next, s =>
    match m i s with
    | (.ok r, s') => ⟨s, i, s'⟩ :: (next r).steps m s'
    | (.error _, s') => [⟨s, i, s'⟩]

@[simp] theorem run_ret (m : Machine I R E σ) (a : α) (s : σ) :
    run m (.ret a : Program I R E α) s = (.ok a, s) := rfl

theorem run_call (m : Machine I R E σ) (i : I) (s : σ) :
    run m (call i : Program I R E (R i)) s = m i s := by
  unfold call
  rw [run]
  split <;> simp_all

theorem run_bind (m : Machine I R E σ) (p : Program I R E α) (f : α → Program I R E β) (s : σ) :
    run m (p >>= f) s =
      match run m p s with
      | (.ok a, s') => run m (f a) s'
      | (.error e, s') => (.error e, s') := by
  change run m (p.bind f) s = _
  induction p generalizing s with
  | ret a => rfl
  | fail e => rfl
  | op i next ih =>
    simp only [Program.bind, run]
    cases h : m i s with
    | mk answer s' =>
      cases answer with
      | ok r => exact ih r s'
      | error e => rfl

theorem run_bind_ok {m : Machine I R E σ} {p : Program I R E α} {f : α → Program I R E β}
    {s s' : σ} {a : α} (h : run m p s = (.ok a, s')) : run m (p >>= f) s = run m (f a) s' := by
  rw [run_bind, h]

theorem run_bind_error {m : Machine I R E σ} {p : Program I R E α} {f : α → Program I R E β}
    {s s' : σ} {e : E} (h : run m p s = (.error e, s')) :
    run m (p >>= f) s = (.error e, s') := by
  rw [run_bind, h]

/-- The steps of several member function calls on one object. A call that throws
    leaves the object to the next one. -/
def sessionSteps (m : Machine I R E σ) : List (Program I R E Unit) → σ → List (Step I σ)
  | [], _ => []
  | p :: rest, s => steps m p s ++ sessionSteps m rest (run m p s).2

section Safety

variable (m : Machine I R E σ) (Inv : σ → Prop) (Good Ok : Step I σ → Prop)

/-- From states that satisfy the invariant, an instruction is good exactly when
    it meets the condition, and a good one keeps the invariant. -/
structure Agrees : Prop where
  iff : ∀ s i, Inv s → (Good ⟨s, i, (m i s).2⟩ ↔ Ok ⟨s, i, (m i s).2⟩)
  keeps : ∀ s i, Inv s → Good ⟨s, i, (m i s).2⟩ → Inv (m i s).2

variable {m Inv Good Ok}

theorem Agrees.run_keeps (agrees : Agrees m Inv Good Ok) (p : Program I R E α) {s : σ}
    (inv : Inv s) (good : ∀ step ∈ steps m p s, Good step) : Inv (run m p s).2 := by
  induction p generalizing s with
  | ret a => exact inv
  | fail e => exact inv
  | op i next ih =>
    have keeps := agrees.keeps s i inv
    simp only [steps, run] at good ⊢
    cases h : m i s with
    | mk answer s' =>
      rw [h] at keeps good
      cases answer with
      | ok r =>
        have kept : Inv s' := keeps (good _ List.mem_cons_self)
        exact ih r kept (fun step member => good step (List.mem_cons_of_mem _ member))
      | error e => exact keeps (good _ List.mem_cons_self)

theorem Agrees.steps_iff (agrees : Agrees m Inv Good Ok) (p : Program I R E α) {s : σ}
    (inv : Inv s) :
    (∀ step ∈ steps m p s, Good step) ↔ ∀ step ∈ steps m p s, Ok step := by
  induction p generalizing s with
  | ret a => simp [steps]
  | fail e => simp [steps]
  | op i next ih =>
    have iff := agrees.iff s i inv
    have keeps := agrees.keeps s i inv
    simp only [steps]
    cases h : m i s with
    | mk answer s' =>
      rw [h] at iff keeps
      cases answer with
      | error e => simpa using iff
      | ok r =>
        simp only [List.forall_mem_cons]
        constructor
        · rintro ⟨first, rest⟩
          exact ⟨iff.mp first, (ih r (keeps first)).mp rest⟩
        · rintro ⟨first, rest⟩
          exact ⟨iff.mpr first, (ih r (keeps (iff.mpr first))).mpr rest⟩

theorem Agrees.session_iff (agrees : Agrees m Inv Good Ok) (ps : List (Program I R E Unit)) {s : σ}
    (inv : Inv s) :
    (∀ step ∈ sessionSteps m ps s, Good step) ↔ ∀ step ∈ sessionSteps m ps s, Ok step := by
  induction ps generalizing s with
  | nil => simp [sessionSteps]
  | cons p rest ih =>
    have first := agrees.steps_iff p inv
    simp only [sessionSteps, List.forall_mem_append]
    constructor
    · rintro ⟨here, later⟩
      exact ⟨first.mp here, (ih (agrees.run_keeps p inv here)).mp later⟩
    · rintro ⟨here, later⟩
      have good := first.mpr here
      exact ⟨good, (ih (agrees.run_keeps p inv good)).mpr later⟩

end Safety

end Program

end Soapy.Lib
