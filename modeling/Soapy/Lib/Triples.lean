import Soapy.Lib.Program

/-! # Triples for programs

What a program does from the states of a precondition, as long as every instruction is answered
as is relied on: each of its steps is good, it returns, and its answer and the state after meet
the postcondition. The rules follow the constructors of a program.
-/

namespace Soapy.Lib.Program

variable {I : Type} {R : I → Type} {E α β σ : Type}

def Triple (m : Machine I R E σ) (Rely Good : Step I σ → Prop) (P : σ → Prop)
    (p : Program I R E α) (Q : α → σ → Prop) : Prop :=
  ∀ s, P s → (∀ step ∈ steps m p s, Rely step) →
    (∀ step ∈ steps m p s, Good step) ∧ ∃ a s', run m p s = (.ok a, s') ∧ Q a s'

variable {m : Machine I R E σ}

variable {p : Program I R E α} {f : α → Program I R E β} {s : σ}

theorem steps_bind_ok {s' : σ} {a : α} (returns : run m p s = (.ok a, s')) :
    steps m (p >>= f) s = steps m p s ++ steps m (f a) s' := by
  change steps m (p.bind f) s = _
  induction p generalizing s with
  | ret b =>
    cases returns
    rfl
  | fail e => cases returns
  | op i next ih =>
    simp only [Program.bind, steps, run] at returns ⊢
    cases answered : m i s with
    | mk answer s'' =>
      rw [answered] at returns
      cases answer with
      | ok r => exact congrArg (_ :: ·) (ih r returns)
      | error e => cases returns

theorem steps_prefix_bind (p : Program I R E α) (f : α → Program I R E β) (s : σ) :
    steps m p s <+: steps m (p >>= f) s := by
  change _ <+: steps m (p.bind f) s
  induction p generalizing s with
  | ret b => exact List.nil_prefix
  | fail e => exact List.prefix_refl _
  | op i next ih =>
    simp only [Program.bind, steps]
    cases m i s with
    | mk answer s' =>
      cases answer with
      | ok r => exact List.cons_prefix_cons.mpr ⟨rfl, ih r s'⟩
      | error e => exact List.prefix_refl _

variable {κ : Type} {c : Prop}

namespace Triple

variable {Rely Good : Step I σ → Prop} {P : σ → Prop}

variable {Q : α → σ → Prop}

theorem ret {a : α} (holds : ∀ s, P s → Q a s) :
    Triple m Rely Good P (.ret a) Q := by
  intro s before _
  exact ⟨nofun, a, s, rfl, holds s before⟩

theorem bind {T : β → σ → Prop} (first : Triple m Rely Good P p Q)
    (second : ∀ a, Triple m Rely Good (Q a) (f a) T) : Triple m Rely Good P (p >>= f) T := by
  intro s before rely
  have front := fun step here => rely step ((steps_prefix_bind p f s).subset here)
  obtain ⟨good, a, s', returns, between⟩ := first s before front
  rw [steps_bind_ok returns] at rely ⊢
  rw [List.forall_mem_append] at rely ⊢
  obtain ⟨good', b, s'', returns', after⟩ := second a s' between rely.2
  exact ⟨⟨good, good'⟩, b, s'', (run_bind_ok returns).trans returns', after⟩

theorem call {i : I} {Q : R i → σ → Prop} (spec : ∀ s, P s → Rely ⟨s, i, (m i s).2⟩ →
      Good ⟨s, i, (m i s).2⟩ ∧ ∃ r, (m i s).1 = .ok r ∧ Q r (m i s).2) :
    Triple m Rely Good P (call i) Q := by
  intro s before rely
  have step := spec s before
  simp only [Program.call, steps, run] at rely ⊢
  cases answered : m i s with
  | mk answer s' =>
    rw [answered] at step rely
    cases answer with
    | ok r =>
      obtain ⟨good, r', same, after⟩ := step (rely _ List.mem_cons_self)
      cases same
      exact ⟨List.forall_mem_singleton.mpr good, r, s', rfl, after⟩
    | error e =>
      obtain ⟨-, r', same, -⟩ := step (rely _ List.mem_cons_self)
      cases same

theorem mono {P' : σ → Prop} {Q' : α → σ → Prop}
    (triple : Triple m Rely Good P p Q) (before : ∀ s, P' s → P s)
    (after : ∀ a s, Q a s → Q' a s) : Triple m Rely Good P' p Q' := by
  intro s start rely
  obtain ⟨good, a, s', returns, ends⟩ := triple s (before s start) rely
  exact ⟨good, a, s', returns, after a s' ends⟩

theorem ofEach (view : σ → κ) (each : ∀ k, Triple m Rely Good (fun s => P s ∧ view s = k) p Q) :
    Triple m Rely Good P p Q :=
  fun s before => each (view s) s ⟨before, rfl⟩

theorem ofPure (pure : ∀ s, P s → c)
    (triple : c → Triple m Rely Good P p Q) : Triple m Rely Good P p Q :=
  fun s before => triple (pure s before) s before

/-- Calls that each keep an invariant. -/
theorem session {Inv : σ → Prop} {ps : List (Program I R E Unit)}
    (each : ∀ p ∈ ps, Triple m Rely Good Inv p (fun _ => Inv)) (inv : Inv s)
    (rely : ∀ step ∈ sessionSteps m ps s, Rely step) :
    (∀ step ∈ sessionSteps m ps s, Good step) ∧
      Inv (ps.foldl (fun s p => (run m p s).2) s) := by
  induction ps generalizing s with
  | nil => exact ⟨nofun, inv⟩
  | cons p rest ih =>
    rw [sessionSteps, List.forall_mem_append] at rely ⊢
    obtain ⟨good, a, s', returns, kept⟩ := each p List.mem_cons_self s inv rely.1
    have after : (run m p s).2 = s' := congrArg Prod.snd returns
    rw [List.foldl_cons, after]
    rw [after] at rely
    have later := ih (fun q member => each q (List.mem_cons_of_mem p member)) kept rely.2
    exact ⟨⟨good, later.1⟩, later.2⟩

end Triple

def Keeps {ι : Type} (m : Machine I R E σ) (Rely Good : Step I σ → Prop) (A : ι → σ → Prop)
    (p : Program I R E α) : Prop :=
  ∀ i, Triple m Rely Good (A i) p (fun _ => A i)

namespace Keeps

variable {ι : Type} {Rely Good : Step I σ → Prop} {A : ι → σ → Prop}

theorem ret (a : α) : Keeps m Rely Good A (.ret a) := fun _ => .ret fun _ before => before

theorem bind (first : Keeps m Rely Good A p)
    (second : ∀ a, Keeps m Rely Good A (f a)) : Keeps m Rely Good A (p >>= f) :=
  fun i => .bind (first i) fun a => second a i

theorem ite [Decidable c] {q : Program I R E α} (yes : c → Keeps m Rely Good A p)
    (no : ¬ c → Keeps m Rely Good A q) : Keeps m Rely Good A (if c then p else q) := by
  split
  · exact yes ‹_›
  · exact no ‹_›

theorem coarsen {B : κ → σ → Prop} (keeps : Keeps m Rely Good A p)
    (part : ∀ k s, B k s → ∃ i, A i s ∧ ∀ s', A i s' → B k s') : Keeps m Rely Good B p := by
  intro k s before rely
  obtain ⟨i, here, whole⟩ := part k s before
  obtain ⟨good, a, s', returns, after⟩ := keeps i s here rely
  exact ⟨good, a, s', returns, whole s' after⟩

end Keeps

theorem steps_bind (p : Program I R E α) (f : α → Program I R E β) (s : σ) :
    steps m (p >>= f) s = steps m p s ++
      match run m p s with
      | (.ok a, s') => steps m (f a) s'
      | (.error _, _) => [] := by
  change steps m (p.bind f) s = _
  induction p generalizing s with
  | ret a => rfl
  | fail e => rfl
  | op i next ih =>
    simp only [Program.bind, steps, run]
    cases m i s with
    | mk answer s' =>
      cases answer with
      | ok r => exact congrArg (_ :: ·) (ih r s')
      | error e => rfl

theorem run_kept (view : σ → κ) (p : Program I R E α)
    (same : ∀ step ∈ steps m p s, view step.after = view step.before) :
    view (run m p s).2 = view s := by
  induction p generalizing s with
  | ret a => rfl
  | fail e => rfl
  | op i next ih =>
    simp only [steps, run] at same ⊢
    cases answered : m i s with
    | mk answer s' =>
      rw [answered] at same
      cases answer with
      | error e => exact same _ List.mem_cons_self
      | ok r =>
        have first : view s' = view s := same _ List.mem_cons_self
        exact (ih r fun step later => same step (List.mem_cons_of_mem _ later)).trans first

def Always (m : Machine I R E σ) (Good : Step I σ → Prop) (p : Program I R E α) : Prop :=
  ∀ s, ∀ step ∈ steps m p s, Good step

namespace Always

variable {Good : Step I σ → Prop}

theorem ret (a : α) : Always m Good (.ret a : Program I R E α) := fun _ => nofun

theorem fail (e : E) : Always m Good (.fail e : Program I R E α) := fun _ => nofun

theorem call {i : I} (good : ∀ s, Good ⟨s, i, (m i s).2⟩) :
    Always m Good (call i : Program I R E (R i)) := by
  intro s step here
  simp only [Program.call, steps] at here
  have known := good s
  cases answered : m i s with
  | mk answer s' =>
    rw [answered] at here known
    cases answer with
    | ok r =>
      cases List.mem_singleton.mp here
      exact known
    | error e =>
      cases List.mem_singleton.mp here
      exact known

theorem bind (first : Always m Good p)
    (second : ∀ a, Always m Good (f a)) : Always m Good (p >>= f) := by
  intro s step here
  rw [steps_bind] at here
  cases List.mem_append.mp here with
  | inl front => exact first s step front
  | inr behind =>
    split at behind
    · exact second _ _ step behind
    · cases behind

theorem ite [Decidable c] {q : Program I R E α} (yes : c → Always m Good p)
    (no : ¬ c → Always m Good q) : Always m Good (if c then p else q) := by
  split
  · exact yes ‹_›
  · exact no ‹_›

end Always

section Interpretation

variable {J : Type} {S : J → Type}

/-- Each instruction of a program without exceptions is carried out by a program. -/
def interpret (code : (j : J) → Program I R E (S j)) : Program J S Empty α → Program I R E α
  | .ret a => .ret a
  | .fail e => nomatch e
  | .op j next => code j >>= fun r => (next r).interpret code

theorem Keeps.interpret {ι : Type} {Rely Good : Step I σ → Prop} {A : ι → σ → Prop}
    {code : (j : J) → Program I R E (S j)} (keeps : ∀ j, Keeps m Rely Good A (code j))
    (p : Program J S Empty α) : Keeps m Rely Good A (p.interpret code) := by
  induction p with
  | ret a => exact .ret a
  | fail e => cases e
  | op j next ih => exact .bind (keeps j) ih

theorem Always.interpret {Good : Step I σ → Prop} {code : (j : J) → Program I R E (S j)}
    (good : ∀ j, Always m Good (code j)) (p : Program J S Empty α) :
    Always m Good (p.interpret code) := by
  induction p with
  | ret a => exact .ret a
  | fail e => cases e
  | op j next ih => exact .bind (good j) ih

end Interpretation

end Soapy.Lib.Program
