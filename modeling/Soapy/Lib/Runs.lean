import Mathlib

/-! # Runs of a system

A system takes labelled steps. A run is a sequence of them, each of which was
allowed in the state in which it was taken. What every allowed step keeps holds
at the end of every run.
-/

namespace Soapy.Lib

variable {σ A : Type*}

def Runs (Step : σ → A → σ → Prop) (Allowed : σ → A → Prop) : σ → σ → Prop :=
  Relation.ReflTransGen (fun s s' => ∃ a, Allowed s a ∧ Step s a s')

namespace Runs

variable {Step : σ → A → σ → Prop} {Allowed : σ → A → Prop} {s s' s'' : σ}

theorem refl : Runs Step Allowed s s := Relation.ReflTransGen.refl

theorem tail {a : A} (run : Runs Step Allowed s s') (step : Step s' a s'')
    (allowed : Allowed s' a := by trivial) : Runs Step Allowed s s'' :=
  Relation.ReflTransGen.tail run ⟨a, allowed, step⟩

theorem head {a : A} (step : Step s a s') (allowed : Allowed s a) (run : Runs Step Allowed s' s'') :
    Runs Step Allowed s s'' :=
  Relation.ReflTransGen.head ⟨a, allowed, step⟩ run

theorem keeps {I : σ → Prop} (run : Runs Step Allowed s s')
    (step : ∀ s a s', I s → Allowed s a → Step s a s' → I s') (inv : I s) : I s' := by
  induction run with
  | refl => exact inv
  | tail _ last ih =>
    obtain ⟨a, allowed, taken⟩ := last
    exact step _ a _ ih allowed taken

theorem mono {Wider : σ → A → Prop} (run : Runs Step Allowed s s')
    (wider : ∀ s a, Allowed s a → Wider s a) : Runs Step Wider s s' := by
  induction run with
  | refl => exact refl
  | tail _ last ih =>
    obtain ⟨a, allowed, taken⟩ := last
    exact ih.tail taken (wider _ a allowed)

end Runs

end Soapy.Lib
