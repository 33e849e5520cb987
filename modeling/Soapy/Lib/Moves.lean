import Mathlib

/-! # What a stateful computation does to its state

A computation moves along a relation if it takes every state to one behind it. Where the relation is
a preorder, computations that move along it can be put together in any way.
-/

namespace Soapy.Lib

variable {σ α β : Type} {R : σ → σ → Prop}

def Moves (R : σ → σ → Prop) (m : StateM σ α) : Prop := ∀ s, R s (m s).2

theorem bind_run (m : StateM σ α) (f : α → StateM σ β) (s : σ) :
    (m >>= f) s = f (m s).1 (m s).2 := rfl

variable (a : α)

theorem pure_run (s : σ) : (pure a : StateM σ α) s = (a, s) := rfl

theorem ite_pure_run {c : Prop} [Decidable c] (a' : α) (s : σ) :
    (if c then pure a else pure a' : StateM σ α) s = (if c then a else a', s) := by
  split
  · rfl
  · rfl

variable {f : β → StateM σ α}

namespace Moves

variable {m : StateM σ α}

theorem mono {R' : σ → σ → Prop} (moves : Moves R m)
    (wider : ∀ s s', R s s' → R' s s') : Moves R' m :=
  fun s => wider s _ (moves s)

theorem ite {c : Prop} [Decidable c] {m' : StateM σ α} (first : Moves R m)
    (second : Moves R m') : Moves R (if c then m else m') := by
  split
  · exact first
  · exact second

variable [IsPreorder σ R]

theorem pure : Moves R (pure a : StateM σ α) := fun s => Std.Refl.refl s

theorem bind {f : α → StateM σ β} (first : Moves R m)
    (second : ∀ a, Moves R (f a)) : Moves R (m >>= f) :=
  fun s => IsTrans.trans s _ _ (first s) (second (m s).1 (m s).2)

theorem forM {f : β → StateM σ PUnit} (step : ∀ b, Moves R (f b)) (l : List β) :
    Moves R (l.forM f) := by
  induction l with
  | nil => exact pure _
  | cons b rest ih => exact (step b).bind fun _ => ih

theorem mapM (step : ∀ b, Moves R (f b)) (l : List β) :
    Moves R (l.mapM f) := by
  induction l with
  | nil => exact pure _
  | cons b rest ih =>
    rw [List.mapM_cons]
    exact (step b).bind fun _ => ih.bind fun _ => pure _

theorem foldlM {f : α → β → StateM σ α} (step : ∀ a b, Moves R (f a b)) (a : α) (l : List β) :
    Moves R (l.foldlM f a) := by
  induction l generalizing a with
  | nil => exact pure _
  | cons b rest ih => exact (step a b).bind fun a' => ih a'

end Moves

variable {P : σ → Prop} {l : List β}

theorem mapM_yields {Q : β → α → Prop}
    (step : ∀ b ∈ l, ∀ s, P s → Q b (f b s).1 ∧ P (f b s).2) {s : σ} (start : P s) :
    List.Forall₂ Q l (l.mapM f s).1 ∧ P (l.mapM f s).2 := by
  induction l generalizing s with
  | nil => exact ⟨.nil, start⟩
  | cons b rest ih =>
    obtain ⟨value, next⟩ := step b List.mem_cons_self s start
    obtain ⟨values, last⟩ := ih (fun b' member => step b' (List.mem_cons_of_mem b member)) next
    rw [List.mapM_cons]
    exact ⟨.cons value values, last⟩

theorem mapM_append_run (f : β → StateM σ α) (l l' : List β) (s : σ) :
    (l ++ l').mapM f s = ((l.mapM f s).1 ++ (l'.mapM f (l.mapM f s).2).1,
      (l'.mapM f (l.mapM f s).2).2) := by
  rw [List.mapM_append]
  rfl

theorem mapM_yields_append {Q : β → α → Prop}
    {l' : List β} {s : σ} (first : List.Forall₂ Q l (l.mapM f s).1)
    (second : List.Forall₂ Q l' (l'.mapM f (l.mapM f s).2).1 ∧ P (l'.mapM f (l.mapM f s).2).2) :
    List.Forall₂ Q (l ++ l') ((l ++ l').mapM f s).1 ∧ P ((l ++ l').mapM f s).2 := by
  rw [mapM_append_run]
  exact ⟨List.rel_append first second.1, second.2⟩

theorem map_of_forall₂ {g : β → α} {found : List α}
    (values : List.Forall₂ (fun b a => a = g b) l found) : found = l.map g := by
  induction values with
  | nil => rfl
  | cons value _ ih => rw [List.map_cons, value, ih]

theorem mapM_values {g : β → α}
    (step : ∀ b ∈ l, ∀ s, P s → (f b s).1 = g b ∧ P (f b s).2) {s : σ} (start : P s) :
    (l.mapM f s).1 = l.map g ∧ P (l.mapM f s).2 := by
  obtain ⟨values, last⟩ := mapM_yields (Q := fun b a => a = g b) step start
  exact ⟨map_of_forall₂ values, last⟩

theorem forM_fold {ρ : Type} {P : ρ → σ → Prop} {f : β → StateM σ PUnit} {g : ρ → β → ρ} (step : ∀ b ∈ l, ∀ r s, P r s → P (g r b) (f b s).2) {r : ρ} {s : σ}
    (start : P r s) : P (l.foldl g r) (l.forM f s).2 := by
  induction l generalizing r s with
  | nil => exact start
  | cons b rest ih =>
    exact ih (fun b' member => step b' (List.mem_cons_of_mem b member))
      (step b List.mem_cons_self r s start)

end Soapy.Lib
