import Mathlib

/-! # Loops that may stop

A loop in `Except` is a plain fold where every turn is done, and ends with the error where some turn
is not.
-/

namespace Soapy.Lib

variable {α β ε : Type} {l : List α} {e : ε}

theorem foldlM_done {f : β → α → Except ε β} {g : β → α → β}
    (done : ∀ b, ∀ a ∈ l, f b a = .ok (g b a)) (b : β) :
    l.foldlM f b = .ok (l.foldl g b) := by
  induction l generalizing b with
  | nil => rfl
  | cons a rest ih =>
    rw [List.foldlM_cons, done b a List.mem_cons_self]
    exact ih (fun b a member => done b a (List.mem_cons_of_mem _ member)) (g b a)

theorem foldlM_stops {f : β → α → Except ε β} {p : α → Prop}
    (done : ∀ b, ∀ a ∈ l, p a → ∃ b', f b a = .ok b')
    (stops : ∀ b, ∀ a ∈ l, ¬ p a → f b a = .error e) (some : ∃ a ∈ l, ¬ p a) (b : β) :
    l.foldlM f b = .error e := by
  induction l generalizing b with
  | nil =>
    obtain ⟨_, none, _⟩ := some
    cases none
  | cons a rest ih =>
    rw [List.foldlM_cons]
    by_cases here : p a
    · obtain ⟨b', next⟩ := done b a List.mem_cons_self here
      rw [next]
      apply ih (fun b a member => done b a (List.mem_cons_of_mem _ member))
        (fun b a member => stops b a (List.mem_cons_of_mem _ member))
      obtain ⟨x, member, other⟩ := some
      cases List.mem_cons.mp member with
      | inl head => exact absurd (head ▸ here) other
      | inr tail => exact ⟨x, tail, other⟩
    · rw [stops b a List.mem_cons_self here]
      rfl

theorem mapM_done {f : α → Except ε β} {g : α → β} (done : ∀ a ∈ l, f a = .ok (g a)) :
    l.mapM f = .ok (l.map g) := by
  induction l with
  | nil => rfl
  | cons a rest ih =>
    rw [List.mapM_cons, done a List.mem_cons_self,
      ih fun a member => done a (List.mem_cons_of_mem _ member)]
    rfl

theorem mapM_stops {f : α → Except ε β} (stops : ∀ a ∈ l, f a = .error e) (some : l ≠ []) :
    l.mapM f = .error e := by
  cases l with
  | nil => exact absurd rfl some
  | cons a rest =>
    rw [List.mapM_cons, stops a List.mem_cons_self]
    rfl

end Soapy.Lib
