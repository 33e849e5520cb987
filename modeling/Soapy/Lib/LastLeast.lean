import Mathlib

/-! # The last of the least

A search through a list that takes each element that is not worse than the best one so far.
-/

namespace Soapy.Lib

variable {α β : Type*} [LinearOrder α] [LinearOrder β]

/-- Among those that `p` holds of it has the least value, and is the greatest that has it. -/
structure IsLastLeast (f : α → β) (p : α → Prop) (a : α) : Prop where
  holds : p a
  least : ∀ x, p x → f a ≤ f x
  last : ∀ x, p x → f x = f a → x ≤ a

theorem IsLastLeast.unique {f : α → β} {p : α → Prop} {a b : α} (first : IsLastLeast f p a)
    (second : IsLastLeast f p b) : a = b := by
  have same : f a = f b := le_antisymm (first.least b second.holds) (second.least a first.holds)
  exact le_antisymm (second.last a first.holds same) (first.last b second.holds same.symm)

theorem IsLastLeast.congr {f : α → β} {p q : α → Prop} {a : α} (same : ∀ x, p x ↔ q x)
    (found : IsLastLeast f p a) : IsLastLeast f q a where
  holds := (same a).mp found.holds
  least x holds := found.least x ((same x).mpr holds)
  last x holds := found.last x ((same x).mpr holds)

theorem IsLastLeast.insert {f : α → β} {p : α → Prop} {a y : α} (found : IsLastLeast f p a)
    (least : f a ≤ f y) (last : f y = f a → y ≤ a) : IsLastLeast f (fun x => x = y ∨ p x) a where
  holds := .inr found.holds
  least := by
    intro x either
    cases either with
    | inl here => exact here ▸ least
    | inr there => exact found.least x there
  last := by
    intro x either same
    cases either with
    | inl here => exact here ▸ last (here ▸ same)
    | inr there => exact found.last x there same

def lastLeast (f : α → β) (best : α) (l : List α) : α :=
  l.foldl (fun best x => if f x ≤ f best then x else best) best

theorem lastLeast_spec (f : α → β) (best : α) {l : List α} (sorted : (best :: l).Pairwise (· < ·)) :
    IsLastLeast f (· ∈ best :: l) (lastLeast f best l) := by
  induction l generalizing best with
  | nil =>
    constructor
    · exact List.mem_cons_self
    · intro x member
      rw [List.mem_singleton.mp member]
      rfl
    · intro x member _
      exact (List.mem_singleton.mp member).le
  | cons y rest ih =>
    obtain ⟨above, tail⟩ := List.pairwise_cons.mp sorted
    rw [lastLeast, List.foldl_cons]
    by_cases better : f y ≤ f best
    · rw [if_pos better]
      have found := ih y tail
      have least : f (lastLeast f y rest) ≤ f best :=
        (found.least y List.mem_cons_self).trans better
      apply (found.insert least fun _ => (above _ found.holds).le).congr
      intro x
      exact List.mem_cons.symm
    · rw [if_neg better]
      have found := ih best (sorted.sublist ((List.sublist_cons_self y rest).cons_cons best))
      have worse : f (lastLeast f best rest) < f y :=
        (found.least best List.mem_cons_self).trans_lt (not_le.mp better)
      apply (found.insert worse.le fun same => absurd same worse.ne').congr
      intro x
      simp only [List.mem_cons]
      exact or_left_comm

end Soapy.Lib
