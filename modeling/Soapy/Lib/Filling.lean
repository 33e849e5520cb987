import Mathlib

/-! # Filling in order

An amount poured into vessels, each to the brim before the next one gets anything.
-/

namespace Soapy.Lib

variable {α ι : Type} [CommRing α] [LinearOrder α]

def fill : List α → α → List α
  | [], _ => []
  | room :: rooms, amount => min amount room :: fill rooms (amount - min amount room)

@[simp] theorem fill_nil (amount : α) : fill [] amount = [] := rfl

@[simp] theorem fill_cons (room : α) (rooms : List α) (amount : α) :
    fill (room :: rooms) amount = min amount room :: fill rooms (amount - min amount room) := rfl

variable {rooms : List α}

theorem fill_zero (nonneg : ∀ room ∈ rooms, 0 ≤ room) :
    fill rooms 0 = rooms.map fun _ => 0 := by
  induction rooms with
  | nil => rfl
  | cons room rooms ih =>
    simp [min_eq_left (nonneg room List.mem_cons_self),
      ih fun r mem => nonneg r (List.mem_cons_of_mem _ mem)]

variable [IsStrictOrderedRing α]

theorem left_nonneg (amount room : α) : 0 ≤ amount - min amount room :=
  sub_nonneg.mpr (min_le_left _ _)

variable {amount : α}

theorem fill_sum (nonneg : ∀ room ∈ rooms, 0 ≤ room)
    (some : 0 ≤ amount) : (fill rooms amount).sum = min amount rooms.sum := by
  induction rooms generalizing amount with
  | nil => simp [some]
  | cons room rooms ih =>
    have rest := List.sum_nonneg fun r mem => nonneg r (List.mem_cons_of_mem _ mem)
    have summed := ih (fun r mem => nonneg r (List.mem_cons_of_mem _ mem))
      (left_nonneg amount room)
    simp only [fill_cons, List.sum_cons, summed]
    rcases le_total amount room with little | much
    · rw [min_eq_left little, sub_self, min_eq_left rest, add_zero, min_eq_left (by linarith)]
    · rw [min_eq_right much, ← min_add_add_left, add_sub_cancel]

theorem fill_brim (nonneg : ∀ room ∈ rooms, 0 ≤ room)
    (enough : rooms.sum ≤ amount) : fill rooms amount = rooms := by
  induction rooms generalizing amount with
  | nil => rfl
  | cons room rooms ih =>
    have rest := List.sum_nonneg fun r mem => nonneg r (List.mem_cons_of_mem _ mem)
    rw [List.sum_cons] at enough
    have brim : min amount room = room := min_eq_right (by linarith)
    rw [fill_cons, brim, ih (fun r mem => nonneg r (List.mem_cons_of_mem _ mem)) (by linarith)]

theorem fill_split {order : List ι} {room level : ι → α} (nonneg : ∀ i ∈ order, 0 ≤ room i) (some : 0 ≤ amount) (levels : order.map level = fill (order.map room) amount) :
    ∃ full part rest, order = full ++ part ++ rest ∧ part.length ≤ 1 ∧
      (∀ i ∈ full, level i = room i) ∧ ∀ i ∈ rest, level i = 0 := by
  induction order generalizing amount with
  | nil => exact ⟨[], [], [], rfl, Nat.zero_le _, by simp, by simp⟩
  | cons i order ih =>
    simp only [List.map_cons, fill_cons, List.cons.injEq] at levels
    have nonneg' : ∀ j ∈ order, 0 ≤ room j := fun j mem => nonneg j (List.mem_cons_of_mem _ mem)
    rcases le_total (room i) amount with much | little
    · obtain ⟨full, part, rest, rfl, short, brim, empty⟩ :=
        ih nonneg' (left_nonneg amount (room i)) levels.2
      refine ⟨i :: full, part, rest, rfl, short, ?_, empty⟩
      intro j mem
      cases mem with
      | head => exact levels.1.trans (min_eq_right much)
      | tail _ mem => exact brim j mem
    · have none := levels.2
      rw [min_eq_left little, sub_self, fill_zero (by simpa using nonneg'), List.map_map] at none
      exact ⟨[], [i], order, rfl, le_rfl, by simp, List.map_inj_left.mp none⟩

theorem fill_within {order : List ι} {room level : ι → α} (nonneg : ∀ i ∈ order, 0 ≤ room i) (some : 0 ≤ amount) (levels : order.map level = fill (order.map room) amount) :
    ∀ i ∈ order, 0 ≤ level i ∧ level i ≤ room i := by
  induction order generalizing amount with
  | nil => simp
  | cons i order ih =>
    simp only [List.map_cons, fill_cons, List.cons.injEq] at levels
    intro j mem
    cases mem with
    | head =>
      rw [levels.1]
      exact ⟨le_min some (nonneg i List.mem_cons_self), min_le_right _ _⟩
    | tail _ mem =>
      exact ih (fun k mem => nonneg k (List.mem_cons_of_mem _ mem))
        (left_nonneg amount (room i)) levels.2 j mem

end Soapy.Lib
