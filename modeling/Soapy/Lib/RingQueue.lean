import Soapy.Lib.HandleRing

/-! # Queues in a ring of cells

`B` cells are used as a queue: its elements stand in the cells from `head` on, the
next one goes behind the last. Writing a cell that is not in use leaves the queue
as it is.
-/

namespace Soapy.Lib.RingQueue

open HandleRing (slot slot_zero slot_slot slot_inj)

variable {σ : Type*} {B : Nat} [NeZero B]

/-- The `n` elements from `head` on. -/
def stored (cells : Fin B → σ) (head : Fin B) : Nat → List σ
  | 0 => []
  | n + 1 => cells head :: stored cells (slot head 1) n

variable {cells : Fin B → σ} {head : Fin B} {n : Nat}

@[simp] theorem stored_zero : stored cells head 0 = [] := rfl

theorem stored_succ : stored cells head (n + 1) = cells head :: stored cells (slot head 1) n := rfl

@[simp] theorem stored_length : (stored cells head n).length = n := by
  induction n generalizing head with
  | zero => rfl
  | succ n ih => simp [stored_succ, ih]

theorem stored_snoc : stored cells head (n + 1) = stored cells head n ++ [cells (slot head n)] := by
  induction n generalizing head with
  | zero => simp [stored_succ]
  | succ n ih =>
    rw [stored_succ, ih, slot_slot, Nat.add_comm 1 n]
    rfl

theorem stored_of_pos (some : 0 < n) :
    stored cells head n = cells head :: stored cells (slot head 1) (n - 1) := by
  cases n with
  | zero => cases some
  | succ n => rfl

theorem stored_add (m : Nat) :
    stored cells head (m + n) = stored cells head m ++ stored cells (slot head m) n := by
  induction m generalizing head with
  | zero => simp
  | succ m ih =>
    rw [Nat.succ_add, stored_succ, stored_succ, ih, slot_slot, Nat.add_comm 1 m]
    rfl

theorem stored_map {τ : Type*} (f : σ → τ) :
    (stored cells head n).map f = stored (fun i => f (cells i)) head n := by
  induction n generalizing head with
  | zero => rfl
  | succ n ih => rw [stored_succ, List.map_cons, ih, stored_succ]

theorem stored_update {i : Fin B} (x : σ) (free : ∀ k, k < n → slot head k ≠ i) :
    stored (Function.update cells i x) head n = stored cells head n := by
  induction n generalizing head with
  | zero => rfl
  | succ n ih =>
    have first : head ≠ i := by
      have here := free 0 (Nat.succ_pos n)
      rwa [slot_zero] at here
    have rest : ∀ k, k < n → slot (slot head 1) k ≠ i := by
      intro k below
      rw [slot_slot, Nat.add_comm 1 k]
      exact free (k + 1) (Nat.succ_lt_succ below)
    rw [stored_succ, stored_succ, Function.update_of_ne first, ih rest]

theorem stored_update_tail (cells : Fin B → σ) (head : Fin B) (room : n < B) (x : σ) :
    stored (Function.update cells (slot head n) x) head n = stored cells head n := by
  apply stored_update
  intro k below same
  exact absurd (slot_inj (below.trans room) room same) (ne_of_lt below)

theorem stored_push (cells : Fin B → σ) (head : Fin B) (room : n < B) (x : σ) :
    stored (Function.update cells (slot head n) x) head (n + 1) = stored cells head n ++ [x] := by
  rw [stored_snoc, stored_update_tail cells head room, Function.update_self]

theorem stored_update_head (cells : Fin B → σ) (head : Fin B) (room : n < B) (x : σ) :
    stored (Function.update cells head x) (slot head 1) n = stored cells (slot head 1) n := by
  apply stored_update
  intro k below same
  rw [slot_slot] at same
  nth_rewrite 2 [← slot_zero head] at same
  have wrapped := slot_inj (by omega) (by omega) same
  omega

end Soapy.Lib.RingQueue
