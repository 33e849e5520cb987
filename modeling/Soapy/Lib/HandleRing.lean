import Mathlib

/-! # Rings of handles

`N` buffers are handed out in order and may come back in any order. A handle that
comes back is only marked; the window moves past the marked handles at its front,
so a buffer is not handed out again before all earlier ones are back.
-/

namespace Soapy.Lib

structure HandleRing (N : Nat) where
  acquired : Fin N → Bool
  nextHandleAcquire : Fin N
  nextHandleRelease : Fin N
  numHandlesAcquired : Nat

namespace HandleRing

variable {N : Nat} [NeZero N]

/-- The handle `k` places after `h`. -/
def slot (h : Fin N) (k : Nat) : Fin N :=
  ⟨(h.val + k) % N, Nat.mod_lt _ (Nat.pos_of_ne_zero (NeZero.ne N))⟩

variable (h : Fin N)

@[simp] theorem slot_zero : slot h 0 = h :=
  Fin.ext (Nat.mod_eq_of_lt h.isLt)

theorem slot_slot (j k : Nat) : slot (slot h j) k = slot h (j + k) := by
  apply Fin.ext
  simp only [slot, Nat.mod_add_mod, Nat.add_assoc]

theorem slot_all : slot h N = h := by
  apply Fin.ext
  change (h.val + N) % N = h.val
  rw [Nat.add_mod_right, Nat.mod_eq_of_lt h.isLt]

theorem slot_inj {h : Fin N} {j k : Nat} (hj : j < N) (hk : k < N) (same : slot h j = slot h k) :
    j = k := by
  have modEq : h.val + j ≡ h.val + k [MOD N] := Fin.ext_iff.mp same
  have cancelled := Nat.ModEq.add_left_cancel' h.val modEq
  rwa [Nat.ModEq, Nat.mod_eq_of_lt hj, Nat.mod_eq_of_lt hk] at cancelled

theorem slot_apart {h head : Fin N} (next : slot h 1 = head) {k : Nat} (below : k + 1 < N) :
    slot head k ≠ h := by
  intro same
  rw [← next, slot_slot, Nat.add_comm] at same
  have wrapped := slot_inj below (by omega) (same.trans (slot_zero h).symm)
  cases wrapped

def init : HandleRing N := ⟨fun _ => false, 0, 0, 0⟩

def full (r : HandleRing N) : Bool := r.numHandlesAcquired = N

def acquire (r : HandleRing N) : HandleRing N where
  acquired := Function.update r.acquired r.nextHandleAcquire true
  nextHandleAcquire := slot r.nextHandleAcquire 1
  nextHandleRelease := r.nextHandleRelease
  numHandlesAcquired := r.numHandlesAcquired + 1

/-- Actually release in order of handle index: pass the handles that are not
    acquired at the front of a window of the given size. -/
def drain (acquired : Fin N → Bool) : Nat → Fin N → Fin N × Nat
  | 0, next => (next, 0)
  | n + 1, next => if acquired next then (next, n + 1) else drain acquired n (slot next 1)

def release (r : HandleRing N) (h : Fin N) : HandleRing N :=
  let acquired := Function.update r.acquired h false
  let (next, num) := drain acquired r.numHandlesAcquired r.nextHandleRelease
  ⟨acquired, r.nextHandleAcquire, next, num⟩

/-- The acquired handles stand in a window of `numHandlesAcquired` handles that
    ends before `nextHandleAcquire` and begins with an acquired one. -/
structure Valid (r : HandleRing N) : Prop where
  next : r.nextHandleAcquire = slot r.nextHandleRelease r.numHandlesAcquired
  bound : r.numHandlesAcquired ≤ N
  window : ∀ h, r.acquired h → ∃ k < r.numHandlesAcquired, h = slot r.nextHandleRelease k
  front : r.numHandlesAcquired ≠ 0 → r.acquired r.nextHandleRelease

theorem Valid.init : (init : HandleRing N).Valid where
  next := by simp [HandleRing.init]
  bound := Nat.zero_le N
  window h held := by simp [HandleRing.init] at held
  front some := by simp [HandleRing.init] at some

variable {r : HandleRing N}

theorem Valid.fresh (valid : r.Valid) (room : r.full = false) :
    r.acquired r.nextHandleAcquire = false := by
  have short : r.numHandlesAcquired < N := by
    have notAll : r.numHandlesAcquired ≠ N := by simpa [full] using room
    exact lt_of_le_of_ne valid.bound notAll
  by_contra held
  obtain ⟨k, inside, same⟩ := valid.window _ (by simpa using held)
  rw [valid.next] at same
  have equal := slot_inj short (lt_trans inside short) same
  omega

theorem Valid.acquire (valid : r.Valid) (room : r.full = false) :
    r.acquire.Valid := by
  have notAll : r.numHandlesAcquired ≠ N := by simpa [full] using room
  have bound := valid.bound
  refine ⟨?_, ?_, fun h held => ?_, fun _ => ?_⟩
  · simp only [HandleRing.acquire, valid.next, slot_slot]
  · simp only [HandleRing.acquire]
    omega
  · simp only [HandleRing.acquire, Function.update_apply] at held ⊢
    split at held
    · rename_i last
      exact ⟨r.numHandlesAcquired, by omega, by rw [last, valid.next]⟩
    · obtain ⟨k, inside, same⟩ := valid.window h held
      exact ⟨k, by omega, same⟩
  · simp only [HandleRing.acquire, Function.update_apply]
    split
    · rfl
    · rename_i other
      refine valid.front (fun none => other ?_)
      rw [valid.next, none, slot_zero]

theorem drain_spec {acquired : Fin N → Bool} (n : Nat) (next : Fin N)
    (window : ∀ h, acquired h → ∃ k < n, h = slot next k) :
    (drain acquired n next).2 ≤ n ∧
      slot (drain acquired n next).1 (drain acquired n next).2 = slot next n ∧
      (∀ h, acquired h → ∃ k < (drain acquired n next).2, h = slot (drain acquired n next).1 k) ∧
      ((drain acquired n next).2 ≠ 0 → acquired (drain acquired n next).1) := by
  induction n generalizing next with
  | zero => exact ⟨le_refl _, rfl, window, fun some => absurd rfl some⟩
  | succ n ih =>
    by_cases held : acquired next
    · rw [drain, if_pos held]
      exact ⟨le_refl _, rfl, window, fun _ => held⟩
    · have rest : ∀ h, acquired h → ∃ k < n, h = slot (slot next 1) k := by
        intro h heldH
        obtain ⟨k, inside, same⟩ := window h heldH
        cases k with
        | zero =>
          rw [slot_zero] at same
          exact absurd (same ▸ heldH) held
        | succ k =>
          exact ⟨k, by omega, by rw [slot_slot, Nat.add_comm 1 k, same]⟩
      obtain ⟨fewer, last, left, front⟩ := ih (slot next 1) rest
      rw [drain, if_neg held]
      refine ⟨Nat.le_succ_of_le fewer, ?_, left, front⟩
      rw [last, slot_slot, Nat.add_comm 1 n]

theorem Valid.release (valid : r.Valid) (h : Fin N) : (r.release h).Valid := by
  have window : ∀ x, Function.update r.acquired h false x →
      ∃ k < r.numHandlesAcquired, x = slot r.nextHandleRelease k := by
    intro x held
    rw [Function.update_apply] at held
    split at held
    · simp at held
    · exact valid.window x held
  obtain ⟨fewer, last, left, front⟩ :=
    drain_spec r.numHandlesAcquired r.nextHandleRelease window
  refine ⟨?_, le_trans fewer valid.bound, left, front⟩
  simp only [HandleRing.release, valid.next]
  exact last.symm

theorem Valid.empty (valid : r.Valid) (none : ∀ h, r.acquired h = false) :
    r.numHandlesAcquired = 0 := by
  by_contra some
  have held := valid.front some
  simp [none] at held

def held (r : HandleRing N) : Nat := (Finset.univ.filter (fun h => r.acquired h = true)).card

omit [NeZero N] in
theorem held_le (r : HandleRing N) : r.held ≤ N := by
  have most := Finset.card_le_univ (Finset.univ.filter (fun h => r.acquired h = true))
  rwa [Fintype.card_fin] at most

theorem held_release {h : Fin N} (out : r.acquired h = true) :
    (r.release h).held + 1 = r.held := by
  have rest : Finset.univ.filter (fun x => (r.release h).acquired x = true) =
      (Finset.univ.filter (fun x => r.acquired x = true)).erase h := by
    ext x
    simp only [HandleRing.release, Finset.mem_filter, Finset.mem_univ, true_and, Finset.mem_erase,
      Function.update_apply]
    by_cases same : x = h
    · simp [same]
    · simp [same]
  have member : h ∈ Finset.univ.filter (fun x => r.acquired x = true) := by simpa using out
  rw [held, rest, Finset.card_erase_add_one member, held]

end HandleRing

end Soapy.Lib
