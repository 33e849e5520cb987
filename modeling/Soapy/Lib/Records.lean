import Mathlib

/-! # Records of one size

A list of records, each written as the same number of bytes one after the other.
-/

namespace Soapy.Lib.Records

variable {α β : Type*} {f : α → List β} {m : Nat}

section

variable (size : ∀ a, (f a).length = m)
include size

theorem flatMap_length (l : List α) :
    (l.flatMap f).length = m * l.length := by
  induction l with
  | nil => rfl
  | cons a rest ih =>
    rw [List.flatMap_cons, List.length_append, size, ih, List.length_cons]
    ring

theorem take_flatMap (k : Nat) (l : List α) :
    (l.flatMap f).take (m * k) = (l.take k).flatMap f := by
  induction l generalizing k with
  | nil => simp
  | cons a rest ih =>
    cases k with
    | zero => simp
    | succ k =>
      rw [List.flatMap_cons, Nat.mul_succ, Nat.add_comm, ← size a, List.take_length_add_append,
        size a, ih, List.take_succ_cons, List.flatMap_cons]

theorem drop_flatMap (k : Nat) (l : List α) :
    (l.flatMap f).drop (m * k) = (l.drop k).flatMap f := by
  induction l generalizing k with
  | nil => simp
  | cons a rest ih =>
    cases k with
    | zero => simp
    | succ k =>
      rw [List.flatMap_cons, Nat.mul_succ, Nat.add_comm, ← size a, List.drop_length_add_append,
        size a, ih, List.drop_succ_cons]

theorem getElem?_flatMap {l : List α} {i j : Nat}
    (inside : i < l.length) (part : j < m) (rest : List β) :
    (l.flatMap f ++ rest)[m * i + j]? = (f l[i])[j]? := by
  induction l generalizing i with
  | nil => cases inside
  | cons a tail ih =>
    rw [List.flatMap_cons, List.append_assoc]
    cases i with
    | zero =>
      rw [Nat.mul_zero, Nat.zero_add, List.getElem?_append_left (by rw [size]; exact part)]
      rfl
    | succ i =>
      rw [Nat.mul_succ, List.getElem?_append_right (by rw [size]; omega), size,
        show m * i + m + j - m = m * i + j by omega]
      exact ih (Nat.lt_of_succ_lt_succ inside)

end

theorem exists_flatMap (covers : ∀ piece : List β, piece.length = m → ∃ a, f a = piece) (k : Nat)
    {bytes : List β} (whole : bytes.length = m * k) :
    ∃ l : List α, l.length = k ∧ l.flatMap f = bytes := by
  induction k generalizing bytes with
  | zero => exact ⟨[], rfl, (List.length_eq_zero_iff.mp whole).symm⟩
  | succ k ih =>
    rw [Nat.mul_succ] at whole
    have first : (bytes.take m).length = m := by
      rw [List.length_take]
      omega
    have others : (bytes.drop m).length = m * k := by
      rw [List.length_drop]
      omega
    obtain ⟨a, here⟩ := covers _ first
    obtain ⟨l, count, rest⟩ := ih others
    refine ⟨a :: l, congrArg (· + 1) count, ?_⟩
    rw [List.flatMap_cons, here, rest, List.take_append_drop]

section Pieces

variable {records pieces : List (List β)}

theorem flatten_length (size : ∀ r ∈ records, r.length = m) :
    records.flatten.length = m * records.length := by
  induction records with
  | nil => rfl
  | cons r rest ih =>
    rw [List.forall_mem_cons] at size
    rw [List.flatten_cons, List.length_append, size.1, ih size.2, List.length_cons]
    ring

theorem flatten_length_le (small : ∀ p ∈ pieces, p.length ≤ m) :
    pieces.flatten.length ≤ m * pieces.length := by
  induction pieces with
  | nil => exact Nat.zero_le _
  | cons p rest ih =>
    rw [List.forall_mem_cons] at small
    have behind := ih small.2
    rw [List.flatten_cons, List.length_append, List.length_cons, Nat.mul_succ]
    omega

theorem whole_of_length (small : ∀ p ∈ pieces, p.length ≤ m)
    (much : m * pieces.length ≤ pieces.flatten.length) : ∀ p ∈ pieces, p.length = m := by
  induction pieces with
  | nil => nofun
  | cons p rest ih =>
    rw [List.forall_mem_cons] at small ⊢
    have behind := flatten_length_le small.2
    rw [List.flatten_cons, List.length_append, List.length_cons, Nat.mul_succ] at much
    have first : p.length = m := by omega
    exact ⟨first, ih small.2 (by omega)⟩

theorem whole_iff (some_bytes : 0 < m) (size : ∀ r ∈ records, r.length = m)
    (small : ∀ p ∈ pieces, p.length ≤ m) (same : pieces.flatten = records.flatten) :
    (∀ p ∈ pieces, p.length = m) ↔ pieces.length = records.length := by
  have total := congrArg List.length same
  rw [flatten_length size] at total
  constructor
  · intro whole
    rw [flatten_length whole] at total
    exact Nat.eq_of_mul_eq_mul_left some_bytes total
  · intro count
    apply whole_of_length small
    rw [count]
    exact Nat.le_of_eq total.symm

theorem map_length (size : ∀ r ∈ records, r.length = m) :
    records.map List.length = List.replicate records.length m := by
  rw [List.eq_replicate_iff, List.length_map]
  refine ⟨rfl, ?_⟩
  intro n mem
  obtain ⟨r, here, rfl⟩ := List.mem_map.mp mem
  exact size r here

theorem eq_of_whole (some_bytes : 0 < m) (size : ∀ r ∈ records, r.length = m)
    (whole : ∀ p ∈ pieces, p.length = m) (same : pieces.flatten = records.flatten) :
    pieces = records := by
  have count := (whole_iff some_bytes size (fun p mem => Nat.le_of_eq (whole p mem)) same).mp whole
  rw [List.eq_iff_flatten_eq, map_length size, map_length whole, count]
  exact ⟨same, rfl⟩

end Pieces

end Soapy.Lib.Records
