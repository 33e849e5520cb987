import Mathlib

/-! # Buffers of a fixed size

A buffer is written from an offset on and read from an offset on. What does not fit
is not written; a caller that cares has checked before.
-/

namespace Soapy.Lib

abbrev Buffer (α : Type*) (P : Nat) := Fin P → α

namespace Buffer

variable {α : Type*} {P : Nat}

def write (b : Buffer α P) (offset : Nat) (src : List α) : Buffer α P := fun i =>
  if i.val < offset then b i else src.getD (i - offset) (b i)

def read (b : Buffer α P) (offset count : Nat) : List α := ((List.ofFn b).drop offset).take count

variable {b : Buffer α P} {offset count : Nat}

@[simp] theorem read_zero (b : Buffer α P) (offset : Nat) : b.read offset 0 = [] := List.take_zero

theorem read_length (inside : offset + count ≤ P) : (b.read offset count).length = count := by
  rw [read, List.length_take, List.length_drop, List.length_ofFn]
  omega

theorem read_write (b : Buffer α P) (offset : Nat) (src : List α) (inside : offset + src.length ≤ P) :
    (b.write offset src).read 0 (offset + src.length) = b.read 0 offset ++ src := by
  apply List.ext_getElem
  · rw [read_length (by omega), List.length_append, read_length (by omega)]
  · intro i left right
    rw [read_length (by omega)] at left
    simp only [read, List.drop_zero, List.getElem_take, List.getElem_ofFn, List.getElem_append,
      List.length_take, List.length_ofFn, Nat.min_eq_left (show offset ≤ P by omega)]
    by_cases before : i < offset
    · simp [write, before]
    · have here : i - offset < src.length := by omega
      simp [write, before, List.getD_eq_getElem?_getD, List.getElem?_eq_getElem here]

theorem read_part (b : Buffer α P) {skip count length : Nat} (inside : skip + count ≤ length) :
    ((b.read 0 length).drop skip).take count = b.read skip count := by
  simp only [read, List.drop_zero, List.drop_take, List.take_take]
  rw [Nat.min_eq_left (by omega)]

end Buffer

end Soapy.Lib
