import Mathlib

/-! # Byte strings and network byte order

A `char *` buffer is a list of bytes. Words travel most significant byte first,
which is what `htonl` and `htonll` produce on every host, so the encoding is by
value and the byte order of the host never appears.
-/

namespace Soapy.Lib

abbrev Bytes := List UInt8

theorem takeWhile_whole (s : Bytes) : 0 ∉ s.takeWhile (· ≠ 0) :=
  fun zero => by simpa using List.mem_takeWhile_imp zero

def ascii (text : String) : Bytes :=
  text.toList.map (fun c => c.toNat.toUInt8)

/-- The low `n` bytes of `v`, most significant first. -/
def toBE : Nat → Nat → Bytes
  | 0, _ => []
  | n + 1, v => toBE n (v / 256) ++ [UInt8.ofNat (v % 256)]

def ofBE (bs : Bytes) : Nat :=
  bs.foldl (fun acc b => acc * 256 + b.toNat) 0

@[simp] theorem toBE_length (n v : Nat) : (toBE n v).length = n := by
  induction n generalizing v with
  | zero => rfl
  | succ n ih => simp [toBE, ih]

theorem ofBE_append_singleton (bs : Bytes) (b : UInt8) :
    ofBE (bs ++ [b]) = ofBE bs * 256 + b.toNat := by
  simp [ofBE]

theorem ofBE_toBE_mod (n v : Nat) : ofBE (toBE n v) = v % 256 ^ n := by
  induction n generalizing v with
  | zero => exact (Nat.mod_one v).symm
  | succ n ih =>
    have low : (UInt8.ofNat (v % 256)).toNat = v % 256 := by
      rw [UInt8.toNat_ofNat_of_lt' (by simp [UInt8.size]; omega)]
    rw [toBE, ofBE_append_singleton, ih, low, pow_succ', Nat.mod_mul, Nat.mul_comm, Nat.add_comm]

theorem ofBE_toBE (n v : Nat) (fits : v < 256 ^ n) : ofBE (toBE n v) = v := by
  rw [ofBE_toBE_mod, Nat.mod_eq_of_lt fits]

theorem ofBE_lt (bs : Bytes) : ofBE bs < 256 ^ bs.length := by
  induction bs using List.reverseRecOn with
  | nil => decide
  | append_singleton bs b ih =>
    have byte := b.toNat_lt
    rw [ofBE_append_singleton, List.length_append, List.length_singleton, pow_succ]
    omega

/-! ## Little endian words

Some wires carry the bytes of a word as a little endian host stores them.
-/

def toLE (n v : Nat) : Bytes := (toBE n v).reverse

def ofLE (bs : Bytes) : Nat := ofBE bs.reverse

@[simp] theorem toLE_length (n v : Nat) : (toLE n v).length = n := by
  rw [toLE, List.length_reverse, toBE_length]

theorem ofLE_toLE_mod (n v : Nat) : ofLE (toLE n v) = v % 256 ^ n := by
  rw [ofLE, toLE, List.reverse_reverse, ofBE_toBE_mod]

theorem ofLE_toLE (n v : Nat) (fits : v < 256 ^ n) : ofLE (toLE n v) = v := by
  rw [ofLE, toLE, List.reverse_reverse, ofBE_toBE n v fits]

theorem ofLE_lt (bs : Bytes) : ofLE bs < 256 ^ bs.length := by
  have bound := ofBE_lt bs.reverse
  rw [List.length_reverse] at bound
  exact bound

end Soapy.Lib
