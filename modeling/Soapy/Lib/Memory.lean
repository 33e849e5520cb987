import Soapy.Lib.Bytes

/-! # Byte-addressed memory

A buffer is seen from its first byte on. Reads and writes are of whole byte
strings; a write that follows on another one is one longer write.
-/

namespace Soapy.Lib

abbrev Memory := Nat → UInt8

namespace Memory

def load (m : Memory) (offset length : Nat) : Bytes :=
  (List.range length).map (fun i => m (offset + i))

def store (m : Memory) (offset : Nat) (bs : Bytes) : Memory := fun i =>
  if i < offset then m i else bs.getD (i - offset) (m i)

variable {m : Memory}

@[simp] theorem load_length (offset length : Nat) : (m.load offset length).length = length := by
  simp [load]

theorem load_getElem {offset length i : Nat} (inside : i < (m.load offset length).length) :
    (m.load offset length)[i] = m (offset + i) := by
  simp [load]

theorem store_outside {offset i : Nat} {bs : Bytes}
    (outside : i < offset ∨ offset + bs.length ≤ i) : m.store offset bs i = m i := by
  unfold store
  split
  · rfl
  · rw [List.getD_eq_getElem?_getD, List.getElem?_eq_none (by omega), Option.getD_none]

theorem store_inside (m : Memory) (offset : Nat) {i : Nat} {bs : Bytes} (inside : i < bs.length) :
    m.store offset bs (offset + i) = bs[i] := by
  have placed : ¬ offset + i < offset := by omega
  rw [store, if_neg placed, Nat.add_sub_cancel_left, List.getD_eq_getElem?_getD,
    List.getElem?_eq_getElem inside, Option.getD_some]

theorem store_append (offset : Nat) (bs more : Bytes) :
    (m.store offset bs).store (offset + bs.length) more = m.store offset (bs ++ more) := by
  funext i
  by_cases low : i < offset + bs.length
  · rw [store_outside (Or.inl low)]
    by_cases before : i < offset
    · rw [store_outside (Or.inl before), store_outside (Or.inl before)]
    · obtain ⟨j, rfl⟩ := Nat.exists_eq_add_of_le (Nat.le_of_not_lt before)
      have inside : j < bs.length := by omega
      rw [store_inside _ _ inside, store_inside _ _ (by rw [List.length_append]; omega),
        List.getElem_append_left inside]
  · obtain ⟨j, rfl⟩ := Nat.exists_eq_add_of_le (Nat.le_of_not_lt low)
    by_cases inside : j < more.length
    · have place : offset + bs.length + j = offset + (bs.length + j) := Nat.add_assoc ..
      rw [store_inside _ _ inside, place,
        store_inside _ _ (by rw [List.length_append]; omega), List.getElem_append_right (by omega)]
      simp
    · rw [store_outside (Or.inr (by omega)), store_outside (Or.inr (by omega)),
        store_outside (Or.inr (by rw [List.length_append]; omega))]

theorem load_store (m : Memory) (offset skip length : Nat) (bs : Bytes)
    (inside : skip + length ≤ bs.length) :
    (m.store offset bs).load (offset + skip) length = (bs.drop skip).take length := by
  apply List.ext_getElem
  · rw [load_length, List.length_take, List.length_drop]
    omega
  · intro i left _
    rw [load_length] at left
    have here : skip + i < bs.length := by omega
    have found := store_inside m offset here
    rw [← Nat.add_assoc] at found
    simp only [load, List.getElem_map, List.getElem_range, List.getElem_take, List.getElem_drop]
    exact found

theorem load_store_disjoint {offset place length : Nat} {bs : Bytes}
    (disjoint : place + length ≤ offset ∨ offset + bs.length ≤ place) :
    (m.store offset bs).load place length = m.load place length := by
  apply List.map_congr_left
  intro i inside
  have small : i < length := List.mem_range.mp inside
  exact store_outside (by omega)

theorem load_drop (offset length skip : Nat) :
    (m.load offset length).drop skip = m.load (offset + skip) (length - skip) := by
  apply List.ext_getElem
  · simp only [List.length_drop, load_length]
  · intro i _ _
    simp only [load, List.getElem_drop, List.getElem_map, List.getElem_range, Nat.add_assoc]

theorem load_take {offset length count : Nat} (fewer : count ≤ length) :
    (m.load offset length).take count = m.load offset count := by
  apply List.ext_getElem
  · simp only [List.length_take, load_length]
    omega
  · intro i _ _
    simp only [load, List.getElem_take, List.getElem_map, List.getElem_range]

theorem load_add (m : Memory) (offset length more : Nat) :
    m.load offset (length + more) = m.load offset length ++ m.load (offset + length) more := by
  simp only [load, List.range_add, List.map_append, List.map_map, Function.comp_def, Nat.add_assoc]

theorem load_part {m m' : Memory} {offset length : Nat} (same : m.load offset length = m'.load offset length)
    {skip count : Nat} (inside : skip + count ≤ length) :
    m.load (offset + skip) count = m'.load (offset + skip) count := by
  have fewer : count ≤ length - skip := by omega
  rw [← load_take fewer, ← load_take fewer, ← load_drop, ← load_drop, same]

theorem load_one (m : Memory) (offset : Nat) : m.load offset 1 = [m offset] := rfl

theorem load_store_behind (m : Memory) (offset : Nat) (bs : Bytes) :
    (m.store offset bs).load 0 (offset + bs.length) = m.load 0 offset ++ bs := by
  have stored := load_store m offset 0 bs.length bs (by omega)
  rw [Nat.add_zero, List.drop_zero, List.take_length] at stored
  rw [load_add, Nat.zero_add, stored, load_store_disjoint (Or.inl (by omega))]

theorem load_store_front (m : Memory) {length : Nat} {bs : Bytes} (long : length ≤ bs.length) :
    (m.store 0 bs).load 0 length = bs.take length := by
  have stored := load_store m 0 0 length bs (by omega)
  rwa [Nat.add_zero, List.drop_zero] at stored

section Each

def storeEach (m : Memory) (place : Nat → Nat) (contents : Nat → Bytes) : Nat → Memory
  | 0 => m
  | n + 1 => (m.storeEach place contents n).store (place n) (contents n)

variable {place : Nat → Nat} {contents : Nat → Bytes} {n offset length : Nat}

theorem load_storeEach_apart (apart : ∀ j < n,
      offset + length ≤ place j ∨ place j + (contents j).length ≤ offset) :
    (m.storeEach place contents n).load offset length = m.load offset length := by
  induction n with
  | zero => rfl
  | succ n ih =>
    rw [storeEach, load_store_disjoint (apart n (Nat.lt_succ_self n))]
    exact ih fun j below => apart j (Nat.lt_succ_of_lt below)

theorem load_storeEach {i : Nat} (small : i < n) (inside : length ≤ (contents i).length)
    (apart : ∀ j < n, j ≠ i →
      place i + length ≤ place j ∨ place j + (contents j).length ≤ place i) :
    (m.storeEach place contents n).load (place i) length = (contents i).take length := by
  induction n with
  | zero => cases small
  | succ n ih =>
    rw [storeEach]
    by_cases last : i = n
    · rw [← last]
      have stored := load_store (m.storeEach place contents i) (place i) 0 length (contents i)
        (by omega)
      rwa [Nat.add_zero, List.drop_zero] at stored
    · rw [load_store_disjoint (apart n (Nat.lt_succ_self n) fun same => last same.symm)]
      exact ih (by omega) fun j below => apart j (Nat.lt_succ_of_lt below)

end Each

end Memory

end Soapy.Lib
