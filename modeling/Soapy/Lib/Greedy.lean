import Mathlib

/-! # Greedy expansions

A number is expanded in falling weights: a weight that still fits is taken and its digit is 1.
Where each weight is as large as all behind it together, the digits are the largest whose weights
fit, so a digit string can be compared without expanding.
-/

namespace Soapy.Lib.Greedy

/-- The digits, as a binary number whose highest digit is that of the first weight. -/
def expand : List Nat → Nat → Nat
  | [], _ => 0
  | w :: ws, r => if w ≤ r then 2 ^ ws.length + expand ws (r - w) else expand ws r

/-- What the digits of `s` weigh. -/
def weigh : List Nat → Nat → Nat
  | [], _ => 0
  | w :: ws, s => if 2 ^ ws.length ≤ s then w + weigh ws (s - 2 ^ ws.length) else weigh ws s

/-- Each weight is as large as all behind it. -/
def Dominant : List Nat → Prop
  | [] => True
  | w :: ws => ws.sum ≤ w ∧ Dominant ws

theorem expand_lt (ws : List Nat) (r : Nat) : expand ws r < 2 ^ ws.length := by
  induction ws generalizing r with
  | nil => exact Nat.one_pos
  | cons w ws ih =>
    have taken := ih (r - w)
    have left := ih r
    rw [expand, List.length_cons, Nat.pow_succ]
    split
    · omega
    · omega

theorem weigh_le_sum (ws : List Nat) (s : Nat) : weigh ws s ≤ ws.sum := by
  induction ws generalizing s with
  | nil => exact Nat.le_refl 0
  | cons w ws ih =>
    have taken := ih (s - 2 ^ ws.length)
    have left := ih s
    rw [weigh, List.sum_cons]
    split
    · omega
    · omega

theorem le_expand_iff {ws : List Nat} (dominant : Dominant ws) {r s : Nat}
    (small : s < 2 ^ ws.length) : s ≤ expand ws r ↔ weigh ws s ≤ r := by
  induction ws generalizing r s with
  | nil =>
    obtain rfl : s = 0 := Nat.lt_one_iff.mp small
    simp [weigh]
  | cons w ws ih =>
    obtain ⟨sum, rest⟩ := dominant
    rw [List.length_cons, Nat.pow_succ] at small
    have below := expand_lt ws r
    have lower := weigh_le_sum ws s
    rw [expand, weigh]
    by_cases fits : w ≤ r
    · rw [if_pos fits]
      by_cases digit : 2 ^ ws.length ≤ s
      · have later := @ih rest (r - w) (s - 2 ^ ws.length) (by omega)
        rw [if_pos digit]
        omega
      · rw [if_neg digit]
        omega
    · rw [if_neg fits]
      by_cases digit : 2 ^ ws.length ≤ s
      · rw [if_pos digit]
        omega
      · rw [if_neg digit]
        exact ih rest (by omega)

theorem expand_below {ws : List Nat} {r : Nat} (below : ∀ w ∈ ws, r < w) : expand ws r = 0 := by
  induction ws with
  | nil => rfl
  | cons w ws ih =>
    have first := below w List.mem_cons_self
    rw [expand, if_neg (by omega)]
    exact ih fun v later => below v (List.mem_cons_of_mem w later)

end Soapy.Lib.Greedy
