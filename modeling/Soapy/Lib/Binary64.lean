import Mathlib

/-! # Binary64 numbers by mantissa and exponent

A finite binary64 number is kept as the pair that `frexp` and a scaling of the
fraction by `2 ^ 53` split it into, so its value is `man * 2 ^ (exp - 53)`.
The two zeros are one value here. `scale` is the rounding (nearest, ties to
even) that `ldexp` and the conversion from an integer perform.
-/

namespace Soapy.Lib

/-- `man * 2 ^ (exp - 53)` is representable and the mantissa is normalized: 53
    significant bits, of which a subnormal number leaves the low ones zero. -/
def Canonical (man exp : Int) : Prop :=
  (man = 0 ∧ exp = 0) ∨
    (2 ^ 52 ≤ man.natAbs ∧ man.natAbs < 2 ^ 53 ∧ -1073 ≤ exp ∧ exp ≤ 1024 ∧
      2 ^ (-1021 - exp).toNat ∣ man.natAbs)

instance (man exp : Int) : Decidable (Canonical man exp) :=
  inferInstanceAs (Decidable (_ ∨ _))

structure Finite64 where
  man : Int
  exp : Int
  canonical : Canonical man exp
  deriving DecidableEq

inductive Double where
  | finite (x : Finite64)
  | inf (negative : Bool)
  | nan
  deriving DecidableEq

namespace Double

def zero : Double := .finite ⟨0, 0, .inl ⟨rfl, rfl⟩⟩

/-- `n / d` to the nearest integer, ties to the even one. -/
def roundHalfEven (n d : Nat) : Nat :=
  if 2 * (n % d) < d then n / d
  else if d < 2 * (n % d) then n / d + 1
  else if n / d % 2 = 0 then n / d else n / d + 1

/-- The number of `n` units of `2 ^ ulp`; what is too large becomes infinite. -/
def ofUnits (negative : Bool) (n : Nat) (ulp : Int) : Double :=
  if n = 0 then zero
  else
    let bits := n.log2 + 1
    let magnitude : Int := (n * 2 ^ 53 / 2 ^ bits : Nat)
    let man := if negative then -magnitude else magnitude
    if h : Canonical man (ulp + bits) then .finite ⟨man, ulp + bits, h⟩ else .inf negative

/-- `man * 2 ^ exp`, rounded. The unit in the last place is set by the 53 bits
    of the mantissa and is never below the smallest subnormal number. -/
def scale (man exp : Int) : Double :=
  if man = 0 then zero
  else
    let ulp := max (man.natAbs.log2 + 1 + exp - 53) (-1074)
    let n :=
      if ulp ≤ exp then man.natAbs * 2 ^ (exp - ulp).toNat
      else roundHalfEven man.natAbs (2 ^ (ulp - exp).toNat)
    ofUnits (decide (man < 0)) n ulp

/-- `double(man)` for an integer. -/
def ofInt (man : Int) : Double := scale man 0

def ldexp : Double → Int → Double
  | .finite x, k => scale x.man (x.exp - 53 + k)
  | .inf negative, _ => .inf negative
  | .nan, _ => .nan

/-- The exponent of `frexp`, and its fraction times `2 ^ 53` as an integer. Outside the finite
    numbers, where the conversion is undefined, this is the value x86-64 produces. -/
def split : Double → Int × Int
  | .finite x => (x.exp, x.man)
  | _ => (0, -2 ^ 63)

def IsFinite : Double → Prop
  | .finite _ => True
  | _ => False

instance : DecidablePred IsFinite
  | .finite _ => .isTrue trivial
  | .inf _ => .isFalse id
  | .nan => .isFalse id

end Double

theorem Canonical.log2_natAbs {man exp : Int} (h : Canonical man exp) (nonzero : man ≠ 0) :
    man.natAbs.log2 = 52 := by
  rcases h with ⟨zero, _⟩ | ⟨low, high, _⟩
  · exact absurd zero nonzero
  · exact (Nat.log2_eq_iff (by omega)).mpr ⟨low, high⟩

namespace Double

theorem roundHalfEven_of_dvd {n d : Nat} (positive : 0 < d) (h : d ∣ n) :
    roundHalfEven n d = n / d := by
  have exact : n % d = 0 := Nat.mod_eq_zero_of_dvd h
  rw [roundHalfEven, exact, if_pos (by omega)]

/-- Normalizing the units of a canonical number, `d` bits of which lie below
    the unit, gives the number back. -/
theorem ofUnits_canonical {man exp : Int} (h : Canonical man exp) (nonzero : man ≠ 0)
    (d : Nat) (divides : 2 ^ d ∣ man.natAbs) :
    ofUnits (decide (man < 0)) (man.natAbs / 2 ^ d) (exp - 53 + d) =
      .finite ⟨man, exp, h⟩ := by
  obtain ⟨n, hn⟩ := divides
  have positive : 0 < 2 ^ d := Nat.two_pow_pos d
  have quotient : man.natAbs / 2 ^ d = n := by rw [hn, Nat.mul_div_cancel_left n positive]
  have npos : n ≠ 0 := by
    rintro rfl
    exact nonzero (Int.natAbs_eq_zero.mp (by simpa using hn))
  have hbits : n.log2 + d = 52 := by
    have hlog := h.log2_natAbs nonzero
    rw [hn] at hlog
    have shifted : (2 ^ d * n).log2 = n.log2 + d := by
      have low := Nat.log2_self_le npos
      have high := Nat.lt_log2_self (n := n)
      refine (Nat.log2_eq_iff (Nat.mul_ne_zero positive.ne' npos)).mpr ⟨?_, ?_⟩
      · rw [pow_add, Nat.mul_comm]
        exact Nat.mul_le_mul_left _ low
      · rw [Nat.add_right_comm, pow_add, Nat.mul_comm (2 ^ (n.log2 + 1))]
        exact Nat.mul_lt_mul_of_pos_left high positive
    omega
  have magnitude : n * 2 ^ 53 / 2 ^ (n.log2 + 1) = man.natAbs := by
    have exponent : 53 = (n.log2 + 1) + d := by omega
    have split : n * 2 ^ 53 = 2 ^ (n.log2 + 1) * (2 ^ d * n) := by
      calc n * 2 ^ 53 = n * 2 ^ ((n.log2 + 1) + d) := by rw [← exponent]
        _ = 2 ^ (n.log2 + 1) * (2 ^ d * n) := by rw [pow_add]; ring
    rw [split, Nat.mul_div_cancel_left _ (Nat.two_pow_pos _), hn]
  have signed : (if decide (man < 0) = true then -((man.natAbs : Nat) : Int)
      else (man.natAbs : Nat)) = man := by
    by_cases negative : man < 0
    · simp only [negative, decide_true, if_true]
      omega
    · simp only [negative, decide_false, Bool.false_eq_true, if_false]
      omega
  have place : exp - 53 + (d : Int) + ((n.log2 + 1 : Nat) : Int) = exp := by omega
  rw [quotient, ofUnits, if_neg npos]
  simp only [magnitude, signed, place]
  rw [dif_pos h]

theorem scale_canonical {man exp : Int} (h : Canonical man exp) :
    scale man (exp - 53) = .finite ⟨man, exp, h⟩ := by
  by_cases nonzero : man = 0
  · rcases h with ⟨rfl, rfl⟩ | ⟨low, _⟩
    · rfl
    · subst nonzero
      simp at low
  have hlog := h.log2_natAbs nonzero
  have divides : 2 ^ (-1021 - exp).toNat ∣ man.natAbs := by
    rcases h with ⟨zero, _⟩ | ⟨_, _, _, _, divides⟩
    · exact absurd zero nonzero
    · exact divides
  have recovered := ofUnits_canonical h nonzero (-1021 - exp).toNat divides
  rw [scale, if_neg nonzero]
  simp only [hlog]
  by_cases subnormal : exp < -1021
  · have ulp : max (((52 : Nat) : Int) + 1 + (exp - 53) - 53) (-1074) = -1074 := by omega
    have shift : ((-1074 : Int) - (exp - 53)).toNat = (-1021 - exp).toNat := by omega
    have place : exp - 53 + ((-1021 - exp).toNat : Int) = -1074 := by omega
    rw [ulp, if_neg (by omega), shift, roundHalfEven_of_dvd (Nat.two_pow_pos _) divides]
    rw [place] at recovered
    exact recovered
  · have ulp : max (((52 : Nat) : Int) + 1 + (exp - 53) - 53) (-1074) = exp - 53 := by omega
    have none : (-1021 - exp).toNat = 0 := by omega
    rw [none] at recovered
    rw [ulp, if_pos (le_refl _), sub_self]
    simpa using recovered

theorem ofInt_canonical {man exp : Int} (h : Canonical man exp) :
    ∃ x : Finite64, ofInt man = .finite x ∧ x.man = man ∧ (man ≠ 0 → x.exp = 53) := by
  by_cases nonzero : man = 0
  · subst nonzero
    exact ⟨⟨0, 0, .inl ⟨rfl, rfl⟩⟩, rfl, rfl, fun h => absurd rfl h⟩
  have whole : Canonical man 53 := by
    rcases h with ⟨zero, _⟩ | ⟨low, high, _⟩
    · exact absurd zero nonzero
    · exact .inr ⟨low, high, by omega, by omega, by simp⟩
  exact ⟨⟨man, 53, whole⟩, scale_canonical whole, rfl, fun _ => rfl⟩

theorem ldexp_split (x : Finite64) :
    ldexp (ofInt x.man) (x.exp - 53) = .finite x := by
  obtain ⟨y, converted, same, place⟩ := ofInt_canonical x.canonical
  rw [converted, ldexp, same]
  by_cases nonzero : x.man = 0
  · obtain ⟨man, exp, h⟩ := x
    subst nonzero
    rcases h with ⟨_, rfl⟩ | ⟨low, _⟩
    · rfl
    · simp at low
  · rw [place nonzero]
    simpa using scale_canonical x.canonical

theorem Canonical_bounds {man exp : Int} (h : Canonical man exp) :
    -2 ^ 53 < man ∧ man < 2 ^ 53 ∧ -1073 ≤ exp ∧ exp ≤ 1024 := by
  rcases h with ⟨rfl, rfl⟩ | ⟨_, high, low, top, _⟩
  · decide
  · omega

end Double

end Soapy.Lib
