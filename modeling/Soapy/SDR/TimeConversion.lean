import Soapy.Lib.Rounding

/-! # Ticks and times

The conversions split a count into whole seconds and a rest. Numbers of type double are rational
here, and a signed integer that does not fit in 64 bits is an overflow.
-/

namespace Soapy.SDR

open Lib

def InRange (x : Int) : Prop := -2 ^ 63 ≤ x ∧ x < 2 ^ 63

instance (x : Int) : Decidable (InRange x) := inferInstanceAs (Decidable (_ ∧ _))

/-- The result of an operation on `long long`, if it has one. -/
def longLong (x : Int) : Option Int := if InRange x then some x else none

def divide (a b : Int) : Option Int := if b = 0 then none else longLong (a.tdiv b)

def ticksToTimeNs (ticks : Int) (rate : ℚ) : Option Int := do
  let ratell ← longLong (truncate rate)
  let full ← divide ticks ratell
  let product ← longLong (full * ratell)
  let err ← longLong (ticks - product)
  let part : ℚ := full * (rate - ratell)
  let frac : ℚ := ((err - part) * 1000000000) / rate
  let seconds ← longLong (full * 1000000000)
  let rounded ← longLong (llround frac)
  longLong (seconds + rounded)

def timeNsToTicks (timeNs : Int) (rate : ℚ) : Option Int := do
  let ratell ← longLong (truncate rate)
  let full ← divide timeNs 1000000000
  let product ← longLong (full * 1000000000)
  let err ← longLong (timeNs - product)
  let part : ℚ := full * (rate - ratell)
  let frac : ℚ := part + (err * rate) / 1000000000
  let seconds ← longLong (full * ratell)
  let rounded ← longLong (llround frac)
  longLong (seconds + rounded)

def secondsNs (ticks : Int) (rate : ℚ) : Int := ticks.tdiv (truncate rate) * 1000000000

def timeOf (ticks : Int) (rate : ℚ) : Int :=
  secondsNs ticks rate + llround (ticks * 1000000000 / rate - secondsNs ticks rate)

def wholeTicks (timeNs : Int) (rate : ℚ) : Int := timeNs.tdiv 1000000000 * truncate rate

def ticksOf (timeNs : Int) (rate : ℚ) : Int :=
  wholeTicks timeNs rate + llround (timeNs * rate / 1000000000 - wholeTicks timeNs rate)

theorem longLong_some {x : Int} (fits : InRange x) : longLong x = some x := if_pos fits

theorem InRange.toward {x y : Int} (fits : InRange y) (toward : Toward y x) : InRange x := by
  unfold InRange Toward at *
  omega

/-- A rate that the functions are promised for. -/
structure TickRate (rate : ℚ) : Prop where
  low : 1 ≤ rate
  high : rate ≤ 1000000000

namespace TickRate

variable {rate : ℚ} (tick : TickRate rate)

include tick

theorem positive : 0 < rate := lt_of_lt_of_le one_pos tick.low

theorem whole_pos : 1 ≤ truncate rate :=
  le_truncate tick.positive.le (by exact_mod_cast tick.low)

theorem whole_le : (truncate rate : ℚ) ≤ rate := truncate_le tick.positive.le

theorem lt_whole : rate < truncate rate + 1 := lt_truncate_add_one tick.positive.le

theorem whole_high : truncate rate ≤ 1000000000 := by
  have bound : (truncate rate : ℚ) ≤ 1000000000 := tick.whole_le.trans tick.high
  exact_mod_cast bound

theorem whole_inRange : InRange (truncate rate) := by
  have low := tick.whole_pos
  have high := tick.whole_high
  constructor <;> omega

omit tick in
theorem small_parts {e h : ℚ} (small : |e| ≤ 1) (half : |h| ≤ 2 ^ 63 * (1 / 2)) :
    InRange (llround (e * 1000000000 - h)) := by
  rw [abs_le] at small half
  have low : (-2 ^ 63 : Int) ≤ llround (e * 1000000000 - h) := by
    apply le_llround
    push_cast
    linarith
  have high : llround (e * 1000000000 - h) ≤ 2 ^ 63 - 1 := by
    apply llround_le
    push_cast
    linarith
  exact ⟨low, by omega⟩

theorem fraction_bounds :
    0 ≤ (rate - truncate rate) / rate ∧ (rate - truncate rate) / rate ≤ 1 / 2 := by
  have low : (1 : ℚ) ≤ truncate rate := by exact_mod_cast tick.whole_pos
  have whole := tick.whole_le
  have above := tick.lt_whole
  constructor
  · exact div_nonneg (by linarith) tick.positive.le
  · rw [div_le_iff₀ tick.positive]
    linarith

theorem frac_inRange {ticks : Int} (fits : InRange (secondsNs ticks rate)) :
    InRange (llround (ticks * 1000000000 / rate - secondsNs ticks rate)) := by
  have positive := tick.positive
  have quotient := tdiv_quotient ticks (b := truncate rate) tick.whole_pos
  have small : |((ticks - ticks.tdiv (truncate rate) * truncate rate : Int) : ℚ) / rate| ≤ 1 := by
    have bound : |((ticks - ticks.tdiv (truncate rate) * truncate rate : Int) : ℚ)| ≤
        truncate rate := by exact_mod_cast quotient.abs_remainder.le
    rw [abs_div, abs_of_pos positive, div_le_one positive]
    exact bound.trans tick.whole_le
  obtain ⟨fraction_low, fraction_high⟩ := tick.fraction_bounds
  have split : (ticks * 1000000000 / rate - secondsNs ticks rate : ℚ) =
      ((ticks - ticks.tdiv (truncate rate) * truncate rate : Int) : ℚ) / rate * 1000000000 -
        secondsNs ticks rate * ((rate - truncate rate) / rate) := by
    unfold secondsNs
    push_cast
    field_simp
    ring
  have seconds : |(secondsNs ticks rate : ℚ)| ≤ 2 ^ 63 := by
    have bound : |secondsNs ticks rate| ≤ 2 ^ 63 := abs_le.mpr ⟨fits.1, fits.2.le⟩
    exact_mod_cast bound
  have half : |(secondsNs ticks rate : ℚ) * ((rate - truncate rate) / rate)| ≤
      2 ^ 63 * (1 / 2) := by
    rw [abs_mul, abs_of_nonneg fraction_low]
    gcongr
  rw [split]
  exact small_parts small half

theorem ticksToTimeNs_eq {ticks : Int} (ticks_fit : InRange ticks)
    (seconds_fit : InRange (secondsNs ticks rate)) :
    ticksToTimeNs ticks rate = longLong (timeOf ticks rate) := by
  have whole_pos : 0 < truncate rate := tick.whole_pos
  have quotient := tdiv_quotient ticks whole_pos
  have product_fits := ticks_fit.toward (quotient.product whole_pos)
  have full_fits : InRange (ticks.tdiv (truncate rate)) := by
    have toward : Toward (ticks.tdiv (truncate rate) * truncate rate)
        (ticks.tdiv (truncate rate) * 1) := toward_mul zero_le_one tick.whole_pos
    rw [mul_one] at toward
    exact product_fits.toward toward
  have err_fits := ticks_fit.toward (quotient.remainder whole_pos)
  have frac : (((ticks - ticks.tdiv (truncate rate) * truncate rate : Int) : ℚ) -
      (ticks.tdiv (truncate rate) : Int) * (rate - truncate rate)) * 1000000000 / rate =
        ticks * 1000000000 / rate - secondsNs ticks rate := by
    have positive := tick.positive
    unfold secondsNs
    push_cast
    field_simp
    ring
  have seconds : longLong (ticks.tdiv (truncate rate) * 1000000000) =
      some (secondsNs ticks rate) := longLong_some seconds_fit
  have rounded := longLong_some (tick.frac_inRange seconds_fit)
  unfold ticksToTimeNs divide
  simp only [longLong_some tick.whole_inRange, if_neg whole_pos.ne', longLong_some full_fits,
    longLong_some product_fits, longLong_some err_fits, frac, seconds, rounded,
    Option.bind_eq_bind, Option.bind_some]
  rfl

theorem ticksOf_toward (timeNs : Int) : Toward timeNs (ticksOf timeNs rate) := by
  have whole_pos : 0 ≤ truncate rate := by
    have low := tick.whole_pos
    omega
  have quotient := tdiv_quotient timeNs (b := 1000000000) (by norm_num)
  have whole : Toward timeNs (wholeTicks timeNs rate) :=
    (quotient.product (by norm_num)).trans (toward_mul whole_pos tick.whole_high)
  have positive := tick.positive
  have high := tick.high
  unfold ticksOf
  generalize wholeTicks timeNs rate = w at whole
  rcases le_total 0 timeNs with nonneg | nonpos
  · have time : (0 : ℚ) ≤ timeNs := by exact_mod_cast nonneg
    have product : (timeNs : ℚ) * rate ≤ timeNs * 1000000000 :=
      mul_le_mul_of_nonneg_left high time
    have low : -w ≤ llround (timeNs * rate / 1000000000 - w) := by
      apply le_llround
      have ticks : (0 : ℚ) ≤ timeNs * rate / 1000000000 := by positivity
      push_cast
      linarith
    have above : llround (timeNs * rate / 1000000000 - w) ≤ timeNs - w := by
      apply llround_le
      push_cast
      linarith
    unfold Toward at *
    omega
  · have time : (timeNs : ℚ) ≤ 0 := by exact_mod_cast nonpos
    have product : (timeNs : ℚ) * 1000000000 ≤ timeNs * rate :=
      mul_le_mul_of_nonpos_left high time
    have low : timeNs - w ≤ llround (timeNs * rate / 1000000000 - w) := by
      apply le_llround
      push_cast
      linarith
    have above : llround (timeNs * rate / 1000000000 - w) ≤ -w := by
      apply llround_le
      have ticks : (timeNs : ℚ) * rate ≤ 0 := mul_nonpos_of_nonpos_of_nonneg time positive.le
      push_cast
      linarith
    unfold Toward at *
    omega

theorem rest_inRange {timeNs : Int} (fits : InRange timeNs) :
    InRange (llround (timeNs * rate / 1000000000 - wholeTicks timeNs rate)) := by
  have quotient := tdiv_quotient timeNs (b := 1000000000) (by norm_num)
  have positive := tick.positive
  have high := tick.high
  have whole_le := tick.whole_le
  have lt_whole := tick.lt_whole
  have split : (timeNs * rate / 1000000000 - wholeTicks timeNs rate : ℚ) =
      (timeNs.tdiv 1000000000 : Int) * (rate - truncate rate) +
        ((timeNs - timeNs.tdiv 1000000000 * 1000000000 : Int) : ℚ) * (rate / 1000000000) := by
    unfold wholeTicks
    push_cast
    field_simp
    ring
  have seconds : |timeNs.tdiv 1000000000| ≤ 2 ^ 34 := by
    have product := fits.toward (quotient.product (by norm_num))
    unfold InRange at product
    rw [abs_le]
    constructor <;> omega
  have part : |((timeNs.tdiv 1000000000 : Int) : ℚ) * (rate - truncate rate)| ≤ 2 ^ 34 * 1 := by
    have bound : |((timeNs.tdiv 1000000000 : Int) : ℚ)| ≤ 2 ^ 34 := by exact_mod_cast seconds
    have fraction : |rate - truncate rate| ≤ 1 := abs_le.mpr ⟨by linarith, by linarith⟩
    rw [abs_mul]
    gcongr
  have rest : |((timeNs - timeNs.tdiv 1000000000 * 1000000000 : Int) : ℚ) *
      (rate / 1000000000)| ≤ 1000000000 * 1 := by
    have bound : |((timeNs - timeNs.tdiv 1000000000 * 1000000000 : Int) : ℚ)| ≤ 1000000000 := by
      exact_mod_cast quotient.abs_remainder.le
    have scale : |rate / 1000000000| ≤ 1 := by
      rw [abs_div, abs_of_pos positive, abs_of_pos (by norm_num), div_le_one (by norm_num)]
      exact high
    rw [abs_mul]
    gcongr
  rw [split]
  generalize ((timeNs.tdiv 1000000000 : Int) : ℚ) * (rate - truncate rate) = p at part
  generalize ((timeNs - timeNs.tdiv 1000000000 * 1000000000 : Int) : ℚ) * (rate / 1000000000) = r
    at rest
  rw [abs_le] at part rest
  have low : (-2 ^ 63 : Int) ≤ llround (p + r) := by
    apply le_llround
    push_cast
    linarith
  have above : llround (p + r) ≤ 2 ^ 63 - 1 := by
    apply llround_le
    push_cast
    linarith
  exact ⟨low, by omega⟩

theorem timeNsToTicks_eq {timeNs : Int} (fits : InRange timeNs) :
    timeNsToTicks timeNs rate = some (ticksOf timeNs rate) := by
  have whole_pos : 0 ≤ truncate rate := by
    have low := tick.whole_pos
    omega
  have quotient := tdiv_quotient timeNs (b := 1000000000) (by norm_num)
  have product_fits := fits.toward (quotient.product (by norm_num))
  have full_fits : InRange (timeNs.tdiv 1000000000) := by
    have toward : Toward (timeNs.tdiv 1000000000 * 1000000000) (timeNs.tdiv 1000000000 * 1) :=
      toward_mul zero_le_one (by norm_num)
    rw [mul_one] at toward
    exact product_fits.toward toward
  have err_fits := fits.toward (quotient.remainder (by norm_num))
  have ticks_fit : InRange (wholeTicks timeNs rate) :=
    product_fits.toward (toward_mul whole_pos tick.whole_high)
  have frac : ((timeNs.tdiv 1000000000 : Int) : ℚ) * (rate - truncate rate) +
      ((timeNs - timeNs.tdiv 1000000000 * 1000000000 : Int) : ℚ) * rate / 1000000000 =
        timeNs * rate / 1000000000 - wholeTicks timeNs rate := by
    unfold wholeTicks
    push_cast
    field_simp
    ring
  have ticks : longLong (timeNs.tdiv 1000000000 * truncate rate) =
      some (wholeTicks timeNs rate) := longLong_some ticks_fit
  have rounded := longLong_some (tick.rest_inRange fits)
  have sum := longLong_some (fits.toward (tick.ticksOf_toward timeNs))
  have divisor : (1000000000 : Int) ≠ 0 := by norm_num
  unfold timeNsToTicks divide
  simp only [longLong_some tick.whole_inRange, if_neg divisor, longLong_some full_fits,
    longLong_some product_fits, longLong_some err_fits, frac, ticks, rounded,
    Option.bind_eq_bind, Option.bind_some]
  exact sum

omit tick in
theorem abs_split_sub_le (m : Int) (x : ℚ) : |((m + llround (x - m) : Int) : ℚ) - x| ≤ 1 / 2 := by
  have error := abs_llround_sub_le (x - m)
  have same : ((m + llround (x - m) : Int) : ℚ) - x = (llround (x - m) : ℚ) - (x - m) := by
    push_cast
    ring
  rw [same]
  exact error

omit tick in
theorem split_eq {m n : Int} {x : ℚ} (near : |x - n| < 1 / 2) : m + llround (x - m) = n := by
  have rest : llround (x - m) = n - m := by
    apply llround_eq
    have same : x - m - ((n - m : Int) : ℚ) = x - n := by
      push_cast
      ring
    rw [same]
    exact near
  omega

theorem timeOf_near (ticks : Int) :
    |(timeOf ticks rate : ℚ) * rate / 1000000000 - ticks| < 1 / 2 := by
  have positive := tick.positive
  rcases tick.high.lt_or_eq with slower | same
  · have error : |(timeOf ticks rate : ℚ) - ticks * 1000000000 / rate| ≤ 1 / 2 :=
      abs_split_sub_le (secondsNs ticks rate) (ticks * 1000000000 / rate)
    have scaled : (timeOf ticks rate : ℚ) * rate / 1000000000 - ticks =
        (timeOf ticks rate - ticks * 1000000000 / rate) * (rate / 1000000000) := by
      field_simp
    have scale : rate / 1000000000 < 1 := (div_lt_one (by norm_num)).mpr slower
    have scale_pos : 0 < rate / 1000000000 := by positivity
    rw [scaled, abs_mul, abs_of_pos scale_pos]
    calc |(timeOf ticks rate : ℚ) - ticks * 1000000000 / rate| * (rate / 1000000000)
        ≤ 1 / 2 * (rate / 1000000000) := by gcongr
      _ < 1 / 2 * 1 := by gcongr
      _ = 1 / 2 := mul_one _
  · have exact_time : (ticks : ℚ) * 1000000000 / rate = ticks := by
      rw [same]
      field_simp
    have time : timeOf ticks rate = ticks := by
      rw [timeOf, exact_time]
      apply split_eq
      rw [sub_self, abs_zero]
      norm_num
    have back : (ticks : ℚ) * rate / 1000000000 = ticks := by
      rw [same]
      field_simp
    rw [time, back, sub_self, abs_zero]
    norm_num

theorem ticksOf_timeOf (ticks : Int) : ticksOf (timeOf ticks rate) rate = ticks :=
  split_eq (tick.timeOf_near ticks)

theorem timeOf_ticksOf (timeNs : Int) :
    |(timeOf (ticksOf timeNs rate) rate : ℚ) - timeNs| ≤ 1000000000 / (2 * rate) + 1 / 2 := by
  have positive := tick.positive
  have ticks_error : |(ticksOf timeNs rate : ℚ) - timeNs * rate / 1000000000| ≤ 1 / 2 :=
    abs_split_sub_le (wholeTicks timeNs rate) (timeNs * rate / 1000000000)
  generalize ticksOf timeNs rate = ticks at ticks_error
  have time_error : |(timeOf ticks rate : ℚ) - ticks * 1000000000 / rate| ≤ 1 / 2 :=
    abs_split_sub_le (secondsNs ticks rate) (ticks * 1000000000 / rate)
  have split : (timeOf ticks rate : ℚ) - timeNs =
      (timeOf ticks rate - ticks * 1000000000 / rate) +
        (ticks - timeNs * rate / 1000000000) * (1000000000 / rate) := by
    field_simp
    ring
  have scale_pos : 0 < 1000000000 / rate := by positivity
  rw [split]
  calc _ ≤ |(timeOf ticks rate : ℚ) - ticks * 1000000000 / rate| +
          |((ticks : ℚ) - timeNs * rate / 1000000000) * (1000000000 / rate)| := abs_add_le _ _
    _ ≤ 1 / 2 + 1 / 2 * (1000000000 / rate) := by
        rw [abs_mul, abs_of_pos scale_pos]
        gcongr
    _ = 1000000000 / (2 * rate) + 1 / 2 := by
        field_simp
        ring

end TickRate

/-- A tick count comes back from its time where its nanoseconds fit. A time never overflows on the
    way to ticks, and comes back within half a tick and half a nanosecond where the nanoseconds of
    its ticks fit. -/
theorem conversions_loop_back (rate : ℚ) (low : 1 ≤ rate) (high : rate ≤ 1000000000) :
    (∀ ticks, InRange ticks → InRange (secondsNs ticks rate) → InRange (timeOf ticks rate) →
      ∃ timeNs, ticksToTimeNs ticks rate = some timeNs ∧
        timeNsToTicks timeNs rate = some ticks) ∧
    ∀ timeNs, InRange timeNs → ∃ ticks, timeNsToTicks timeNs rate = some ticks ∧
      (InRange (secondsNs ticks rate) → InRange (timeOf ticks rate) →
        ∃ timeNs', ticksToTimeNs ticks rate = some timeNs' ∧
          |(timeNs' - timeNs : ℚ)| ≤ 1000000000 / (2 * rate) + 1 / 2) := by
  have tick : TickRate rate := ⟨low, high⟩
  constructor
  · intro ticks ticks_fit seconds_fit time_fit
    refine ⟨timeOf ticks rate, ?_, ?_⟩
    · rw [tick.ticksToTimeNs_eq ticks_fit seconds_fit, longLong_some time_fit]
    · rw [tick.timeNsToTicks_eq time_fit, tick.ticksOf_timeOf]
  · intro timeNs fits
    refine ⟨ticksOf timeNs rate, tick.timeNsToTicks_eq fits, ?_⟩
    intro seconds_fit time_fit
    have ticks_fit := fits.toward (tick.ticksOf_toward timeNs)
    refine ⟨timeOf (ticksOf timeNs rate) rate, ?_, tick.timeOf_ticksOf timeNs⟩
    rw [tick.ticksToTimeNs_eq ticks_fit seconds_fit, longLong_some time_fit]

theorem third_of_a_rate : ∃ timeNs, ticksToTimeNs (-7) (100000000 / 3) = some timeNs ∧
    timeNsToTicks timeNs (100000000 / 3) = some (-7) :=
  (conversions_loop_back (100000000 / 3) (by norm_num) (by norm_num)).1 (-7) (by decide)
    (by decide +kernel) (by decide +kernel)

/-- The whole seconds fit and the time does not, and a time can have ticks whose seconds do not. -/
theorem conversions_overflow :
    (¬ ∀ rate : ℚ, 1 ≤ rate → rate ≤ 1000000000 → ∀ ticks, InRange ticks →
      InRange (secondsNs ticks rate) → ∃ timeNs, ticksToTimeNs ticks rate = some timeNs ∧
        timeNsToTicks timeNs rate = some ticks) ∧
    ¬ ∀ rate : ℚ, 1 ≤ rate → rate ≤ 1000000000 → ∀ timeNs, InRange timeNs →
      ∃ ticks timeNs', timeNsToTicks timeNs rate = some ticks ∧
        ticksToTimeNs ticks rate = some timeNs' ∧
        |(timeNs' - timeNs : ℚ)| ≤ 1000000000 / (2 * rate) + 1 / 2 := by
  constructor
  · intro back
    obtain ⟨timeNs, made, _⟩ := back 10 (by norm_num) (by norm_num) 92233720369 (by decide)
      (by decide +kernel)
    have none : ticksToTimeNs 92233720369 10 = none := by decide +kernel
    rw [none] at made
    cases made
  · intro back
    obtain ⟨ticks, timeNs', made, back, _⟩ := back 1 (by norm_num) (by norm_num)
      9223372036854775807 (by decide)
    have largest : timeNsToTicks 9223372036854775807 1 = some 9223372037 := by decide +kernel
    have none : ticksToTimeNs 9223372037 1 = none := by decide +kernel
    rw [largest, Option.some.injEq] at made
    rw [← made, none] at back
    cases back

end Soapy.SDR
