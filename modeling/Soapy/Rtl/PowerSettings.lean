import Soapy.Rtl.PowerSweep

/-! # The settings of a sweep

The number of hops is the first for which a hop is not too fast. It is found when the span, spread
by the crop, is an `int`, and it is a good one unless bands of a few hertz are spread to the rate of
the device.
-/

namespace Soapy.Rtl.Power

variable {span : Nat} {crop : ℚ}

theorem int_ok {v : Int} (low : -2 ^ 31 ≤ v) (high : v < 2 ^ 31) : int v = .ok v :=
  if_pos ⟨low, high⟩

theorem int_eq_ok {v w : Int} (ok : int v = .ok w) : w = v ∧ -2 ^ 31 ≤ v ∧ v < 2 ^ 31 := by
  unfold int at ok
  split at ok
  · rename_i range
    cases ok
    exact ⟨rfl, range⟩
  · cases ok

theorem int_ne_exited (v : Int) : int v ≠ .error .exited := by
  unfold int
  split <;> nofun

theorem ok_bind {α β : Type} (a : α) (f : α → Except Stop β) : (Except.ok a).bind f = f a := rfl

theorem error_bind {α β : Type} (e : Stop) (f : α → Except Stop β) :
    (Except.error e).bind f = .error e := rfl

theorem bind_eq_ok {α β : Type} {x : Except Stop α} {f : α → Except Stop β} {b : β}
    (ok : x.bind f = .ok b) : ∃ a, x = .ok a ∧ f a = .ok b := by
  cases x with
  | error e => cases ok
  | ok a => exact ⟨a, rfl, ok⟩

theorem bind_ne_exited {α β : Type} {x : Except Stop α} {f : α → Except Stop β}
    (first : x ≠ .error .exited) (later : ∀ a, f a ≠ .error .exited) :
    x.bind f ≠ .error .exited := by
  cases x with
  | error e =>
    intro same
    cases same
    exact first rfl
  | ok a => exact later a

theorem wrap_small {v : Nat} (small : v < 2 ^ 31) : wrap v = v :=
  Int.bmod_eq_of_le (by omega) (by omega)

theorem wrap_high {v : Nat} (large : 2 ^ 31 ≤ v) (high : v < 2 ^ 32) : wrap v = v - 2 ^ 32 := by
  unfold wrap
  rw [Int.bmod_def]
  omega

theorem truncate_of_nonneg {x : ℚ} (nonneg : 0 ≤ x) : truncate x = ⌊x⌋ := if_pos nonneg

theorem truncate_of_neg {x : ℚ} (neg : x < 0) : truncate x = ⌈x⌉ := if_neg (not_le.mpr neg)

/-- `bw_used` for so many hops. -/
def used (span : Nat) (crop : ℚ) (i : Nat) : Int := truncate (wrap (span / i) / (1 - crop))

/-- So many hops are not enough. -/
def Fast (span : Nat) (crop : ℚ) (i : Nat) : Prop :=
  MAXIMUM_RATE < used span crop i ∧ used span crop i < 2 ^ 31

/-- The search stops here: fewer hops are not enough. -/
structure Stops (span : Nat) (crop : ℚ) (k i : Nat) : Prop where
  start : k ≤ i
  fast : ∀ j, k ≤ j → j < i → Fast span crop j
  slow : ¬ Fast span crop i

/-- What the search finds. -/
inductive Found (span : Nat) (crop : ℚ) (h₀ : Hops) (k n : Nat) : Except Stop Hops → Prop where
  | overflow {i} : Stops span crop k i → i < k + n →
      ¬ (-2 ^ 31 ≤ used span crop i ∧ used span crop i < 2 ^ 31) →
      Found span crop h₀ k n (.error .overflow)
  | hops {i} : Stops span crop k i → i < k + n → -2 ^ 31 ≤ used span crop i →
      used span crop i ≤ MAXIMUM_RATE →
      Found span crop h₀ k n (.ok ⟨i, wrap (span / i), used span crop i⟩)
  | none {h} : (∀ j, k ≤ j → j < k + n → Fast span crop j) → h.tune_count = h₀.tune_count →
      (n = 0 → h = h₀) → (0 < n → MAXIMUM_RATE < h.bw_used) →
      Found span crop h₀ k n (.ok h)

variable {i k : Nat}

theorem Stops.after (here : Fast span crop k) (stops : Stops span crop (k + 1) i) :
    Stops span crop k i where
  start := Nat.le_of_succ_le stops.start
  fast j above below := by
    rcases Nat.eq_or_lt_of_le above with rfl | later
    · exact here
    · exact stops.fast j later below
  slow := stops.slow

variable {h : Hops}

theorem Found.after {h₀ : Hops} {n : Nat} {r : Except Stop Hops} (here : Fast span crop k)
    (count : h.tune_count = h₀.tune_count) (rate : MAXIMUM_RATE < h.bw_used)
    (found : Found span crop h (k + 1) n r) : Found span crop h₀ k (n + 1) r := by
  cases found with
  | overflow stops within range => exact .overflow (stops.after here) (by omega) range
  | hops stops within low slow => exact .hops (stops.after here) (by omega) low slow
  | @none h' fast same start last =>
    refine .none (fun j above below => ?_) (same.trans count) (by omega) fun _ => ?_
    · rcases Nat.eq_or_lt_of_le above with rfl | later
      · exact here
      · exact fast j later (by omega)
    · rcases Nat.eq_zero_or_pos n with none | more
      · rw [start none]
        exact rate
      · exact last more

theorem hops_cons (h : Hops) (i : Nat) (rest : List Nat) :
    hops span crop h (i :: rest) = (int (used span crop i)).bind fun bw_used =>
      if bw_used > MAXIMUM_RATE then hops span crop ⟨h.tune_count, wrap (span / i), bw_used⟩ rest
      else .ok ⟨i, wrap (span / i), bw_used⟩ := rfl

variable (span crop) in
theorem hops_found (h₀ : Hops) (k n : Nat) :
    Found span crop h₀ k n (hops span crop h₀ (List.range' k n)) := by
  induction n generalizing k h₀ with
  | zero => exact .none (fun j above below => by omega) rfl (fun _ => rfl) (by omega)
  | succ n ih =>
    rw [List.range'_succ, hops_cons]
    by_cases range : -2 ^ 31 ≤ used span crop k ∧ used span crop k < 2 ^ 31
    · rw [int_ok range.1 range.2, ok_bind]
      by_cases fast : used span crop k > MAXIMUM_RATE
      · rw [if_pos fast]
        exact .after (h := ⟨h₀.tune_count, wrap (span / k), used span crop k⟩) ⟨fast, range.2⟩ rfl
          fast (ih _ (k + 1))
      · rw [if_neg fast]
        exact .hops ⟨Nat.le_refl k, fun j above below => by omega, fun here => fast here.1⟩
          (by omega) range.1 (not_lt.mp fast)
    · rw [int, if_neg range, error_bind]
      refine .overflow (i := k) ⟨Nat.le_refl k, fun j above below => by omega, fun fast => ?_⟩
        (by omega) range
      have above := fast.1
      unfold MAXIMUM_RATE at above
      exact range ⟨by omega, fast.2⟩

section Bins

variable {R D m B : Int} (some_sample : 1 ≤ D) (bound : B < 2 ^ 31)

include some_sample bound

theorem bins_cons (few : 2 ^ k * D ≤ B) (bin_e : Nat) (rest : List Nat) :
    bins R D m bin_e (k :: rest) =
      if (R : ℚ) / (2 ^ k * D) ≤ m then .ok k else bins R D m k rest := by
  have parts : 1 ≤ 2 ^ k * D := one_le_mul_of_one_le_of_one_le (one_le_pow₀ (by decide)) some_sample
  change (int (2 ^ k * D)).bind _ = _
  rw [int_ok (by omega) (by omega), ok_bind, if_neg (by omega)]
  push_cast
  rfl

theorem bins_found (hertz : 1 ≤ m) (rate : 2 * R ≤ B) (bin_e k n : Nat) (few : 2 ^ k * D ≤ B) :
    ∃ e, bins R D m bin_e (List.range' k (n + 1)) = .ok e ∧ e ≤ k + n ∧ 2 ^ e * D ≤ B ∧
      (e < k + n → (R : ℚ) / (2 ^ e * D) ≤ m) := by
  induction n generalizing bin_e k with
  | zero =>
    refine ⟨k, ?_, Nat.le_refl k, few, fun below => absurd below (Nat.lt_irrefl k)⟩
    rw [List.range'_succ, bins_cons some_sample bound few]
    exact ite_self _
  | succ n ih =>
    rw [List.range'_succ, bins_cons some_sample bound few]
    by_cases narrow : (R : ℚ) / (2 ^ k * D) ≤ m
    · rw [if_pos narrow]
      exact ⟨k, rfl, Nat.le_add_right k _, few, fun _ => narrow⟩
    · have some_part : (0 : ℚ) < 2 ^ k * D := by
        have some_sample : (1 : ℚ) ≤ D := by exact_mod_cast some_sample
        positivity
      have wide : m * (2 ^ k * D) < R := by
        have wide := (lt_div_iff₀ some_part).mp (not_le.mp narrow)
        exact_mod_cast wide
      have most : 2 ^ k * D ≤ m * (2 ^ k * D) :=
        le_mul_of_one_le_left (by positivity) hertz
      obtain ⟨e, found, within, fits, bin⟩ := ih k (k + 1) (by rw [pow_succ]; linarith)
      rw [if_neg narrow]
      exact ⟨e, found, by omega, fits, fun below => bin (by omega)⟩

end Bins

theorem three_of_ratio {j : Nat} (start : 1 ≤ j) (seen : 1 ≤ span / (j + 1))
    (ratio : 14 * (span / (j + 1)) < 5 * (span / j)) : span = 3 ∧ j = 1 := by
  have most : j * (span / j) ≤ span := Nat.mul_div_le span j
  have least : span < (j + 1) * (span / (j + 1) + 1) := Nat.lt_mul_div_succ span (by omega)
  generalize span / (j + 1) = q at *
  generalize span / j = q₁ at *
  have scaled : j * (14 * q + 1) ≤ j * (5 * q₁) := Nat.mul_le_mul_left j ratio
  have one : q = 1 := by
    by_contra more
    have two : 2 ≤ q := by omega
    nlinarith
  subst one
  have first : j = 1 := by
    by_contra more
    have two : 2 ≤ j := by omega
    nlinarith
  subst first
  omega

section Small

variable (small : span < 2 ^ 31) (some_left : crop < 1)

include small some_left

theorem used_small (i : Nat) : used span crop i = ⌊((span / i : Nat) : ℚ) / (1 - crop)⌋ := by
  have seen : wrap (span / i) = (span / i : Nat) :=
    wrap_small (Nat.lt_of_le_of_lt (Nat.div_le_self span i) small)
  have left : (0 : ℚ) < 1 - crop := by linarith
  rw [used, seen, truncate_of_nonneg (by positivity), Int.cast_natCast]

theorem used_nonneg (i : Nat) : 0 ≤ used span crop i := by
  have left : (0 : ℚ) < 1 - crop := by linarith
  rw [used_small small some_left, Int.floor_nonneg]
  positivity

theorem used_anti {j : Nat} (start : 1 ≤ i) (more : i ≤ j) :
    used span crop j ≤ used span crop i := by
  have left : (0 : ℚ) < 1 - crop := by linarith
  have fewer : ((span / j : Nat) : ℚ) ≤ (span / i : Nat) :=
    Nat.cast_le.mpr (Nat.div_le_div_left more start)
  rw [used_small small some_left, used_small small some_left]
  exact Int.floor_le_floor (div_le_div_of_nonneg_right fewer left.le)

theorem used_767 (spread : span / (1 - crop) < 2 ^ 31) : used span crop 767 ≤ MAXIMUM_RATE := by
  have left : (0 : ℚ) < 1 - crop := by linarith
  have share : ((span / 767 : Nat) : ℚ) ≤ span / 767 := Nat.cast_div_le
  have slow : ((span / 767 : Nat) : ℚ) / (1 - crop) < 2800000 := by
    calc ((span / 767 : Nat) : ℚ) / (1 - crop)
        ≤ (span / 767) / (1 - crop) := div_le_div_of_nonneg_right share left.le
      _ = span / (1 - crop) / 767 := by ring
      _ < 2 ^ 31 / 767 := by linarith
      _ < 2800000 := by norm_num
  rw [used_small small some_left]
  exact (Int.floor_lt.mpr (by exact_mod_cast slow)).le

theorem hops_small (spread : span / (1 - crop) < 2 ^ 31) :
    ∃ k, Stops span crop 1 k ∧ k ≤ 767 ∧ used span crop k ≤ MAXIMUM_RATE ∧
      hops span crop ⟨0, 0, 0⟩ (List.range' 1 1499) =
        .ok ⟨k, wrap (span / k), used span crop k⟩ := by
  have enough := used_767 small some_left spread
  have most : used span crop 1 < 2 ^ 31 := by
    rw [used_small small some_left, Nat.div_one]
    exact Int.floor_lt.mpr (by exact_mod_cast spread)
  have found := hops_found span crop ⟨0, 0, 0⟩ 1 1499
  generalize hops span crop ⟨0, 0, 0⟩ (List.range' 1 1499) = r at found ⊢
  cases found with
  | @overflow i stops within range =>
    have nonneg := used_nonneg small some_left i
    have below := used_anti small some_left (Nat.le_refl 1) stops.start
    exact absurd ⟨by omega, by omega⟩ range
  | @hops i stops within low slow =>
    refine ⟨i, stops, ?_, slow, rfl⟩
    by_contra more
    exact absurd (stops.fast 767 (by omega) (by omega)).1 (not_lt.mpr enough)
  | none fast same start last =>
    exact absurd (fast 767 (by omega) (by omega)).1 (not_lt.mpr enough)

theorem lt_of_used {v : Int} (below : used span crop i < v) :
    ((span / i : Nat) : ℚ) * (1 / (1 - crop)) < v := by
  rw [mul_one_div]
  rw [used_small small some_left] at below
  exact Int.floor_lt.mp below

theorem le_of_used {v : Int} (above : v ≤ used span crop i) :
    v ≤ ((span / i : Nat) : ℚ) * (1 / (1 - crop)) := by
  rw [mul_one_div]
  rw [used_small small some_left] at above
  exact Int.le_floor.mp above

theorem used_lt {v : Int} (below : ((span / i : Nat) : ℚ) * (1 / (1 - crop)) < v) :
    used span crop i < v := by
  rw [mul_one_div] at below
  rw [used_small small some_left]
  exact Int.floor_lt.mpr below

theorem le_used {v : Int} (above : v ≤ ((span / i : Nat) : ℚ) * (1 / (1 - crop))) :
    v ≤ used span crop i := by
  rw [mul_one_div] at above
  rw [used_small small some_left]
  exact Int.le_floor.mpr above

theorem seen_pos (stops : Stops span crop 1 k) (some_hertz : 1 ≤ span)
    (hertz : 1 / (1 - crop) < 2800001) : 1 ≤ span / k := by
  by_contra none
  have fewer : span < k := by
    by_contra more
    exact none (Nat.div_pos (by omega) stops.start)
  have fast := stops.fast (k - 1) (by omega) (by omega)
  have left : (0 : ℚ) < 1 / (1 - crop) := one_div_pos.mpr (by linarith)
  have one : ((span / (k - 1) : Nat) : ℚ) ≤ 1 := by
    have bound : span / (k - 1) ≤ 1 := Nat.div_le_of_le_mul (by omega)
    exact_mod_cast bound
  have slow : used span crop (k - 1) < 2800001 := by
    refine used_lt small some_left ?_
    calc ((span / (k - 1) : Nat) : ℚ) * (1 / (1 - crop)) ≤ 1 * (1 / (1 - crop)) :=
          mul_le_mul_of_nonneg_right one left.le
      _ < ((2800001 : Int) : ℚ) := by rw [one_mul]; exact_mod_cast hertz
  have above := fast.1
  unfold MAXIMUM_RATE at above
  omega

omit small in
theorem one_le_spread (nonneg : 0 ≤ crop) : 1 ≤ 1 / (1 - crop) := by
  rw [le_div_iff₀ (by linarith)]
  linarith

theorem seen_le_used (nonneg : 0 ≤ crop) (k : Nat) : ((span / k : Nat) : Int) ≤ used span crop k := by
  refine le_used small some_left ?_
  have spread := one_le_spread some_left nonneg
  have seen : (0 : ℚ) ≤ (span / k : Nat) := Nat.cast_nonneg _
  rw [Int.cast_natCast]
  exact le_mul_of_one_le_right seen spread

theorem not_cut (stops : Stops span crop 1 k) (seen : 1 ≤ span / k)
    (slow : used span crop k < MINIMUM_RATE)
    (three : ¬ (span = 3 ∧ 2800001 ≤ 3 * (1 / (1 - crop)) ∧ 1 / (1 - crop) < 1000000)) : k = 1 := by
  by_contra cut
  have start := stops.start
  obtain ⟨j, rfl⟩ : ∃ j, k = j + 1 := ⟨k - 1, by omega⟩
  have fast := (stops.fast j (by omega) (by omega)).1
  have spread : (0 : ℚ) < 1 / (1 - crop) := one_div_pos.mpr (by linarith)
  have above := le_of_used small some_left (i := j) (v := 2800001) fast
  have below := lt_of_used small some_left slow
  unfold MINIMUM_RATE at below
  push_cast at above below
  have ratio : 14 * (span / (j + 1)) < 5 * (span / j) := by
    have product : (14 * (span / (j + 1) : Nat) : ℚ) * (1 / (1 - crop)) <
        (5 * (span / j : Nat) : ℚ) * (1 / (1 - crop)) := by linarith
    exact_mod_cast lt_of_mul_lt_mul_right product spread.le
  obtain ⟨rfl, rfl⟩ := three_of_ratio (by omega) seen ratio
  norm_num at above below
  exact three ⟨rfl, by rwa [one_div], by rwa [one_div]⟩

end Small

/-- The spread span is no product of the device's rate with a power of two, up to the fraction that
is cut off. -/
def Rounds (span : Nat) (crop : ℚ) : Prop :=
  ∀ p : Nat, 2 ≤ p → ⌊span / (1 - crop)⌋ = 2800000 / 2 ^ p → span / (1 - crop) * 2 ^ p < 2800001

theorem narrow_wide (wide : MINIMUM_RATE ≤ h.bw_used) :
    narrow crop h = .ok ⟨h.tune_count, h.bw_seen, h.bw_used, 0, crop, 1, 0⟩ := by
  rw [narrow, if_neg (by omega)]

theorem narrow_small (some_rate : 1 ≤ h.bw_used) (slow : h.bw_used < MINIMUM_RATE) :
    narrow crop h = .ok ⟨1, h.bw_seen, h.bw_used * (MAXIMUM_RATE / h.bw_used), 0, crop,
      MAXIMUM_RATE / h.bw_used, 0⟩ := by
  have rate : MAXIMUM_RATE = 2800000 := rfl
  have count : MAXIMUM_RATE.tdiv h.bw_used = MAXIMUM_RATE / h.bw_used :=
    Int.tdiv_eq_ediv_of_nonneg (by rw [rate]; decide)
  have most : h.bw_used * (MAXIMUM_RATE / h.bw_used) ≤ MAXIMUM_RATE :=
    Int.mul_ediv_self_le (by omega)
  have nonneg : 0 ≤ MAXIMUM_RATE / h.bw_used := Int.ediv_nonneg (by rw [rate]; decide) (by omega)
  have few : MAXIMUM_RATE / h.bw_used ≤ MAXIMUM_RATE :=
    Int.ediv_le_self _ (by rw [rate]; decide)
  have product : 0 ≤ h.bw_used * (MAXIMUM_RATE / h.bw_used) := mul_nonneg (by omega) nonneg
  rw [narrow, if_pos slow, if_neg (by omega), count]
  change (int _).bind _ = _
  rw [int_ok (by omega) (by omega), ok_bind]
  change (int _).bind _ = _
  rw [int_ok (by omega) (by omega), ok_bind]

variable {s : Settings}

theorem filtered_boxcar {boxcar : Bool} (none : boxcar = true ∨ s.downsample ≤ 1) :
    filtered boxcar s = .ok s := by
  rw [filtered, if_neg]
  rcases none with rfl | one
  · simp
  · simp [one]

variable {p : Nat}

theorem filtered_passes {w : Int} (more : 1 < s.downsample)
    (passes : Nat.log 2 s.downsample.toNat = p) (fits : s.bw_seen * 2 ^ p < 2 ^ 31)
    (rounded : ⌊((s.bw_seen * 2 ^ p : Int) : ℚ) / (1 - s.crop)⌋ = w) (some_rate : 1 ≤ w)
    (rate : w < 2 ^ 31) (some_left : s.crop < 1) :
    filtered false s =
      .ok { s with bw_used := w, downsample := 2 ^ p, downsample_passes := p } := by
  subst passes
  have spread : 1 ≤ ((s.bw_seen * 2 ^ Nat.log 2 s.downsample.toNat : Int) : ℚ) / (1 - s.crop) := by
    have one := Int.le_floor.mp (rounded ▸ some_rate)
    exact_mod_cast one
  have left : (0 : ℚ) < 1 - s.crop := by linarith
  have seen : 0 < s.bw_seen * 2 ^ Nat.log 2 s.downsample.toNat := by
    have seen := (one_le_div left).mp spread
    exact_mod_cast left.trans_le seen
  rw [filtered, if_pos (by simpa using more)]
  change (int _).bind _ = _
  rw [int_ok (by omega) fits, ok_bind]
  change (int (truncate _)).bind _ = _
  rw [truncate_of_nonneg (zero_le_one.trans spread), rounded, int_ok (by omega) rate, ok_bind]

/-- What is set before the bins are counted, for so many hops that each see `w` Hz and would sample at
the rate `v`. -/
structure Early (boxcar : Bool) (crop : ℚ) (n w v : Int) (s : Settings) : Prop where
  seen : s.bw_seen = w
  hops : s.tune_count = if v < MINIMUM_RATE then 1 else n
  some_rate : 1 ≤ s.bw_used
  rate : s.bw_used ≤ 2 * MAXIMUM_RATE
  some_sample : 1 ≤ s.downsample
  few : s.downsample ≤ MAXIMUM_RATE
  wide : MINIMUM_RATE ≤ v → s.bw_used = v
  unfiltered : boxcar = true → s.bw_used ≤ MAXIMUM_RATE
  passes : boxcar = false → v < MINIMUM_RATE →
    s.bw_used = ⌊((w * 2 ^ Nat.log 2 (MAXIMUM_RATE / v).toNat : Int) : ℚ) / (1 - crop)⌋

section Early

variable {w v : Int} (spread : ⌊(w : ℚ) / (1 - crop)⌋ = v)

include spread

theorem passes_rate (p : Nat) :
    v * 2 ^ p ≤ ⌊((w * 2 ^ p : Int) : ℚ) / (1 - crop)⌋ ∧
      ⌊((w * 2 ^ p : Int) : ℚ) / (1 - crop)⌋ < (v + 1) * 2 ^ p := by
  obtain ⟨above, below⟩ := Int.floor_eq_iff.mp spread
  have power : (0 : ℚ) < 2 ^ p := by positivity
  have same : ((w * 2 ^ p : Int) : ℚ) / (1 - crop) = w / (1 - crop) * 2 ^ p := by
    rw [Int.cast_mul, Int.cast_pow, Int.cast_ofNat]
    ring
  rw [same]
  refine ⟨Int.le_floor.mpr ?_, Int.floor_lt.mpr ?_⟩
  · push_cast
    exact mul_le_mul_of_nonneg_right above power.le
  · push_cast
    exact mul_lt_mul_of_pos_right below power

theorem passes_allowed (fits : v * 2 ^ p ≤ MAXIMUM_RATE) (narrow : v < MINIMUM_RATE)
    (rounds : 2 ≤ p → v = 2800000 / 2 ^ p → (w : ℚ) / (1 - crop) * 2 ^ p < 2800001) :
    ⌊((w * 2 ^ p : Int) : ℚ) / (1 - crop)⌋ ≤ MAXIMUM_RATE := by
  have rate : MAXIMUM_RATE = 2800000 := rfl
  have minimum : MINIMUM_RATE = 1000000 := rfl
  have power : (0 : Int) < 2 ^ p := by positivity
  rw [rate] at fits ⊢
  by_cases tight : v = 2800000 / 2 ^ p
  · have two : 2 ≤ p := by
      by_contra fewer
      have small_p : p = 0 ∨ p = 1 := by omega
      rcases small_p with rfl | rfl
      · norm_num at tight
        omega
      · norm_num at tight
        omega
    have same : ((w * 2 ^ p : Int) : ℚ) / (1 - crop) = w / (1 - crop) * 2 ^ p := by
      rw [Int.cast_mul, Int.cast_pow, Int.cast_ofNat]
      ring
    rw [same]
    refine Int.lt_add_one_iff.mp (Int.floor_lt.mpr ?_)
    exact_mod_cast rounds two tight
  · have most : v ≤ 2800000 / 2 ^ p := (Int.le_ediv_iff_mul_le power).mpr fits
    have room : (v + 1) * 2 ^ p ≤ 2800000 := (Int.le_ediv_iff_mul_le power).mp (by omega)
    have upper := (passes_rate spread p).2
    linarith

omit spread in
theorem passes_high (some_rate : 1 ≤ v) (tight : v = 2800000 / 2 ^ p)
    (high : 2800001 ≤ (w : ℚ) / (1 - crop) * 2 ^ p) :
    Nat.log 2 (MAXIMUM_RATE / v).toNat = p ∧
      MAXIMUM_RATE < ⌊((w * 2 ^ p : Int) : ℚ) / (1 - crop)⌋ := by
  have rate : MAXIMUM_RATE = 2800000 := rfl
  have power : (0 : Int) < 2 ^ p := by positivity
  constructor
  · have most : v * 2 ^ p ≤ 2800000 := (Int.le_ediv_iff_mul_le power).mp tight.le
    have least : 2800000 < (v + 1) * 2 ^ p := by
      rw [tight]
      exact Int.lt_ediv_add_one_mul_self _ power
    have twice : (v + 1) * 2 ^ p ≤ 2 ^ (p + 1) * v := by
      rw [pow_succ, mul_comm, mul_assoc]
      exact mul_le_mul_of_nonneg_left (by omega) power.le
    have above : 2 ^ p ≤ MAXIMUM_RATE / v := by
      rw [rate, Int.le_ediv_iff_mul_le (by omega), mul_comm]
      exact most
    have below : MAXIMUM_RATE / v < 2 ^ (p + 1) := by
      rw [rate, Int.ediv_lt_iff_lt_mul (by omega)]
      exact least.trans_le twice
    refine Nat.log_eq_of_pow_le_of_lt_pow ?_ ?_
    · rw [Int.le_toNat (power.le.trans above)]
      exact_mod_cast above
    · rw [Int.toNat_lt (power.le.trans above)]
      exact_mod_cast below
  · have same : ((w * 2 ^ p : Int) : ℚ) / (1 - crop) = w / (1 - crop) * 2 ^ p := by
      rw [Int.cast_mul, Int.cast_pow, Int.cast_ofNat]
      ring
    rw [rate, same]
    refine Int.lt_of_lt_of_le (by decide : (2800000 : Int) < 2800001) (Int.le_floor.mpr ?_)
    exact_mod_cast high

variable {boxcar : Bool} {n : Int} (seen : 1 ≤ w) (above : w ≤ v) (slow : v ≤ MAXIMUM_RATE)

include seen above slow

theorem early_small (some_left : crop < 1) (narrow : v < MINIMUM_RATE) :
    ∃ s, filtered boxcar ⟨1, w, v * (MAXIMUM_RATE / v), 0, crop, MAXIMUM_RATE / v, 0⟩ = .ok s ∧
      Early boxcar crop n w v s := by
  have some_rate : 1 ≤ v := seen.trans above
  have rate : MAXIMUM_RATE = 2800000 := rfl
  have minimum : MINIMUM_RATE = 1000000 := rfl
  have most : v * (MAXIMUM_RATE / v) ≤ MAXIMUM_RATE := Int.mul_ediv_self_le (by omega)
  have two : 2 ≤ MAXIMUM_RATE / v := by
    rw [Int.le_ediv_iff_mul_le (by omega)]
    omega
  have few : MAXIMUM_RATE / v ≤ MAXIMUM_RATE := Int.ediv_le_self _ (by rw [rate]; decide)
  have some_product : 1 ≤ v * (MAXIMUM_RATE / v) :=
    one_le_mul_of_one_le_of_one_le some_rate (by omega)
  obtain ⟨ds, count⟩ : ∃ ds, MAXIMUM_RATE / v = ds := ⟨_, rfl⟩
  rw [count] at most two few some_product ⊢
  cases boxcar with
  | true =>
    refine ⟨_, filtered_boxcar (.inl rfl), rfl, (if_pos narrow).symm, some_product, ?_, ?_, few,
      fun wide => absurd narrow (not_lt.mpr wide), fun _ => most, nofun⟩
    · dsimp only
      omega
    · dsimp only
      omega
  | false =>
    obtain ⟨p, passes⟩ : ∃ p, Nat.log 2 ds.toNat = p := ⟨_, rfl⟩
    have power : (2 : Int) ^ p ≤ ds := by
      have power := Nat.pow_log_le_self 2 (show ds.toNat ≠ 0 by omega)
      rw [passes] at power
      have cast : ((2 ^ p : Nat) : Int) ≤ ds := by omega
      exact_mod_cast cast
    have one : (1 : Int) ≤ 2 ^ p := one_le_pow₀ (by decide)
    have fits : v * 2 ^ p ≤ MAXIMUM_RATE := (mul_le_mul_of_nonneg_left power (by omega)).trans most
    have fits' : w * 2 ^ p ≤ MAXIMUM_RATE :=
      (mul_le_mul_of_nonneg_right above (by omega)).trans fits
    have twice : (v + 1) * 2 ^ p ≤ 2 * (v * 2 ^ p) := by
      rw [← mul_assoc]
      exact mul_le_mul_of_nonneg_right (by omega) (by omega)
    have some_power : 1 ≤ v * 2 ^ p := one_le_mul_of_one_le_of_one_le some_rate one
    obtain ⟨u, rounded⟩ : ∃ u, ⌊((w * 2 ^ p : Int) : ℚ) / (1 - crop)⌋ = u := ⟨_, rfl⟩
    obtain ⟨lower, upper⟩ := passes_rate spread p
    rw [rounded] at lower upper
    have high : u ≤ 2 * MAXIMUM_RATE := by linarith
    have filter := filtered_passes (s := ⟨1, w, v * ds, 0, crop, ds, 0⟩) (p := p) (w := u)
      (by dsimp only; omega) passes (by dsimp only; omega) rounded (some_power.trans lower)
      (lt_of_le_of_lt high (by rw [rate]; norm_num)) some_left
    refine ⟨_, filter, rfl, (if_pos narrow).symm, some_power.trans lower, high, one,
      power.trans few, fun wide => absurd narrow (not_lt.mpr wide), nofun, fun _ _ => ?_⟩
    rw [count, passes]
    exact rounded.symm

variable (boxcar) in
theorem early (some_left : crop < 1) :
    ∃ s, (narrow crop ⟨n, w, v⟩).bind (filtered boxcar) = .ok s ∧ Early boxcar crop n w v s := by
  have some_rate : 1 ≤ v := seen.trans above
  by_cases small : v < MINIMUM_RATE
  · rw [narrow_small some_rate small, ok_bind]
    exact early_small spread seen above slow some_left small
  · rw [narrow_wide (not_lt.mp small), ok_bind, filtered_boxcar (.inr (le_refl 1))]
    have rate : MAXIMUM_RATE = 2800000 := rfl
    refine ⟨_, rfl, rfl, ?_, some_rate, ?_, le_refl 1, ?_, fun _ => rfl, fun _ => slow,
      fun _ below => absurd below small⟩
    · exact (if_neg small).symm
    · dsimp only
      omega
    · dsimp only
      omega

end Early

variable (boxcar : Bool) (max_size : Int)

theorem settings_eq (span : Nat) (max_size : Int) (crop : ℚ) :
    settings boxcar span max_size crop =
      (hops span crop ⟨0, 0, 0⟩ (List.range' 1 1499)).bind fun h =>
        ((narrow crop h).bind (filtered boxcar)).bind fun s =>
          (bins s.bw_used s.downsample max_size 0 (List.range' 1 21)).bind fun e =>
            .ok (giant span max_size { s with bin_e := e }) := by
  unfold settings
  generalize hops span crop ⟨0, 0, 0⟩ (List.range' 1 1499) = found
  cases found with
  | error e => rfl
  | ok h =>
    change (narrow crop h).bind _ = ((narrow crop h).bind _).bind _
    generalize narrow crop h = narrowed
    cases narrowed with
    | error e => rfl
    | ok s => rfl

theorem settings_ok {max_size : Int} (small : span < 2 ^ 31) (nonneg : 0 ≤ crop)
    (some_left : crop < 1) (some_hertz : 1 ≤ span) (hertz : 1 ≤ max_size)
    (spread : span / (1 - crop) < 2 ^ 31) (one : 1 / (1 - crop) < 2800001) :
    ∃ k s e, Stops span crop 1 k ∧ k ≤ 767 ∧ 1 ≤ span / k ∧ used span crop k ≤ MAXIMUM_RATE ∧
      Early boxcar crop k (span / k : Nat) (used span crop k) s ∧
      settings boxcar span max_size crop = .ok (giant span max_size { s with bin_e := e }) ∧
      e ≤ 21 ∧ 2 ^ e * s.downsample ≤ 4 * MAXIMUM_RATE ∧
      (e < 21 → (s.bw_used : ℚ) / (2 ^ e * s.downsample) ≤ max_size) := by
  obtain ⟨k, stops, few, slow, found⟩ := hops_small small some_left spread
  have seen := seen_pos small some_left stops some_hertz one
  have whole : wrap (span / k) = (span / k : Nat) :=
    wrap_small (Nat.lt_of_le_of_lt (Nat.div_le_self span k) small)
  have floor : ⌊((span / k : Nat) : Int) / (1 - crop)⌋ = used span crop k := by
    rw [used_small small some_left, Int.cast_natCast]
  obtain ⟨s, narrowed, early⟩ := early floor boxcar (n := k) (by exact_mod_cast seen)
    (seen_le_used small some_left nonneg k) slow some_left
  have rate : MAXIMUM_RATE = 2800000 := rfl
  have most := early.few
  have most' := early.rate
  obtain ⟨e, binned, within, fits, bin⟩ := bins_found (R := s.bw_used) (D := s.downsample)
    (m := max_size) (B := 4 * MAXIMUM_RATE) early.some_sample (by rw [rate]; norm_num) hertz
    (by linarith) 0 1 20 (by rw [pow_one]; linarith)
  refine ⟨k, s, e, stops, few, seen, slow, early, ?_, within, fits, bin⟩
  rw [settings_eq, found, whole, ok_bind, narrowed, ok_bind, binned, ok_bind]

/-- The search for the number of hops comes upon nothing that the code cannot go on with. -/
def Survives (span : Nat) (crop : ℚ) : Prop :=
  ∀ i, 1 ≤ i → i < 1500 → (∀ j, 1 ≤ j → j < i → Fast span crop j) →
    used span crop i < 2 ^ 31 ∧ -MAXIMUM_RATE ≤ used span crop i ∧ used span crop i ≠ 0

theorem settings_eq_ok {boxcar : Bool} {max_size : Int} {S : Settings}
    (ok : settings boxcar span max_size crop = .ok S) :
    ∃ h s₁ s e, hops span crop ⟨0, 0, 0⟩ (List.range' 1 1499) = .ok h ∧ narrow crop h = .ok s₁ ∧
      filtered boxcar s₁ = .ok s ∧ bins s.bw_used s.downsample max_size 0 (List.range' 1 21) = .ok e ∧
      S = giant span max_size { s with bin_e := e } := by
  rw [settings_eq] at ok
  obtain ⟨h, found, ok⟩ := bind_eq_ok ok
  obtain ⟨s, early, ok⟩ := bind_eq_ok ok
  obtain ⟨s₁, narrowed, filter⟩ := bind_eq_ok early
  obtain ⟨e, binned, ok⟩ := bind_eq_ok ok
  exact ⟨h, s₁, s, e, found, narrowed, filter, binned, (Except.ok.inj ok).symm⟩

theorem narrow_eq_ok (ok : narrow crop h = .ok s) :
    s.bw_seen = h.bw_seen ∧
      ((MINIMUM_RATE ≤ h.bw_used ∧ s.tune_count = h.tune_count) ∨
        (h.bw_used < MINIMUM_RATE ∧ h.bw_used ≠ 0 ∧ s.tune_count = 1 ∧
          s.downsample = MAXIMUM_RATE.tdiv h.bw_used)) := by
  by_cases small : h.bw_used < MINIMUM_RATE
  · rw [narrow, if_pos small] at ok
    split at ok
    · cases ok
    · rename_i some_rate
      obtain ⟨ds, count, ok⟩ := bind_eq_ok ok
      obtain ⟨rate, -, ok⟩ := bind_eq_ok ok
      cases ok
      exact ⟨rfl, .inr ⟨small, some_rate, rfl, (int_eq_ok count).1⟩⟩
  · rw [narrow_wide (not_lt.mp small)] at ok
    cases ok
    exact ⟨rfl, .inl ⟨not_lt.mp small, rfl⟩⟩

theorem filtered_eq_ok {boxcar : Bool} {s' : Settings} (ok : filtered boxcar s = .ok s') :
    s'.bw_seen = s.bw_seen ∧ s'.tune_count = s.tune_count ∧ (s.downsample ≤ 1 → s' = s) := by
  by_cases more : (!boxcar && decide (s.downsample > 1)) = true
  · rw [filtered, if_pos more] at ok
    obtain ⟨seen, -, ok⟩ := bind_eq_ok ok
    obtain ⟨rate, -, ok⟩ := bind_eq_ok ok
    cases ok
    refine ⟨rfl, rfl, fun one => ?_⟩
    simp only [Bool.and_eq_true, decide_eq_true_eq] at more
    omega
  · rw [filtered, if_neg more] at ok
    cases ok
    exact ⟨rfl, rfl, fun _ => rfl⟩

theorem bins_none (R m : Int) (bin_e k n : Nat) :
    bins R 0 m bin_e (List.range' k (n + 1)) = .error .division_by_zero := by
  rw [List.range'_succ, bins, mul_zero]
  rfl

theorem survives_of_ok {boxcar : Bool} {max_size : Int} {S : Settings}
    (ok : settings boxcar span max_size crop = .ok S) : Survives span crop := by
  obtain ⟨h, s₁, s, e, found, narrowed, filter, binned, -⟩ := settings_eq_ok ok
  have searched := hops_found span crop ⟨0, 0, 0⟩ 1 1499
  rw [found] at searched
  intro i start within before
  have rate : MAXIMUM_RATE = 2800000 := rfl
  have minimum : MINIMUM_RATE = 1000000 := rfl
  cases searched with
  | none fast _ _ _ =>
    have here := fast i start (by omega)
    exact ⟨here.2, by have above := here.1; omega, by have above := here.1; omega⟩
  | @hops k stops within' low slow =>
    rcases lt_trichotomy i k with earlier | rfl | later
    · have here := stops.fast i start earlier
      exact ⟨here.2, by have above := here.1; omega, by have above := here.1; omega⟩
    · refine ⟨by omega, ?_, ?_⟩
      · by_contra far
        have none : MAXIMUM_RATE.tdiv (used span crop i) = 0 := by
          rw [← neg_neg (used span crop i), Int.tdiv_neg,
            Int.tdiv_eq_zero_of_lt (by omega) (by omega), neg_zero]
        obtain ⟨-, ⟨wide, -⟩ | ⟨-, -, -, count⟩⟩ := narrow_eq_ok narrowed
        · dsimp only at wide
          omega
        · have zero : s₁.downsample = 0 := count.trans none
          obtain rfl := (filtered_eq_ok filter).2.2 (by omega)
          rw [zero, bins_none] at binned
          cases binned
      · obtain ⟨-, ⟨wide, -⟩ | ⟨-, some_rate, -⟩⟩ := narrow_eq_ok narrowed
        · dsimp only at wide
          omega
        · exact some_rate
    · exact absurd (before k stops.start later) stops.slow

theorem bins_one (R m : Int) (bin_e k n : Nat) (few : k + n ≤ 31) :
    ∃ e, bins R 1 m bin_e (List.range' k n) = .ok e := by
  induction n generalizing bin_e k with
  | zero => exact ⟨bin_e, rfl⟩
  | succ n ih =>
    have power : (2 : Int) ^ k ≤ 2 ^ 30 := pow_le_pow_right₀ (by decide) (by omega)
    have some_power : (0 : Int) < 2 ^ k := by positivity
    rw [List.range'_succ, bins, mul_one]
    change ∃ e, (int (2 ^ k)).bind _ = _
    rw [int_ok (by omega) (by omega), ok_bind, if_neg (by omega)]
    split
    · exact ⟨k, rfl⟩
    · exact ih k (k + 1) (by omega)

theorem bins_negative {R D m : Int} (rate : 0 ≤ R) (below : D < 0) (few : -MAXIMUM_RATE ≤ D)
    (hertz : 1 ≤ m) (bin_e n : Nat) : bins R D m bin_e (List.range' 1 (n + 1)) = .ok 1 := by
  have maximum : MAXIMUM_RATE = 2800000 := rfl
  have none : (R : ℚ) / ((2 ^ 1 * D : Int) : ℚ) ≤ m := by
    have nonneg : (0 : ℚ) ≤ R := by exact_mod_cast rate
    have negative : ((2 ^ 1 * D : Int) : ℚ) ≤ 0 := by exact_mod_cast (by omega : 2 ^ 1 * D ≤ 0)
    have some_hertz : (0 : ℚ) ≤ m := by exact_mod_cast (by omega : 0 ≤ m)
    exact (div_nonpos_of_nonneg_of_nonpos nonneg negative).trans some_hertz
  rw [List.range'_succ, bins]
  change (int (2 ^ 1 * D)).bind _ = _
  rw [int_ok (by omega) (by omega), ok_bind, if_neg (by omega), if_pos none]

theorem narrow_negative (below : h.bw_used < 0) (few : -MAXIMUM_RATE ≤ h.bw_used) :
    ∃ s, narrow crop h = .ok s ∧ 0 ≤ s.bw_used ∧ s.downsample < 0 ∧ -MAXIMUM_RATE ≤ s.downsample := by
  have maximum : MAXIMUM_RATE = 2800000 := rfl
  have minimum : MINIMUM_RATE = 1000000 := rfl
  obtain ⟨u, same⟩ : ∃ u, h.bw_used = -u := ⟨-h.bw_used, (neg_neg _).symm⟩
  have count : MAXIMUM_RATE.tdiv h.bw_used = -(MAXIMUM_RATE / u) := by
    rw [same, Int.tdiv_neg, Int.tdiv_eq_ediv_of_nonneg (by omega)]
  have most : u * (MAXIMUM_RATE / u) ≤ MAXIMUM_RATE := Int.mul_ediv_self_le (by omega)
  have some_count : 1 ≤ MAXIMUM_RATE / u := by
    rw [Int.le_ediv_iff_mul_le (by omega)]
    omega
  have fits : MAXIMUM_RATE / u ≤ MAXIMUM_RATE := Int.ediv_le_self _ (by omega)
  have product : 0 ≤ u * (MAXIMUM_RATE / u) := mul_nonneg (by omega) (by omega)
  have rate : h.bw_used * -(MAXIMUM_RATE / u) = u * (MAXIMUM_RATE / u) := by
    rw [same, neg_mul_neg]
  refine ⟨⟨1, h.bw_seen, u * (MAXIMUM_RATE / u), 0, crop, -(MAXIMUM_RATE / u), 0⟩, ?_, product, ?_, ?_⟩
  · rw [narrow, if_pos (by omega), if_neg (by omega), count]
    change (int _).bind _ = _
    rw [int_ok (by omega) (by omega), ok_bind]
    change (int _).bind _ = _
    rw [rate, int_ok (by omega) (by omega), ok_bind]
  · dsimp only
    omega
  · dsimp only
    omega

theorem truncate_pos {w : Int} (some_left : crop < 1) (nonneg : 0 ≤ crop)
    (some_rate : 1 ≤ truncate ((w : ℚ) / (1 - crop))) :
    1 ≤ w ∧ ⌊(w : ℚ) / (1 - crop)⌋ = truncate ((w : ℚ) / (1 - crop)) ∧
      w ≤ truncate ((w : ℚ) / (1 - crop)) := by
  have left : (0 : ℚ) < 1 - crop := by linarith
  have some_band : 0 ≤ (w : ℚ) / (1 - crop) := by
    by_contra negative
    rw [truncate_of_neg (not_le.mp negative)] at some_rate
    have below : ⌈(w : ℚ) / (1 - crop)⌉ ≤ 0 := Int.ceil_le.mpr (by exact_mod_cast (not_le.mp negative).le)
    omega
  rw [truncate_of_nonneg some_band] at some_rate ⊢
  have one := Int.le_floor.mp some_rate
  have seen : (0 : ℚ) < w := by
    have seen := (le_div_iff₀ left).mp one
    push_cast at seen
    linarith
  refine ⟨by exact_mod_cast seen, rfl, Int.le_floor.mpr ?_⟩
  rw [le_div_iff₀ left]
  nlinarith

theorem settings_of_survives {boxcar : Bool} (some_left : crop < 1)
    (nonneg : 0 ≤ crop) (hertz : 1 ≤ max_size) (survives : Survives span crop) :
    ∃ s, settings boxcar span max_size crop = .ok (giant span max_size s) := by
  have maximum : MAXIMUM_RATE = 2800000 := rfl
  have searched := hops_found span crop ⟨0, 0, 0⟩ 1 1499
  rw [settings_eq]
  generalize hops span crop ⟨0, 0, 0⟩ (List.range' 1 1499) = found at searched ⊢
  cases searched with
  | @overflow i stops within range =>
    have here := survives i stops.start (by omega) stops.fast
    exact absurd ⟨by omega, here.1⟩ range
  | @none h fast count _ last =>
    have above := last (by omega)
    obtain ⟨e, binned⟩ := bins_one h.bw_used max_size 0 1 21 (by omega)
    rw [ok_bind, narrow_wide (by unfold MINIMUM_RATE; omega), ok_bind,
      filtered_boxcar (.inr (le_refl 1)), ok_bind, binned, ok_bind]
    exact ⟨_, rfl⟩
  | @hops i stops within low slow =>
    have here := survives i stops.start (by omega) stops.fast
    rcases lt_or_gt_of_ne here.2.2 with negative | positive
    · obtain ⟨s, narrowed, rate, below, few⟩ := narrow_negative
        (h := ⟨i, wrap (span / i), used span crop i⟩) negative here.2.1
      rw [ok_bind, narrowed, ok_bind, filtered_boxcar (.inr (by omega)), ok_bind,
        bins_negative rate below few hertz 0 20, ok_bind]
      exact ⟨_, rfl⟩
    · obtain ⟨seen, spread, above⟩ := truncate_pos some_left nonneg positive
      obtain ⟨s, early, facts⟩ := early spread boxcar (n := i) seen above slow some_left
      have most := facts.few
      have most' := facts.rate
      obtain ⟨e, binned, -⟩ := bins_found (R := s.bw_used) (D := s.downsample) (m := max_size)
        (B := 4 * MAXIMUM_RATE) facts.some_sample (by rw [maximum]; norm_num) hertz (by linarith)
        0 1 20 (by rw [pow_one]; linarith)
      rw [ok_bind]
      change ∃ S, ((narrow crop ⟨i, wrap (span / i), truncate _⟩).bind _).bind _ = _
      rw [early, ok_bind, binned, ok_bind]
      exact ⟨_, rfl⟩

theorem settings_ne_exited (span : Nat) (max_size : Int) (crop : ℚ) :
    settings boxcar span max_size crop ≠ .error .exited := by
  rw [settings_eq]
  refine bind_ne_exited ?_ fun h => bind_ne_exited (bind_ne_exited ?_ fun s => ?_) fun s =>
    bind_ne_exited ?_ fun e => nofun
  · have searched := hops_found span crop ⟨0, 0, 0⟩ 1 1499
    intro exited
    rw [exited] at searched
    cases searched
  · unfold narrow
    split
    · split
      · nofun
      · exact bind_ne_exited (int_ne_exited _) fun ds => bind_ne_exited (int_ne_exited _) fun r => nofun
    · nofun
  · unfold filtered
    split
    · exact bind_ne_exited (int_ne_exited _) fun w => bind_ne_exited (int_ne_exited _) fun r => nofun
    · nofun
  · generalize List.range' 1 21 = is
    generalize 0 = bin_e
    induction is generalizing bin_e with
    | nil => nofun
    | cons i is ih =>
      refine bind_ne_exited (int_ne_exited _) fun parts => ?_
      split
      · nofun
      · split
        · nofun
        · exact ih i

end Soapy.Rtl.Power
