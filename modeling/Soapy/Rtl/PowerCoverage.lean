import Soapy.Rtl.PowerSettings

/-! # When a span can be swept

Equal hops leave out less than a hertz for each. What spoils a sweep is a span that is no `int`, a
band of a few hertz that is spread to the rate of the device, a rate that is rounded twice, and
giant bins that leave out the end of the span.
-/

namespace Soapy.Rtl.Power

variable {span : Nat} {crop : ℚ}

def hop (lower : Nat) (s : Settings) (buf_len : Int) (i : Nat) : Tune :=
  ⟨((lower + i * s.bw_seen + s.bw_seen.tdiv 2) % 2 ^ 64).toNat, s.bw_used, s.bin_e, s.crop,
    s.downsample, s.downsample_passes, buf_len⟩

section Hops

variable {lower : Nat} {s : Settings} {buf_len : Int}

theorem tunes_ok {is : List Nat}
    (fit : ∀ i ∈ is, -2 ^ 31 ≤ i * s.bw_seen ∧ i * s.bw_seen < 2 ^ 31) :
    tunes lower s buf_len is = .ok (is.map (hop lower s buf_len)) := by
  induction is with
  | nil => rfl
  | cons i is ih =>
    have here := fit i List.mem_cons_self
    change ((int (i * s.bw_seen)).bind _).bind _ = _
    rw [int_ok here.1 here.2, ok_bind, ok_bind,
      ih fun j later => fit j (List.mem_cons_of_mem i later)]
    rfl

theorem tunes_eq_ok {is : List Nat} {ts : List Tune} (ok : tunes lower s buf_len is = .ok ts) :
    ts = is.map (hop lower s buf_len) ∧
      ∀ i ∈ is, -2 ^ 31 ≤ i * s.bw_seen ∧ i * s.bw_seen < 2 ^ 31 := by
  by_cases fit : ∀ i ∈ is, -2 ^ 31 ≤ i * s.bw_seen ∧ i * s.bw_seen < 2 ^ 31
  · rw [tunes_ok fit] at ok
    cases ok
    exact ⟨rfl, fit⟩
  · exfalso
    induction is generalizing ts with
    | nil => exact fit nofun
    | cons i is ih =>
      by_cases here : -2 ^ 31 ≤ i * s.bw_seen ∧ i * s.bw_seen < 2 ^ 31
      · change ((int (i * s.bw_seen)).bind _).bind _ = _ at ok
        rw [int_ok here.1 here.2, ok_bind, ok_bind] at ok
        cases later : tunes lower s buf_len is with
        | error e =>
          rw [later] at ok
          cases ok
        | ok ts' =>
          refine ih later fun rest => fit fun j among => ?_
          rcases List.mem_cons.mp among with rfl | among
          · exact here
          · exact rest j among
      · change ((int (i * s.bw_seen)).bind _).bind _ = _ at ok
        rw [int, if_neg here, error_bind, error_bind] at ok
        cases ok

theorem tunes_ne_exited (is : List Nat) : tunes lower s buf_len is ≠ .error .exited := by
  induction is with
  | nil => nofun
  | cons i is ih =>
    exact bind_ne_exited (bind_ne_exited (int_ne_exited _) fun offset => nofun) fun t =>
      bind_ne_exited ih fun later => nofun

variable (buf_len) in
theorem hop_freq {i : Nat} (some_band : 0 ≤ s.bw_seen)
    (fits : lower + (i + 1) * s.bw_seen < 2 ^ 64) :
    ((hop lower s buf_len i).freq : Int) = lower + i * s.bw_seen + s.bw_seen / 2 := by
  have half : s.bw_seen.tdiv 2 = s.bw_seen / 2 := Int.tdiv_eq_ediv_of_nonneg some_band
  have product : 0 ≤ (i : Int) * s.bw_seen := by positivity
  rw [add_mul, one_mul] at fits
  rw [hop, half, Int.emod_eq_of_lt (by omega) (by omega), Int.toNat_of_nonneg (by omega)]

theorem build_ok {n : Nat} (count : s.tune_count = n) (few : n ≤ 3000)
    (fit : ∀ i < n, -2 ^ 31 ≤ i * s.bw_seen ∧ i * s.bw_seen < 2 ^ 31)
    (block : 0 ≤ 2 * 2 ^ s.bin_e * s.downsample ∧ 2 * 2 ^ s.bin_e * s.downsample < 2 ^ 31)
    (total : (n : Int) * 2 ^ s.bin_e < 2 ^ 31) (some_rate : s.bw_used ≠ 0) :
    ∃ buf_len, 2 * 2 ^ s.bin_e * s.downsample ≤ buf_len ∧
      build lower s = .ok ⟨n, s.bw_seen, (List.range n).map (hop lower s buf_len)⟩ := by
  have some_total : 0 ≤ (n : Int) * 2 ^ s.bin_e := by positivity
  refine ⟨if 2 * 2 ^ s.bin_e * s.downsample < DEFAULT_BUF_LENGTH then DEFAULT_BUF_LENGTH
    else 2 * 2 ^ s.bin_e * s.downsample, ?_, ?_⟩
  · split <;> omega
  · have many : ¬ (n : Int) > MAX_TUNES := by
      unfold MAX_TUNES
      omega
    rw [build, count, if_neg many, int_ok (by omega) block.2]
    change (tunes _ _ _ (List.range n)).bind _ = _
    rw [tunes_ok fun i among => fit i (List.mem_range.mp among), ok_bind]
    change (int _).bind _ = _
    rw [int_ok (by omega) total, ok_bind, if_neg some_rate]

/-- What is known of a plan that was made. -/
structure Built (lower : Nat) (s : Settings) (p : Plan) : Prop where
  few : s.tune_count ≤ MAX_TUNES
  count : p.tune_count = s.tune_count
  seen : p.bw_seen = s.bw_seen
  tunes : ∃ buf_len, p.tunes = (List.range s.tune_count.toNat).map (hop lower s buf_len)
  fit : ∀ i < s.tune_count.toNat, -2 ^ 31 ≤ i * s.bw_seen ∧ i * s.bw_seen < 2 ^ 31

theorem build_exits (many : MAX_TUNES < s.tune_count) : build lower s = .error .exited := if_pos many

theorem build_cases (lower : Nat) (s : Settings) :
    (MAX_TUNES < s.tune_count ∧ build lower s = .error .exited) ∨
      (build lower s ≠ .error .exited ∧ ∀ p, build lower s = .ok p → Built lower s p) := by
  by_cases many : s.tune_count > MAX_TUNES
  · exact .inl ⟨many, build_exits many⟩
  · right
    rw [build, if_neg many]
    refine ⟨bind_ne_exited (int_ne_exited _) fun block =>
      bind_ne_exited (tunes_ne_exited _) fun ts => bind_ne_exited (int_ne_exited _) fun total => ?_,
      fun p ok => ?_⟩
    · split <;> nofun
    · obtain ⟨block, -, ok⟩ := bind_eq_ok ok
      obtain ⟨ts, made, ok⟩ := bind_eq_ok ok
      obtain ⟨total, -, ok⟩ := bind_eq_ok ok
      obtain ⟨same, fit⟩ := tunes_eq_ok made
      split at ok
      · cases ok
      · cases ok
        exact ⟨not_lt.mp many, rfl, rfl, ⟨_, same⟩, fun i among => fit i (List.mem_range.mpr among)⟩

theorem Plan.right_last {p : Plan} {t last : Tune} {ts : List Tune}
    (adjoin : (t :: ts).IsChain fun t t' => p.right t = p.left t')
    (at_end : (t :: ts).getLast? = some last) :
    p.right last = p.left t + (t :: ts).length * p.bw_seen := by
  induction ts generalizing t with
  | nil =>
    obtain rfl : t = last := Option.some.inj at_end
    simp only [Plan.right, Plan.left, List.length_singleton, Nat.cast_one]
    ring
  | cons t' ts ih =>
    obtain ⟨side, later⟩ := List.isChain_cons_cons.mp adjoin
    rw [List.getLast?_cons_cons] at at_end
    rw [ih later at_end, ← side, List.length_cons, List.length_cons, List.length_cons]
    simp only [Plan.right, Plan.left]
    push_cast
    ring

theorem Plan.Sweeps.span_le {p : Plan} {lower upper : Nat} {max_size : Int}
    (sweeps : p.Sweeps lower upper max_size) :
    (upper : Int) - lower ≤ p.tune_count * p.bw_seen + p.tune_count := by
  have some_hop := sweeps.some_hop
  have count := sweeps.count
  cases made : p.tunes with
  | nil =>
    rw [made, List.length_nil] at count
    omega
  | cons t ts =>
    obtain ⟨last, at_end⟩ : ∃ last, (t :: ts).getLast? = some last :=
      ⟨_, List.getLast?_eq_some_getLast (List.cons_ne_nil t ts)⟩
    have whole := Plan.right_last (made ▸ sweeps.adjoin) at_end
    have first := sweeps.first t (by rw [made]; rfl)
    have covered := sweeps.last last (by rw [made]; exact at_end)
    have length : ((t :: ts).length : ℚ) = p.tune_count := by
      rw [← made]
      exact_mod_cast count
    rw [length] at whole
    have span : (upper : ℚ) - lower ≤ p.tune_count * p.bw_seen + p.tune_count := by linarith
    exact_mod_cast span

variable (buf_len) in
theorem hop_band {p : Plan} {i : Nat} (seen : p.bw_seen = s.bw_seen) (some_band : 0 ≤ s.bw_seen)
    (fits : lower + (i + 1) * s.bw_seen < 2 ^ 64) :
    p.left (hop lower s buf_len i) = lower + i * s.bw_seen - (s.bw_seen % 2 : Int) / 2 ∧
      p.right (hop lower s buf_len i) =
        lower + (i + 1) * s.bw_seen - (s.bw_seen % 2 : Int) / 2 := by
  have freq := hop_freq buf_len some_band fits
  have freq' : ((hop lower s buf_len i).freq : ℚ) =
      lower + i * s.bw_seen + (s.bw_seen / 2 : Int) := by exact_mod_cast freq
  have halves : ((2 * (s.bw_seen / 2) + s.bw_seen % 2 : Int) : ℚ) = s.bw_seen :=
    congrArg _ (Int.mul_ediv_add_emod s.bw_seen 2)
  push_cast at halves
  rw [Plan.left, Plan.right, seen, freq']
  constructor
  · linarith
  · linarith

omit s in
theorem hop_fits {q : Int} {i n : Nat} (some_band : 1 ≤ q) (among : i < n)
    (fits : lower + (n : Int) * q < 2 ^ 64) : lower + ((i : Int) + 1) * q < 2 ^ 64 := by
  have most : ((i : Int) + 1) * q ≤ n * q := mul_le_mul_of_nonneg_right (by omega) (by omega)
  linarith

theorem sweeps_of {n upper : Nat} {max_size : Int} (some_hop : 1 ≤ n) (few : n ≤ 3000)
    (some_band : 1 ≤ s.bw_seen) (fits : lower + (n : Int) * s.bw_seen < 2 ^ 64)
    (rate : s.bw_used ≤ MAXIMUM_RATE)
    (covers : 2 * (upper - lower - n * s.bw_seen) + s.bw_seen % 2 ≤ 2 * n)
    (bin : s.bin_e < 21 → (s.bw_used : ℚ) / (2 ^ s.bin_e * s.downsample) ≤ max_size)
    (block : 2 * 2 ^ s.bin_e * s.downsample ≤ buf_len) :
    Plan.Sweeps ⟨n, s.bw_seen, (List.range n).map (hop lower s buf_len)⟩ lower upper max_size where
  count := by simp
  some_hop := Int.ofNat_le.mpr some_hop
  few := Int.ofNat_le.mpr few
  rate t member := by
    obtain ⟨i, -, rfl⟩ := List.mem_map.mp member
    exact rate
  adjoin := by
    rw [List.isChain_iff_getElem]
    intro i more
    rw [List.length_map, List.length_range] at more
    have later := hop_band buf_len
      (p := ⟨n, s.bw_seen, (List.range n).map (hop lower s buf_len)⟩) rfl (by omega) (hop_fits (i := i + 1) some_band more fits)
    have here := hop_band buf_len
      (p := ⟨n, s.bw_seen, (List.range n).map (hop lower s buf_len)⟩) rfl (by omega) (hop_fits (i := i) some_band (by omega) fits)
    rw [List.getElem_map, List.getElem_map, List.getElem_range, List.getElem_range, later.1, here.2]
    push_cast
    ring
  first t member := by
    rw [List.head?_map, List.head?_range, if_neg (by omega)] at member
    cases member
    have here := hop_band buf_len
      (p := ⟨n, s.bw_seen, (List.range n).map (hop lower s buf_len)⟩) rfl (by omega) (hop_fits (i := 0) some_band some_hop fits)
    have odd : (0 : ℚ) ≤ (s.bw_seen % 2 : Int) := by exact_mod_cast Int.emod_nonneg _ (by decide)
    rw [here.1]
    push_cast at odd ⊢
    linarith
  last t member := by
    rw [List.getLast?_map, List.getLast?_range, if_neg (by omega)] at member
    cases member
    obtain ⟨i, rfl⟩ : ∃ i, n = i + 1 := ⟨n - 1, by omega⟩
    have here := hop_band buf_len (p := ⟨(i + 1 : Nat), s.bw_seen,
        (List.range (i + 1)).map (hop lower s buf_len)⟩) rfl (by omega) (hop_fits (i := i) some_band (Nat.lt_succ_self i) fits)
    have covers : ((2 * (upper - lower - (i + 1 : Nat) * s.bw_seen) + s.bw_seen % 2 : Int) : ℚ) ≤
      (2 * (i + 1 : Nat) : Int) := by exact_mod_cast covers
    rw [Nat.add_sub_cancel, here.2]
    push_cast at covers ⊢
    linarith
  bin t member := by
    obtain ⟨i, -, rfl⟩ := List.mem_map.mp member
    exact bin
  block t member := by
    obtain ⟨i, -, rfl⟩ := List.mem_map.mp member
    exact block

end Hops

/-- When the plan of a span can be swept. -/
def Sweepable (boxcar : Bool) (span : Nat) (max_size : Int) (crop : ℚ) : Prop :=
  if span < 2 ^ 31 then
    span / (1 - crop) < 2 ^ 31 ∧ 1 / (1 - crop) < 2800001 ∧
      if max_size < MINIMUM_RATE then
        ¬ (span = 3 ∧ 2800001 ≤ 3 * (1 / (1 - crop)) ∧ 1 / (1 - crop) < 1000000) ∧
          (boxcar = true ∨ Rounds span crop)
      else max_size ≤ MAXIMUM_RATE ∧ max_size ≤ span ∧
        2 * (span % max_size) + max_size % 2 ≤ 2 * (span / max_size)
  else
    MINIMUM_RATE ≤ max_size ∧ MAX_TUNES < wrap (span / max_size.toNat) ∧ Survives span crop

theorem frequency_range_eq (boxcar : Bool) (lower upper : Nat) (max_size : Int) (crop : ℚ) :
    frequency_range boxcar lower upper max_size crop =
      (settings boxcar (upper - lower) max_size crop).bind (build lower) := rfl

theorem frequency_range_of {boxcar : Bool} {lower upper : Nat} {max_size : Int} {S : Settings}
    (ok : settings boxcar (upper - lower) max_size crop = .ok S) :
    frequency_range boxcar lower upper max_size crop = build lower S := by
  rw [frequency_range_eq, ok, ok_bind]

theorem giant_neg {max_size : Int} (narrow : max_size < MINIMUM_RATE) (s : Settings) :
    giant span max_size s = s := if_neg (not_le.mpr narrow)

theorem giant_pos {max_size : Int} (wide : MINIMUM_RATE ≤ max_size) (s : Settings) :
    giant span max_size s = { s with
      bw_seen := max_size
      bw_used := max_size
      tune_count := wrap (span / max_size.toNat)
      bin_e := 0
      crop := 0 } := if_pos wide

theorem rate_allowed {boxcar : Bool} {k : Nat} {s : Settings} (small : span < 2 ^ 31)
    (some_left : crop < 1) (some_rate : 1 ≤ used span crop k)
    (slow : used span crop k ≤ MAXIMUM_RATE)
    (early : Early boxcar crop k (span / k : Nat) (used span crop k) s)
    (whole : used span crop k < MINIMUM_RATE → k = 1) (rounds : boxcar = true ∨ Rounds span crop) :
    s.bw_used ≤ MAXIMUM_RATE := by
  by_cases wide : MINIMUM_RATE ≤ used span crop k
  · rw [early.wide wide]
    exact slow
  · have narrow := not_le.mp wide
    cases boxcar with
    | true => exact early.unfiltered rfl
    | false =>
      obtain rfl := whole narrow
      have rounds := rounds.resolve_left nofun
      have floor : ⌊((span / 1 : Nat) : Int) / (1 - crop)⌋ = used span crop 1 := by
        rw [used_small small some_left, Int.cast_natCast]
      have maximum : MAXIMUM_RATE = 2800000 := rfl
      have count : 1 ≤ MAXIMUM_RATE / used span crop 1 := by
        rw [Int.le_ediv_iff_mul_le (by omega)]
        omega
      have power : (2 : Int) ^ Nat.log 2 (MAXIMUM_RATE / used span crop 1).toNat ≤
          MAXIMUM_RATE / used span crop 1 := by
        have power := Nat.pow_log_le_self 2
          (show (MAXIMUM_RATE / used span crop 1).toNat ≠ 0 by omega)
        have cast : ((2 ^ Nat.log 2 (MAXIMUM_RATE / used span crop 1).toNat : Nat) : Int) ≤
          MAXIMUM_RATE / used span crop 1 := by omega
        exact_mod_cast cast
      rw [early.passes rfl narrow]
      refine passes_allowed floor ?_ narrow fun two tight => ?_
      · exact (mul_le_mul_of_nonneg_left power (by omega)).trans (Int.mul_ediv_self_le (by omega))
      · have spread := rounds _ two (by
          rw [← tight, used_small small some_left, Nat.div_one])
        rw [Nat.div_one, Int.cast_natCast]
        exact spread

section Meets

variable {boxcar : Bool} {lower upper : Nat} {max_size : Int} (before : lower < upper)
  (high : upper < 2 ^ 63) (hertz : 1 ≤ max_size) (nonneg : 0 ≤ crop) (some_left : crop < 1)
  (small : upper - lower < 2 ^ 31) (spread : (upper - lower : Nat) / (1 - crop) < 2 ^ 31)
  (one : 1 / (1 - crop) < 2800001)

include before high hertz nonneg some_left small spread one

theorem meets_hops (bins : max_size < MINIMUM_RATE)
    (three : ¬ (upper - lower = 3 ∧ 2800001 ≤ 3 * (1 / (1 - crop)) ∧ 1 / (1 - crop) < 1000000))
    (rounds : boxcar = true ∨ Rounds (upper - lower) crop) :
    Meets boxcar lower upper max_size crop := by
  obtain ⟨k, s, e, stops, few, seen, slow, early, ok, within, fits, bin⟩ := settings_ok boxcar
    small nonneg some_left (by omega) hertz spread one
  have start := stops.start
  have maximum : MAXIMUM_RATE = 2800000 := rfl
  have whole : used (upper - lower) crop k < MINIMUM_RATE → k = 1 := fun slow =>
    not_cut small some_left stops seen slow three
  have count : s.tune_count = k := by
    rw [early.hops]
    split
    · rename_i slow
      rw [whole slow]
      rfl
    · rfl
  have allowed := rate_allowed small some_left
    ((Int.ofNat_le.mpr seen).trans (seen_le_used small some_left nonneg k)) slow early whole rounds
  have band := early.seen
  have samples := early.some_sample
  have rate := early.some_rate
  have power : (2 : Int) ^ e ≤ 2 ^ 21 := pow_le_pow_right₀ (by decide) within
  have some_power : (0 : Int) < 2 ^ e := by positivity
  have total : (k : Int) * 2 ^ e < 2 ^ 31 := by
    have most : (k : Int) * 2 ^ e ≤ 767 * 2 ^ 21 :=
      mul_le_mul (by exact_mod_cast few) power some_power.le (by norm_num)
    omega
  have covered : k * ((upper - lower) / k) ≤ upper - lower := Nat.mul_div_le _ _
  have left_out : (upper - lower) < k * ((upper - lower) / k) + k := by
    have least := Nat.lt_mul_div_succ (upper - lower) (show 0 < k from start)
    rw [mul_add, mul_one] at least
    exact least
  generalize (upper - lower) / k = q at *
  have covered' : (k : Int) * q ≤ (upper : Int) - lower := by
    have covered : ((k * q : Nat) : Int) ≤ (upper - lower : Nat) := by exact_mod_cast covered
    push_cast [before.le] at covered
    exact covered
  have left_out' : (upper : Int) - lower < k * q + k := by
    have left_out : ((upper - lower : Nat) : Int) < (k * q + k : Nat) := by exact_mod_cast left_out
    push_cast [before.le] at left_out
    exact left_out
  have fit : ∀ i < k, -2 ^ 31 ≤ (i : Int) * s.bw_seen ∧ (i : Int) * s.bw_seen < 2 ^ 31 := by
    intro i among
    have most : (i : Int) * q ≤ k * q := mul_le_mul_of_nonneg_right (by omega) (by omega)
    have some : (0 : Int) ≤ i * q := by positivity
    rw [band]
    omega
  have block : 0 ≤ 2 * 2 ^ e * s.downsample ∧ 2 * 2 ^ e * s.downsample < 2 ^ 31 := by
    have product : 0 ≤ 2 ^ e * s.downsample := mul_nonneg some_power.le (by omega)
    rw [mul_assoc]
    omega
  obtain ⟨buf_len, room, built⟩ := build_ok (s := { s with bin_e := e }) count
    (by omega) fit block total (by dsimp only; omega)
  rw [giant_neg bins] at ok
  refine .inr ⟨_, (frequency_range_of ok).trans built, ?_⟩
  refine sweeps_of start (by omega) (by dsimp only; omega) ?_ ?_ ?_ bin room
  · dsimp only
    rw [band]
    omega
  · exact allowed
  · dsimp only
    rw [band]
    omega

theorem meets_giant (wide : MINIMUM_RATE ≤ max_size) (slow : max_size ≤ MAXIMUM_RATE)
    (some_hop : max_size ≤ (upper - lower : Nat))
    (covers : 2 * ((upper - lower : Nat) % max_size) + max_size % 2 ≤
      2 * ((upper - lower : Nat) / max_size)) :
    Meets boxcar lower upper max_size crop := by
  obtain ⟨k, s, e, stops, few, seen, -, early, ok, within, fits, bin⟩ := settings_ok
    boxcar small nonneg some_left (by omega) hertz spread one
  have maximum : MAXIMUM_RATE = 2800000 := rfl
  have minimum : MINIMUM_RATE = 1000000 := rfl
  obtain ⟨m, rfl⟩ := Int.eq_ofNat_of_zero_le (show 0 ≤ max_size by omega)
  have most := early.few
  have some_sample := early.some_sample
  have count' : wrap ((upper - lower) / m) = ((upper - lower) / m : Nat) :=
    wrap_small (Nat.lt_of_le_of_lt (Nat.div_le_self _ m) small)
  have covered : (upper - lower) / m * m ≤ upper - lower := Nat.div_mul_le_self _ m
  have left_out : (upper - lower) / m * m + (upper - lower) % m = upper - lower :=
    Nat.div_add_mod' _ m
  have some : 1 ≤ (upper - lower) / m := Nat.div_pos (by omega) (by omega)
  have fewer : (upper - lower) / m ≤ 3000 := by
    refine Nat.div_le_of_le_mul ?_
    omega
  rw [← Int.natCast_mod, ← Int.natCast_div] at covers
  rw [giant_pos wide, Int.toNat_natCast, count'] at ok
  obtain ⟨n, hops⟩ : ∃ n, (upper - lower) / m = n := ⟨_, rfl⟩
  rw [hops] at ok covered left_out some fewer covers
  generalize (upper - lower) % m = r at left_out covers
  have covered' : (n : Int) * m + r = (upper : Int) - lower := by
    have left_out : ((n * m + r : Nat) : Int) = (upper - lower : Nat) := congrArg _ left_out
    push_cast [before.le] at left_out
    exact left_out
  have fit : ∀ i < n, -2 ^ 31 ≤ (i : Int) * m ∧ (i : Int) * m < 2 ^ 31 := by
    intro i among
    have most : (i : Int) * m ≤ n * m := mul_le_mul_of_nonneg_right (by omega) (by omega)
    have some : (0 : Int) ≤ i * m := mul_nonneg (Int.natCast_nonneg i) (Int.natCast_nonneg m)
    omega
  obtain ⟨buf_len, room, built⟩ := build_ok
    (s := { s with bw_seen := m, bw_used := m, tune_count := n, bin_e := 0, crop := 0 }) (n := n) rfl
    fewer fit (by dsimp only; omega) (by dsimp only; omega) (by dsimp only; omega)
  refine .inr ⟨_, (frequency_range_of ok).trans built, ?_⟩
  refine sweeps_of some fewer (by dsimp only; omega) ?_ slow ?_ ?_ room
  · dsimp only
    omega
  · dsimp only
    omega
  · intro _
    have samples : (1 : ℚ) ≤ s.downsample := by exact_mod_cast some_sample
    have rate : (0 : ℚ) ≤ m := Nat.cast_nonneg m
    dsimp only
    rw [pow_zero, one_mul, Int.cast_natCast]
    exact div_le_self rate samples

end Meets

theorem meets_exit {boxcar : Bool} {lower upper : Nat} {max_size : Int} (some_left : crop < 1)
    (nonneg : 0 ≤ crop) (wide : MINIMUM_RATE ≤ max_size)
    (many : MAX_TUNES < wrap ((upper - lower) / max_size.toNat))
    (survives : Survives (upper - lower) crop) : Meets boxcar lower upper max_size crop := by
  have minimum : MINIMUM_RATE = 1000000 := rfl
  obtain ⟨s, ok⟩ := settings_of_survives max_size some_left nonneg
    (by omega) survives
  rw [giant_pos wide] at ok
  exact .inl ((frequency_range_of ok).trans (build_exits (by dsimp only; exact many)))

theorem spread_of_survives (small : span < 2 ^ 31) (some_left : crop < 1)
    (survives : Survives span crop) : span / (1 - crop) < 2 ^ 31 := by
  have first := (survives 1 (le_refl 1) (by decide) fun j start before => by omega).1
  rw [used_small small some_left, Nat.div_one, Int.floor_lt] at first
  exact_mod_cast first

theorem one_of_survives (small : span < 2 ^ 31) (some_left : crop < 1) (some_hertz : 1 ≤ span)
    (survives : Survives span crop) : 1 / (1 - crop) < 2800001 := by
  by_contra high
  have spread := spread_of_survives small some_left survives
  have few : span < 767 := by
    by_contra more
    have bound : (767 : ℚ) ≤ span := by exact_mod_cast not_lt.mp more
    rw [← mul_one_div] at spread
    nlinarith [not_lt.mp high]
  have most := (survives 1 (le_refl 1) (by decide) fun j start before => by omega).1
  have fast : ∀ j, 1 ≤ j → j < span + 1 → Fast span crop j := by
    intro j start within
    refine ⟨?_, lt_of_le_of_lt (used_anti small some_left (le_refl 1) start) most⟩
    have seen : (1 : ℚ) ≤ (span / j : Nat) := by exact_mod_cast Nat.div_pos (by omega) start
    have above : (2800001 : Int) ≤ used span crop j :=
      le_used small some_left (by push_cast; nlinarith [not_lt.mp high])
    unfold MAXIMUM_RATE
    omega
  have none := (survives (span + 1) (by omega) (by omega) fast).2.2
  refine none ?_
  rw [used_small small some_left, Nat.div_eq_of_lt (Nat.lt_succ_self span)]
  simp

theorem truncate_neg_le {w : Int} (some_left : crop < 1) (nonneg : 0 ≤ crop) (below : w < 0) :
    truncate ((w : ℚ) / (1 - crop)) ≤ w := by
  have left : (0 : ℚ) < 1 - crop := by linarith
  have negative : (w : ℚ) < 0 := by exact_mod_cast below
  rw [truncate_of_neg (div_neg_of_neg_of_pos negative left)]
  refine Int.ceil_le.mpr ?_
  rw [div_le_iff₀ left]
  nlinarith

theorem le_truncate {w : Int} (some_left : crop < 1) (nonneg : 0 ≤ crop) (above : 0 ≤ w) :
    w ≤ truncate ((w : ℚ) / (1 - crop)) := by
  have left : (0 : ℚ) < 1 - crop := by linarith
  have positive : (0 : ℚ) ≤ w := by exact_mod_cast above
  rw [truncate_of_nonneg (div_nonneg positive left.le)]
  refine Int.le_floor.mpr ?_
  rw [le_div_iff₀ left]
  nlinarith

theorem wrap_le_used {i : Nat} (some_left : crop < 1) (nonneg : 0 ≤ crop)
    (above : 0 ≤ wrap (span / i)) : wrap (span / i) ≤ used span crop i := by
  unfold used
  exact le_truncate some_left nonneg above

theorem Hops.bw_seen_mk (n w v : Int) : (Hops.mk n w v).bw_seen = w := rfl

theorem Hops.tune_count_mk (n w v : Int) : (Hops.mk n w v).tune_count = n := rfl

theorem settings_hops {boxcar : Bool} {max_size : Int} {S : Settings} (some_left : crop < 1)
    (nonneg : 0 ≤ crop) (narrow : max_size < MINIMUM_RATE)
    (ok : settings boxcar span max_size crop = .ok S) :
    S.tune_count ≤ 1499 ∧ (1 ≤ S.tune_count → S.bw_seen ≤ MAXIMUM_RATE) := by
  obtain ⟨h, s₁, s, e, found, narrowed, filter, -, same⟩ := settings_eq_ok ok
  rw [giant_neg narrow] at same
  obtain ⟨seen, count, -⟩ := filtered_eq_ok filter
  obtain ⟨seen', counts⟩ := narrow_eq_ok narrowed
  have maximum : MAXIMUM_RATE = 2800000 := rfl
  have minimum : MINIMUM_RATE = 1000000 := rfl
  have searched := hops_found span crop ⟨0, 0, 0⟩ 1 1499
  rw [found] at searched
  subst same
  dsimp only
  rw [count, seen, seen']
  cases searched with
  | @hops i stops within low slow =>
    have few : s₁.tune_count ≤ 1499 := by
      rcases counts with ⟨-, count⟩ | ⟨-, -, count, -⟩
      · rw [count]
        rw [Hops.tune_count_mk]
        omega
      · rw [count]
        decide
    refine ⟨few, fun _ => ?_⟩
    rw [Hops.bw_seen_mk]
    rcases le_or_gt 0 (wrap (span / i)) with above | below
    · exact (wrap_le_used some_left nonneg above).trans slow
    · exact below.le.trans (by rw [maximum]; decide)
  | none fast count' _ last =>
    have rate := last (by decide)
    have none : s₁.tune_count = 0 := by
      rcases counts with ⟨-, count⟩ | ⟨below, -⟩
      · exact count.trans count'
      · omega
    exact ⟨by rw [none]; decide, fun some_hop => by rw [none] at some_hop; omega⟩

theorem Built.rate_le {lower upper : Nat} {max_size : Int} {s : Settings} {p : Plan}
    (built : Built lower s p) (sweeps : p.Sweeps lower upper max_size) :
    s.bw_used ≤ MAXIMUM_RATE := by
  obtain ⟨buf_len, made⟩ := built.tunes
  have some_hop := sweeps.some_hop
  rw [built.count] at some_hop
  have first : hop lower s buf_len 0 ∈ p.tunes := by
    rw [made]
    exact List.mem_map_of_mem (List.mem_range.mpr (by omega))
  exact sweeps.rate _ first

theorem three_hops {k : Nat} (some_left : crop < 1) (stops : Stops 3 crop 1 k)
    (high : 2800001 ≤ 3 * (1 / (1 - crop))) (low : 1 / (1 - crop) < 1000000) :
    k = 2 ∧ used 3 crop k < MINIMUM_RATE := by
  have small : 3 < 2 ^ 31 := by norm_num
  have maximum : MAXIMUM_RATE = 2800000 := rfl
  have minimum : MINIMUM_RATE = 1000000 := rfl
  have above : (2800001 : Int) ≤ used 3 crop 1 := le_used small some_left (by push_cast; linarith)
  have below : used 3 crop 1 < 2 ^ 31 := used_lt small some_left (by push_cast; linarith)
  have second : used 3 crop 2 < 1000000 := used_lt small some_left (by push_cast; linarith)
  have start := stops.start
  have two : k = 2 := by
    rcases lt_trichotomy k 2 with one | same | more
    · obtain rfl : k = 1 := by omega
      exact absurd ⟨by omega, below⟩ stops.slow
    · exact same
    · have fast := (stops.fast 2 (by omega) more).1
      omega
  subst two
  exact ⟨rfl, by omega⟩

theorem rounds_hops {k p : Nat} (small : span < 2 ^ 31) (some_left : crop < 1) (nonneg : 0 ≤ crop)
    (some_hertz : 1 ≤ span) (stops : Stops span crop 1 k) (two : 2 ≤ p)
    (tight : ⌊span / (1 - crop)⌋ = 2800000 / 2 ^ p) :
    k = 1 ∧ used span crop k = 2800000 / 2 ^ p ∧ 1 ≤ used span crop k ∧
      used span crop k < MINIMUM_RATE := by
  have maximum : MAXIMUM_RATE = 2800000 := rfl
  have minimum : MINIMUM_RATE = 1000000 := rfl
  have first : used span crop 1 = 2800000 / 2 ^ p := by
    rw [used_small small some_left, Nat.div_one]
    exact tight
  have some_rate : 1 ≤ used span crop 1 := by
    have above := seen_le_used small some_left nonneg 1
    rw [Nat.div_one] at above
    omega
  have power : (2 : Int) ^ 2 ≤ 2 ^ p := pow_le_pow_right₀ (by decide) two
  have product : used span crop 1 * 2 ^ p ≤ 2800000 :=
    (Int.le_ediv_iff_mul_le (by positivity)).mp first.le
  have narrow : used span crop 1 < 1000000 := by nlinarith
  have start := stops.start
  have one : k = 1 := by
    by_contra more
    have fast := (stops.fast 1 (le_refl 1) (by omega)).1
    omega
  subst one
  exact ⟨rfl, first, some_rate, narrow⟩

section Plan

variable {boxcar : Bool} {lower upper : Nat} {max_size : Int} {S : Settings} {p : Plan}
  (before : lower < upper) (some_left : crop < 1) (nonneg : 0 ≤ crop)
  (ok : settings boxcar (upper - lower) max_size crop = .ok S) (built : Built lower S p)
  (sweeps : p.Sweeps lower upper max_size)

include before some_left nonneg ok built sweeps

theorem span_lt : upper - lower < 2 ^ 32 - 2800000 := by
  have maximum : MAXIMUM_RATE = 2800000 := rfl
  have covered := sweeps.span_le
  have some_hop := sweeps.some_hop
  rw [built.count, built.seen] at covered
  rw [built.count] at some_hop
  rcases lt_or_ge max_size MINIMUM_RATE with narrow | wide
  · obtain ⟨few, seen⟩ := settings_hops some_left nonneg narrow ok
    have seen := seen some_hop
    have most : S.tune_count * S.bw_seen ≤ 1499 * 2800000 := by
      rcases le_or_gt 0 S.bw_seen with above | below
      · exact mul_le_mul few (maximum ▸ seen) above (by norm_num)
      · nlinarith
    omega
  · obtain ⟨s₁, made⟩ : ∃ s, S = giant (upper - lower) max_size s := by
      obtain ⟨h, s₁, s, e, -, -, -, -, same⟩ := settings_eq_ok ok
      exact ⟨_, same⟩
    rw [giant_pos wide] at made
    have rate := built.rate_le sweeps
    have few := built.few
    have last := (built.fit (S.tune_count.toNat - 1) (by omega)).2
    have same : S.bw_seen = S.bw_used := by rw [made]
    have cast : ((S.tune_count.toNat - 1 : Nat) : Int) = S.tune_count - 1 := by omega
    rw [cast, sub_mul, one_mul] at last
    have hops : MAX_TUNES = 3000 := rfl
    omega

theorem small_of_sweeps : upper - lower < 2 ^ 31 := by
  by_contra large
  have far := span_lt before some_left nonneg ok built sweeps
  have first := (survives_of_ok ok 1 (le_refl 1) (by decide) fun j start within => by omega).2.1
  have maximum : MAXIMUM_RATE = 2800000 := rfl
  have negative := wrap_high (not_lt.mp large) (by omega)
  have below := truncate_neg_le (w := wrap (upper - lower)) some_left nonneg (by omega)
  rw [used, Nat.div_one] at first
  omega

omit before some_left nonneg ok in
theorem covers_of_sweeps (some_band : 0 ≤ S.bw_seen)
    (fits : lower + S.tune_count * S.bw_seen < 2 ^ 64) :
    2 * ((upper : Int) - lower - S.tune_count * S.bw_seen) + S.bw_seen % 2 ≤ 2 * S.tune_count := by
  obtain ⟨buf_len, made⟩ := built.tunes
  have some_hop := sweeps.some_hop
  rw [built.count] at some_hop
  obtain ⟨i, count⟩ : ∃ i : Nat, S.tune_count = i + 1 := ⟨S.tune_count.toNat - 1, by omega⟩
  have natural : S.tune_count.toNat = i + 1 := by omega
  rw [natural] at made
  have last := sweeps.last (hop lower S buf_len i) (by
    rw [made, List.getLast?_map, List.getLast?_range, if_neg (by omega), Nat.add_sub_cancel]
    rfl)
  have band := (hop_band buf_len (i := i) built.seen some_band (by
    rw [← count]
    exact fits)).2
  rw [band, built.count, count] at last
  rw [count]
  have covers : (2 * ((upper : ℚ) - lower - (i + 1) * S.bw_seen) + (S.bw_seen % 2 : Int)) ≤
      2 * (i + 1) := by
    push_cast at last
    linarith
  exact_mod_cast covers

theorem sweepable_hops (hertz : 1 ≤ max_size) (narrow : max_size < MINIMUM_RATE) :
    ¬ (upper - lower = 3 ∧ 2800001 ≤ 3 * (1 / (1 - crop)) ∧ 1 / (1 - crop) < 1000000) ∧
      (boxcar = true ∨ Rounds (upper - lower) crop) := by
  have small := small_of_sweeps before some_left nonneg ok built sweeps
  have survives := survives_of_ok ok
  have spread := spread_of_survives small some_left survives
  have one := one_of_survives small some_left (by omega) survives
  obtain ⟨k, s, e, stops, -, seen, slow, early, ok', -⟩ := settings_ok boxcar small
    nonneg some_left (by omega) hertz spread one
  have maximum : MAXIMUM_RATE = 2800000 := rfl
  have minimum : MINIMUM_RATE = 1000000 := rfl
  rw [giant_neg narrow] at ok'
  obtain rfl := Except.ok.inj (ok.symm.trans ok')
  have rate := built.rate_le sweeps
  dsimp only at rate
  constructor
  · rintro ⟨three, high, low⟩
    have covered := sweeps.span_le
    rw [built.count, built.seen] at covered
    rw [three] at stops early
    obtain ⟨rfl, slow⟩ := three_hops some_left stops high low
    have count := early.hops
    have seen := early.seen
    rw [if_pos slow] at count
    dsimp only at covered
    rw [count, seen] at covered
    omega
  · cases boxcar with
    | true => exact .inl rfl
    | false =>
      refine .inr fun p two tight => ?_
      by_contra high
      obtain ⟨rfl, first, some_rate, narrow⟩ := rounds_hops small some_left nonneg (by omega) stops
        two tight
      obtain ⟨passes, above⟩ := passes_high (w := ((upper - lower) / 1 : Nat)) some_rate first (by
        rw [Nat.div_one, Int.cast_natCast]
        exact not_lt.mp high)
      have exact_rate := early.passes rfl narrow
      rw [passes] at exact_rate
      omega

theorem sweepable_giant (wide : MINIMUM_RATE ≤ max_size) (high : upper < 2 ^ 63) :
    max_size ≤ MAXIMUM_RATE ∧ max_size ≤ (upper - lower : Nat) ∧
      2 * ((upper - lower : Nat) % max_size) + max_size % 2 ≤
        2 * ((upper - lower : Nat) / max_size) := by
  have small := small_of_sweeps before some_left nonneg ok built sweeps
  have minimum : MINIMUM_RATE = 1000000 := rfl
  obtain ⟨m, rfl⟩ := Int.eq_ofNat_of_zero_le (show 0 ≤ max_size by omega)
  obtain ⟨s, made⟩ : ∃ s, S = giant (upper - lower) m s := by
    obtain ⟨h, s₁, s, e, -, -, -, -, same⟩ := settings_eq_ok ok
    exact ⟨_, same⟩
  rw [giant_pos wide] at made
  have count : S.tune_count = ((upper - lower) / m : Nat) := by
    rw [made, Int.toNat_natCast]
    dsimp only
    rw [wrap_small (Nat.lt_of_le_of_lt (Nat.div_le_self _ m) small)]
  have band : S.bw_seen = m := by rw [made]
  have used : S.bw_used = m := by rw [made]
  have some_hop := sweeps.some_hop
  rw [built.count, count] at some_hop
  have covered : (upper - lower) / m * m ≤ upper - lower := Nat.div_mul_le_self _ m
  have left_out : (upper - lower) / m * m + (upper - lower) % m = upper - lower :=
    Nat.div_add_mod' _ m
  have covers := covers_of_sweeps built sweeps (by omega) (by
    rw [count, band]
    have most : (((upper - lower) / m : Nat) : Int) * m ≤ (upper - lower : Nat) := by
      exact_mod_cast covered
    omega)
  have rate := built.rate_le sweeps
  rw [count, band] at covers
  refine ⟨used ▸ rate, ?_, ?_⟩
  · have some : m ≤ upper - lower := by
      by_contra more
      rw [Nat.div_eq_of_lt (not_le.mp more)] at some_hop
      omega
    exact_mod_cast some
  · rw [← Int.natCast_mod, ← Int.natCast_div]
    have whole : (((upper - lower) / m : Nat) : Int) * m + ((upper - lower) % m : Nat) =
        (upper : Int) - lower := by
      have left_out : (((upper - lower) / m * m + (upper - lower) % m : Nat) : Int) =
        (upper - lower : Nat) := congrArg _ left_out
      rw [Int.natCast_add, Int.natCast_mul, Int.ofNat_sub before.le] at left_out
      exact left_out
    omega

end Plan

theorem wide_of_exit {boxcar : Bool} {max_size : Int} {S : Settings} (some_left : crop < 1)
    (nonneg : 0 ≤ crop) (ok : settings boxcar span max_size crop = .ok S)
    (many : MAX_TUNES < S.tune_count) :
    MINIMUM_RATE ≤ max_size ∧ MAX_TUNES < wrap (span / max_size.toNat) ∧ ¬ span < 2 ^ 31 := by
  have minimum : MINIMUM_RATE = 1000000 := rfl
  have hops : MAX_TUNES = 3000 := rfl
  rcases lt_or_ge max_size MINIMUM_RATE with narrow | wide
  · have few := (settings_hops some_left nonneg narrow ok).1
    omega
  · obtain ⟨h, s₁, s, e, -, -, -, -, made⟩ := settings_eq_ok ok
    rw [giant_pos wide] at made
    have count := congrArg Settings.tune_count made
    dsimp only at count
    rw [count] at many
    refine ⟨wide, many, fun small => ?_⟩
    have few : span / max_size.toNat < 2148 := by
      rw [Nat.div_lt_iff_lt_mul (by omega)]
      omega
    rw [wrap_small (by omega)] at many
    omega

/-- When `frequency_range` does what can be expected of it. -/
theorem meets_iff {boxcar : Bool} {lower upper : Nat} {max_size : Int} {crop : ℚ}
    (before : lower < upper) (high : upper < 2 ^ 63) (hertz : 1 ≤ max_size) (nonneg : 0 ≤ crop)
    (some_left : crop < 1) :
    Meets boxcar lower upper max_size crop ↔ Sweepable boxcar (upper - lower) max_size crop := by
  constructor
  · intro meets
    obtain ⟨S, ok⟩ : ∃ S, settings boxcar (upper - lower) max_size crop = .ok S := by
      cases made : settings boxcar (upper - lower) max_size crop with
      | ok S => exact ⟨S, rfl⟩
      | error e =>
        rw [Meets, frequency_range_eq, made, error_bind] at meets
        rcases meets with exited | ⟨p, ok, -⟩
        · cases exited
          exact absurd made (settings_ne_exited _ _ _ _)
        · cases ok
    have survives := survives_of_ok ok
    rw [Meets, frequency_range_of ok] at meets
    rcases build_cases lower S with ⟨many, exits⟩ | ⟨not_exited, plans⟩
    · obtain ⟨wide, many, large⟩ := wide_of_exit some_left nonneg ok many
      rw [Sweepable, if_neg large]
      exact ⟨wide, many, survives⟩
    · obtain ⟨p, made, sweeps⟩ := meets.resolve_left not_exited
      have built := plans p made
      have small := small_of_sweeps before some_left nonneg ok built sweeps
      rw [Sweepable, if_pos small]
      refine ⟨spread_of_survives small some_left survives,
        one_of_survives small some_left (by omega) survives, ?_⟩
      split
      · rename_i narrow
        exact sweepable_hops before some_left nonneg ok built sweeps hertz narrow
      · rename_i wide
        exact sweepable_giant before some_left nonneg ok built sweeps (not_lt.mp wide) high
  · intro sweepable
    rw [Sweepable] at sweepable
    split at sweepable
    · rename_i small
      obtain ⟨spread, one, rest⟩ := sweepable
      split at rest
      · rename_i narrow
        exact meets_hops before high hertz nonneg some_left small spread one narrow rest.1 rest.2
      · rename_i wide
        exact meets_giant before high hertz nonneg some_left small spread one (not_lt.mp wide) rest.1
          rest.2.1 rest.2.2
    · exact meets_exit some_left nonneg sweepable.1 sweepable.2.1 sweepable.2.2

theorem meets_iff_fm : Meets true 88000000 108000000 125000 (1 / 5) := by
  refine (meets_iff (by decide) (by decide) (by decide) (by norm_num) (by norm_num)).mpr ?_
  rw [Sweepable, if_pos (by decide), if_pos (by decide)]
  norm_num

/-- Giant bins leave out a megahertz of three; with passes, a hertz is sampled with almost 4 MHz; a
span of `2 ^ 32` Hz is taken for none. -/
theorem not_meets : ¬ Meets true 100000000 103000000 2000000 0 ∧ ¬ Meets false 0 1 1 (47 / 100) ∧
    ¬ Meets true 0 4294967296 1000 0 := by
  refine ⟨?_, ?_, ?_⟩
  · have made : frequency_range true 100000000 103000000 2000000 0 = .ok ⟨1, 2000000,
        [⟨101000000, 2000000, 0, 0, 1, 0, 16384⟩]⟩ := by decide +kernel
    rw [Meets, made]
    rintro (exited | ⟨p, ok, sweeps⟩)
    · cases exited
    · cases ok
      exact absurd sweeps.span_le (by decide)
  · have made : frequency_range false 0 1 1 (47 / 100) = .ok ⟨1, 1,
        [⟨0, 3956890, 1, 47 / 100, 2097152, 21, 8388608⟩]⟩ := by decide +kernel
    rw [Meets, made]
    rintro (exited | ⟨p, ok, sweeps⟩)
    · cases exited
    · cases ok
      exact absurd (sweeps.rate _ List.mem_cons_self) (by decide)
  · have made : frequency_range true 0 4294967296 1000 0 = .error .division_by_zero := by
      decide +kernel
    rw [Meets, made]
    rintro (exited | ⟨p, ok, -⟩)
    · cases exited
    · cases ok

end Soapy.Rtl.Power
