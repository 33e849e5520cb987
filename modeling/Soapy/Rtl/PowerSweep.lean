import Mathlib

/-! # The sweep plan of `rtl_power`

`frequency_range` cuts a span of frequencies into hops. Doubles are taken for rationals. An `int` is
an integer whose range is checked where the C code computes it; a `uint64_t` that is assigned to an
`int` is cut to 32 bits.
-/

namespace Soapy.Rtl.Power

def DEFAULT_BUF_LENGTH : Int := 1 * 16384

def MAXIMUM_RATE : Int := 2800000

def MINIMUM_RATE : Int := 1000000

def MAX_TUNES : Int := 3000

/-- How `frequency_range` ends without a plan. -/
inductive Stop where
  | exited
  | division_by_zero
  | overflow
deriving DecidableEq

/-- The result of an operation on `int`s, or of a conversion of a double. -/
def int (v : Int) : Except Stop Int :=
  if -2 ^ 31 ≤ v ∧ v < 2 ^ 31 then .ok v else .error .overflow

/-- A `uint64_t` that is assigned to an `int`. -/
def wrap (v : Nat) : Int := (v : Int).bmod (2 ^ 32)

/-- A double loses its fraction when it becomes an `int`. -/
def truncate (x : ℚ) : Int := if 0 ≤ x then ⌊x⌋ else ⌈x⌉

structure Hops where
  tune_count : Int
  bw_seen : Int
  bw_used : Int
deriving DecidableEq

/-- `evenly sized ranges, as close to MAXIMUM_RATE as possible`. -/
def hops (span : Nat) (crop : ℚ) (h : Hops) : List Nat → Except Stop Hops
  | [] => .ok h
  | i :: rest => do
    let bw_seen := wrap (span / i)
    let bw_used ← int (truncate (bw_seen / (1 - crop)))
    if bw_used > MAXIMUM_RATE then hops span crop { h with bw_seen, bw_used } rest
    else .ok ⟨i, bw_seen, bw_used⟩

structure Settings where
  tune_count : Int
  bw_seen : Int
  bw_used : Int
  bin_e : Nat
  crop : ℚ
  downsample : Int
  downsample_passes : Nat
deriving DecidableEq

/-- `unless small bandwidth`. -/
def narrow (crop : ℚ) (h : Hops) : Except Stop Settings :=
  if h.bw_used < MINIMUM_RATE then
    if h.bw_used = 0 then .error .division_by_zero
    else do
      let downsample ← int (MAXIMUM_RATE.tdiv h.bw_used)
      let bw_used ← int (h.bw_used * downsample)
      .ok ⟨1, h.bw_seen, bw_used, 0, crop, downsample, 0⟩
  else .ok ⟨h.tune_count, h.bw_seen, h.bw_used, 0, crop, 1, 0⟩

/-- `if (!boxcar && downsample > 1)`. -/
def filtered (boxcar : Bool) (s : Settings) : Except Stop Settings :=
  if !boxcar && decide (s.downsample > 1) then do
    let downsample_passes := Nat.log 2 s.downsample.toNat
    let seen ← int (s.bw_seen * 2 ^ downsample_passes)
    let bw_used ← int (truncate (seen / (1 - s.crop)))
    .ok { s with bw_used, downsample := 2 ^ downsample_passes, downsample_passes }
  else .ok s

/-- `number of bins is power-of-two, bin size is under limit`. -/
def bins (bw_used downsample max_size : Int) (bin_e : Nat) : List Nat → Except Stop Nat
  | [] => .ok bin_e
  | i :: rest => do
    let parts ← int (2 ^ i * downsample)
    if parts = 0 then .error .division_by_zero
    else if (bw_used : ℚ) / parts ≤ max_size then .ok i
    else bins bw_used downsample max_size i rest

/-- `unless giant bins`. -/
def giant (span : Nat) (max_size : Int) (s : Settings) : Settings :=
  if max_size ≥ MINIMUM_RATE then
    { s with
      bw_seen := max_size
      bw_used := max_size
      tune_count := wrap (span / max_size.toNat)
      bin_e := 0
      crop := 0 }
  else s

def settings (boxcar : Bool) (span : Nat) (max_size : Int) (crop : ℚ) : Except Stop Settings := do
  let h ← hops span crop ⟨0, 0, 0⟩ (List.range' 1 1499)
  let s ← narrow crop h
  let s ← filtered boxcar s
  let bin_e ← bins s.bw_used s.downsample max_size 0 (List.range' 1 21)
  .ok (giant span max_size { s with bin_e })

/-- `struct tuning_state`. -/
structure Tune where
  freq : Nat
  rate : Int
  bin_e : Nat
  crop : ℚ
  downsample : Int
  downsample_passes : Nat
  buf_len : Int
deriving DecidableEq

def tune (lower : Nat) (s : Settings) (buf_len : Int) (i : Nat) : Except Stop Tune := do
  let offset ← int (i * s.bw_seen)
  .ok ⟨((lower + offset + s.bw_seen.tdiv 2) % 2 ^ 64).toNat, s.bw_used, s.bin_e, s.crop,
    s.downsample, s.downsample_passes, buf_len⟩

def tunes (lower : Nat) (s : Settings) (buf_len : Int) : List Nat → Except Stop (List Tune)
  | [] => .ok []
  | i :: rest => do
    let t ← tune lower s buf_len i
    let later ← tunes lower s buf_len rest
    .ok (t :: later)

structure Plan where
  tune_count : Int
  bw_seen : Int
  tunes : List Tune
deriving DecidableEq

/-- `build the array`, and what is computed for the report. -/
def build (lower : Nat) (s : Settings) : Except Stop Plan := do
  if s.tune_count > MAX_TUNES then .error .exited
  else
    let block ← int (2 * 2 ^ s.bin_e * s.downsample)
    let buf_len := if block < DEFAULT_BUF_LENGTH then DEFAULT_BUF_LENGTH else block
    let tunes ← tunes lower s buf_len (List.range s.tune_count.toNat)
    let _ ← int (s.tune_count * 2 ^ s.bin_e)
    if s.bw_used = 0 then .error .division_by_zero
    else .ok ⟨s.tune_count, s.bw_seen, tunes⟩

def frequency_range (boxcar : Bool) (lower upper : Nat) (max_size : Int) (crop : ℚ) :
    Except Stop Plan := do
  build lower (← settings boxcar (upper - lower) max_size crop)

/-- The visible band of a hop. -/
def Plan.left (p : Plan) (t : Tune) : ℚ := t.freq - p.bw_seen / 2

def Plan.right (p : Plan) (t : Tune) : ℚ := t.freq + p.bw_seen / 2

/-- No hop is too fast, the bands lie side by side and leave out at most a hertz for each hop, the
    bins are as narrow as they were asked for, and a buffer has room for a block of the FFT. -/
structure Plan.Sweeps (p : Plan) (lower upper : Nat) (max_size : Int) : Prop where
  count : p.tunes.length = p.tune_count
  some_hop : 1 ≤ p.tune_count
  few : p.tune_count ≤ MAX_TUNES
  rate : ∀ t ∈ p.tunes, t.rate ≤ MAXIMUM_RATE
  adjoin : p.tunes.IsChain fun t t' => p.right t = p.left t'
  first : ∀ t ∈ p.tunes.head?, p.left t ≤ lower
  last : ∀ t ∈ p.tunes.getLast?, upper ≤ p.right t + p.tune_count
  bin : ∀ t ∈ p.tunes, t.bin_e < 21 → (t.rate : ℚ) / (2 ^ t.bin_e * t.downsample) ≤ max_size
  block : ∀ t ∈ p.tunes, 2 * 2 ^ t.bin_e * t.downsample ≤ t.buf_len

/-- What can be expected of `frequency_range`. -/
def Meets (boxcar : Bool) (lower upper : Nat) (max_size : Int) (crop : ℚ) : Prop :=
  frequency_range boxcar lower upper max_size crop = .error .exited ∨
    ∃ p, frequency_range boxcar lower upper max_size crop = .ok p ∧ p.Sweeps lower upper max_size

end Soapy.Rtl.Power
