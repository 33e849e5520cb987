import Soapy.Rtl.R82xxRegisters
import Soapy.Rtl.TunerDevice

/-! # The PLL of the R820T

Both algorithms that program the PLL. The local oscillator is the VCO behind a divider; the VCO is
twice the crystal times a number with an integer part of 8 bits and a fraction of 16 bits.
-/

namespace Soapy.Rtl.R82xx

open Lib
open Soapy.Rtl.Tuner (RafaelChip)

/-- `struct r82xx_priv` with its configuration, as far as the PLL reads it. `reads` counts the
times the status was read. -/
structure Pll where
  priv : Priv
  xtal : UInt32
  vco_algo : UInt8
  vco_curr_min : UInt8
  vco_curr_max : UInt8
  rafael_chip : RafaelChip
  disable_dither : Int32
  last_vco_curr : UInt8
  tuner_pll_set : Int32
  has_lock : Int32
  reads : Nat

/-- What the status registers from 0 on read, with their bits in order, or the error. -/
abbrev Status := Nat → Except Int (Nat → UInt8)

/-- A negative result is returned at once; nothing comes back from a write without end. -/
abbrev Act (α : Type) := ExceptT Int (StateT Pll Option) α

def wrote (write : Priv → Option (Int × Priv)) : Act Unit := ExceptT.mk fun t =>
  (write t.priv).map fun (rc, p) => (if rc < 0 then .error rc else .ok (), { t with priv := p })

def write_reg (usb : Bus) (p : Priv) (reg val : UInt8) : Option (Int × Priv) :=
  write_arr usb p reg.toNat [val]

/-- `r82xx_read` of registers from 0 on. -/
def read_status (status : Status) : Act (Nat → UInt8) := ExceptT.mk fun t =>
  some (match status t.reads with
    | .error rc => .error (if rc < 0 then rc else -1)
    | .ok data => .ok data, { t with reads := t.reads + 1 })

def vco_min_yc : UInt32 := 1770000000

def vco_max_yc : UInt32 := 3900000000

def div_num_yc (freq : UInt32) : Nat :=
  ((List.range 5).find? fun div_num =>
    let vco_exact := freq <<< UInt32.ofNat (div_num + 1)
    decide (vco_min_yc ≤ vco_exact ∧ vco_exact ≤ vco_max_yc)).getD 5

/-- The loop over `n_sdm`, of which so many rounds are left. -/
def sdm_bits (pll_ref : UInt32) : Nat → (vco_frac : UInt32) → (sdm : UInt16) → UInt16
  | 0, _, sdm => sdm
  | rounds + 1, vco_frac, sdm =>
    let n_sdm := 15 - rounds
    let con_frac := pll_ref >>> UInt32.ofNat n_sdm
    if con_frac ≤ vco_frac then
      let sdm := sdm ||| (0x8000 >>> UInt16.ofNat n_sdm)
      if vco_frac - con_frac = 0 then sdm
      else sdm_bits pll_ref rounds (vco_frac - con_frac) sdm
    else sdm_bits pll_ref rounds vco_frac sdm

def write_fraction_yc (usb : Bus) (pll_ref vco_frac : UInt32) : Act Unit := do
  if vco_frac = 0 then wrote (write_reg_mask usb · 0x12 0x08 0x08)
  else
    let sdm := sdm_bits pll_ref 16 (vco_frac + (pll_ref >>> 16)) 0
    wrote (write_reg usb · 0x15 (sdm &&& 0xff).toUInt8)
    wrote (write_reg usb · 0x16 (sdm >>> 8).toUInt8)
    wrote (write_reg_mask usb · 0x12 0x00 0x08)

def set_pll_yc (usb : Bus) (status : Status) (freq : UInt32) : Act Int := do
  let t ← get
  let pll_ref := t.xtal
  let pll_ref_2x := pll_ref * 2
  let div_num := div_num_yc freq
  let vco_exact := freq <<< UInt32.ofNat (div_num + 1)
  let nint := ((vco_exact + (pll_ref >>> 16)) / pll_ref_2x).toUInt8
  let vco_frac := vco_exact - pll_ref_2x * nint.toUInt32
  let nint := nint - 13
  let ni := nint >>> 2
  let si := nint - (ni <<< 2)
  wrote (write_reg_mask usb · 0x10 (UInt8.ofNat div_num <<< 5) 0xe0)
  wrote (write_reg_mask usb · 0x12 (if t.disable_dither ≠ 0 then 0x10 else 0x00) 0x18)
  wrote (write_reg usb · 0x14 (ni + (si <<< 6)))
  write_fraction_yc usb pll_ref vco_frac
  modify fun t => { t with tuner_pll_set := 1 }
  let data ← read_status status
  if data 2 &&& 0x40 = 0 then
    modify fun t => { t with has_lock := 0 }
    return -1
  else
    modify fun t => { t with has_lock := 1 }
    return 0

/-- `while (div_buf > 2)`: the number of halvings. -/
def halvings : Nat → (div_buf div_num : UInt8) → UInt8
  | 0, _, div_num => div_num
  | fuel + 1, div_buf, div_num =>
    if 2 < div_buf then halvings fuel (div_buf >>> 1) (div_num + 1) else div_num

/-- `while (mix_div <= 64)`: `mix_div` and `div_num`. After the last divider 128 is left, and 0. -/
def mix_search (freq_khz vco_min vco_max : UInt32) : Nat → (mix_div : UInt8) → UInt8 × UInt8
  | 0, mix_div => (mix_div, 0)
  | fuel + 1, mix_div =>
    if mix_div ≤ 64 then
      if vco_min ≤ freq_khz * mix_div.toUInt32 ∧ freq_khz * mix_div.toUInt32 < vco_max then
        (mix_div, halvings 5 mix_div 0)
      else mix_search freq_khz vco_min vco_max fuel (mix_div <<< 1)
    else (mix_div, 0)

/-- The bounds of the VCO in kHz. -/
def vco_min_khz : UInt32 := 1770000

def vco_max_khz (vco_algo : UInt8) : UInt32 := if vco_algo = 0 then vco_min_khz * 2 else 3900000

def Pll.dividers (t : Pll) (freq : UInt32) : UInt8 × UInt8 :=
  mix_search ((freq + 500) / 1000) vco_min_khz (vco_max_khz t.vco_algo) 6 2

def Pll.vco_power_ref (t : Pll) : UInt8 := if t.rafael_chip = .CHIP_R828D then 1 else 2

def Pll.vco_div (t : Pll) (freq : UInt32) : UInt64 :=
  let vco_freq := freq.toUInt64 * (t.dividers freq).1.toUInt64
  (t.xtal.toUInt64 + 65536 * vco_freq) / (2 * t.xtal).toUInt64

def Pll.curr (limit other : UInt8) : UInt8 := if limit = 0xff then other else limit <<< 5

def set_vco_curr (usb : Bus) (curr : UInt8) : Act Unit := do
  let t ← get
  if t.last_vco_curr ≠ curr then
    wrote (write_reg_mask usb · 0x12 curr 0xe0)
    modify fun t => { t with last_vco_curr := curr }

def wait_lock (usb : Bus) (status : Status) (vco_curr_min vco_curr_max : UInt8) :
    Act (Nat → UInt8) := do
  let data ← read_status status
  if data 2 &&& 0x40 ≠ 0 ∨ vco_curr_max = vco_curr_min then return data
  else
    set_vco_curr usb vco_curr_max
    read_status status

/-- The integer part goes to one register, the fraction to two. The differences are signed, and
the division rounds to zero. -/
def write_divider (usb : Bus) (disable_dither : Int32) (nint : UInt8) (sdm : UInt32) :
    Act Unit := do
  let ni := UInt8.ofInt (Int.tdiv ((nint.toNat : Int) - 13) 4)
  let si := UInt8.ofInt ((nint.toNat : Int) - 4 * ni.toNat - 13)
  wrote (write_reg usb · 0x14 (ni + (si <<< 6)))
  let val : UInt8 := if sdm = 0 then 0x08 else 0x00
  let val := if disable_dither ≠ 0 then val ||| 0x10 else val
  wrote (write_reg_mask usb · 0x12 val 0x18)
  wrote (write_reg usb · 0x16 (sdm >>> 8).toUInt8)
  wrote (write_reg usb · 0x15 (sdm &&& 0xff).toUInt8)

def Pll.nint (t : Pll) (freq : UInt32) : UInt8 := (t.vco_div freq / 65536).toUInt32.toUInt8

def Pll.sdm (t : Pll) (freq : UInt32) : UInt32 := (t.vco_div freq % 65536).toUInt32

abbrev Pll.Refused (t : Pll) (freq : UInt32) : Prop := 128 / t.vco_power_ref - 1 < t.nint freq

/-- `div_num` after the fine tuning of the VCO was looked at. -/
def Pll.tuned_div_num (t : Pll) (freq : UInt32) (vco_fine_tune : UInt8) : UInt8 :=
  let div_num := (t.dividers freq).2
  if t.vco_power_ref < vco_fine_tune then div_num - 1
  else if vco_fine_tune < t.vco_power_ref then div_num + 1
  else div_num

/-- `r82xx_set_pll` from the divider on, with what it computed from `t`. -/
def set_divider_mix (usb : Bus) (status : Status) (t : Pll) (freq : UInt32)
    (vco_curr_min vco_curr_max : UInt8) : Act Int := do
  if t.Refused freq then return -1
  else
    write_divider usb t.disable_dither (t.nint freq) (t.sdm freq)
    modify fun t => { t with tuner_pll_set := 1 }
    let data ← wait_lock usb status vco_curr_min vco_curr_max
    if data 2 &&& 0x40 = 0 then
      modify fun t => { t with has_lock := 0 }
      return -1
    else
      modify fun t => { t with has_lock := 1 }
      wrote (write_reg_mask usb · 0x1a 0x08 0x08)
      return 0

/-- `r82xx_set_pll` with another `vco_algo` than 2. -/
def set_pll_mix (usb : Bus) (status : Status) (freq : UInt32) : Act Int := do
  let t ← get
  let vco_curr_min := Pll.curr t.vco_curr_min 0x80
  let vco_curr_max := Pll.curr t.vco_curr_max 0x60
  wrote (write_reg_mask usb · 0x10 0 0x10)
  wrote (write_reg_mask usb · 0x1a 0x00 0x0c)
  set_vco_curr usb vco_curr_min
  let data ← read_status status
  let div_num := t.tuned_div_num freq ((data 4 &&& 0x30) >>> 4)
  wrote (write_reg_mask usb · 0x10 (div_num <<< 5) 0xe0)
  set_divider_mix usb status t freq vco_curr_min vco_curr_max

def set_pll (usb : Bus) (status : Status) (freq : UInt32) : Act Int := do
  modify fun t => { t with tuner_pll_set := 0 }
  let t ← get
  if t.vco_algo = 2 then
    set_vco_curr usb (Pll.curr t.vco_curr_max 0x60)
    set_pll_yc usb status freq
  else set_pll_mix usb status freq

def Priv.shadow (p : Priv) (reg : UInt8) : UInt8 := p.regs (reg.toNat - REG_SHADOW_START)

/-- `SEL_DIV`: the mixer gets the VCO divided by twice this power of 2. -/
def Priv.sel_div (p : Priv) : Nat := (p.shadow 0x10 >>> 5).toNat

/-- `4*Ni + Si + 13` -/
def Priv.integer (p : Priv) : Nat :=
  4 * (p.shadow 0x14 &&& 0x3f).toNat + (p.shadow 0x14 >>> 6).toNat + 13

/-- `SDM_IN`, or 0 where `PW_SDM` disables it. -/
def Priv.fraction (p : Priv) : Nat :=
  if p.shadow 0x12 &&& 0x08 ≠ 0 then 0
  else (p.shadow 0x16).toNat * 256 + (p.shadow 0x15).toNat

theorem Priv.fraction_off {p : Priv} (off : p.shadow 0x12 &&& 0x08 ≠ 0) : p.fraction = 0 :=
  if_pos off

theorem Priv.fraction_on {p : Priv} (on : p.shadow 0x12 &&& 0x08 = 0) :
    p.fraction = (p.shadow 0x16).toNat * 256 + (p.shadow 0x15).toNat :=
  if_neg (not_not.mpr on)

section Bits

theorem byte_forall {P : UInt8 → Prop} (all : ∀ n < 256, P (UInt8.ofNat n)) (b : UInt8) : P b := by
  have here := all b.toNat b.toNat_lt
  rwa [UInt8.ofNat_toNat] at here

theorem merged_bits (old val : UInt8) {mask bits : UInt8} (part : mask &&& bits = bits) :
    ((old &&& ~~~ mask) ||| (val &&& mask)) &&& bits = val &&& bits := by
  apply UInt8.eq_of_toBitVec_eq
  apply BitVec.eq_of_getLsbD_eq
  intro i _
  have bit := congrArg (fun x : UInt8 => x.toBitVec.getLsbD i) part
  simp only [UInt8.toBitVec_and, UInt8.toBitVec_or, UInt8.toBitVec_not, BitVec.getLsbD_and,
    BitVec.getLsbD_or, BitVec.getLsbD_not] at bit ⊢
  rw [← bit]
  cases mask.toBitVec.getLsbD i <;> simp

theorem sel_div_bits (old : UInt8) {div_num : Nat} (few : div_num < 8) :
    (((old &&& ~~~ (0xe0 : UInt8)) ||| ((UInt8.ofNat div_num <<< 5) &&& 0xe0)) >>> 5).toNat =
      div_num := by
  have top (x : UInt8) : x >>> 5 = (x &&& 0xe0) >>> 5 := by
    revert x
    exact byte_forall (by decide +kernel)
  have each : ∀ d < 8, (((UInt8.ofNat d <<< 5) &&& 0xe0) >>> 5).toNat = d := by decide
  rw [top, merged_bits old _ (by decide)]
  exact each div_num few

/-- `Ni` in six bits and `Si` in two give the number back. -/
theorem divider_bits (n : UInt8) :
    4 * (((n >>> 2) + ((n - ((n >>> 2) <<< 2)) <<< 6)) &&& 0x3f).toNat +
      (((n >>> 2) + ((n - ((n >>> 2) <<< 2)) <<< 6)) >>> 6).toNat = n.toNat := by
  revert n
  exact byte_forall (by decide +kernel)

/-- The same for the signed computation, if the number is 13 at least. -/
theorem divider_bits_mix (nint : UInt8) (enough : 13 ≤ nint.toNat) :
    let ni := UInt8.ofInt (Int.tdiv ((nint.toNat : Int) - 13) 4)
    let si := UInt8.ofInt ((nint.toNat : Int) - 4 * ni.toNat - 13)
    4 * ((ni + (si <<< 6)) &&& 0x3f).toNat + ((ni + (si <<< 6)) >>> 6).toNat + 13 =
      nint.toNat := by
  revert nint
  exact byte_forall (by decide +kernel)

theorem low_byte (n : Nat) : n &&& 255 = n % 256 := Nat.and_two_pow_sub_one_eq_mod n 8

theorem sdm_halves (sdm : UInt16) :
    (sdm >>> 8).toUInt8.toNat * 256 + (sdm &&& 0xff).toUInt8.toNat = sdm.toNat := by
  have word := sdm.toNat_lt
  simp [low_byte, Nat.shiftRight_eq_div_pow]
  omega

theorem sdm_halves_mix {sdm : UInt32} (word : sdm.toNat < 65536) :
    (sdm >>> 8).toUInt8.toNat * 256 + (sdm &&& 0xff).toUInt8.toNat = sdm.toNat := by
  simp [low_byte, Nat.shiftRight_eq_div_pow]
  omega

end Bits

/-- A byte of one register got through. -/
def Priv.put (p : Priv) (reg val : UInt8) : Priv :=
  (p.stored reg.toNat [val]).after
    [⟨reg.toNat, [p.override (reg.toNat - REG_SHADOW_START) val]⟩] [reg.toNat - REG_SHADOW_START]

def Pll.put (t : Pll) (reg val : UInt8) : Pll := { t with priv := t.priv.put reg val }

theorem Priv.put_same (p : Priv) {reg : UInt8} (val : UInt8) (known : Shadowed reg := by decide) :
    (p.put reg val).shadow reg = val :=
  @Priv.stored_regs p _ known.1 [val] 0 Nat.one_pos

theorem Priv.put_other (p : Priv) {reg r : UInt8} (val : UInt8)
    (known : Shadowed reg := by decide) (known' : Shadowed r := by decide)
    (other : r ≠ reg := by decide) : (p.put reg val).shadow r = p.shadow r := by
  have start := known.1
  have start' := known'.1
  have differ : r.toNat ≠ reg.toNat := fun equal => other (UInt8.toNat_inj.mp equal)
  apply Memory.store_outside
  rw [List.length_singleton]
  omega

def succeeding : Bus := fun _ => none

theorem write_arr_single {p : Priv} (limit : 2 ≤ p.max_i2c_msg_len) {reg : UInt8}
    (shadowed : Shadowed reg) (val : UInt8) :
    write_arr succeeding p reg.toNat [val] = some (0, p.put reg val) := by
  have inside : reg.toNat + [val].length ≤ REG_SHADOW_START + NUM_REGS := shadowed.2
  have size : min ((p.stored reg.toNat [val]).max_i2c_msg_len - 1) [val].length = 1 := by
    change min (p.max_i2c_msg_len - 1) 1 = 1
    omega
  have step := write_chunks_succ succeeding 1 (p.stored reg.toNat [val]) reg.toNat 0 [val]
  rw [size] at step
  rw [write_arr, p.shadow_store_eq shadowed.1 inside]
  exact step

/-- The action returns `a`, and leaves this behind. -/
def Does {α : Type} (act : Act α) (t : Pll) (a : α) (t' : Pll) : Prop :=
  act t = some (.ok a, t')

section Rules

variable {α β : Type} {act : Act α} {next : α → Act β} {t t' t'' : Pll} {a : α} {b : β}

theorem Does.bind (first : Does act t a t') (second : Does (next a) t' b t'') :
    Does (act >>= next) t b t'' := by
  change (act t).bind _ = _
  rw [show act t = some (.ok a, t') from first]
  exact second

theorem Does.pure (a : α) (t : Pll) : Does (pure a) t a t := rfl

theorem does_get (t : Pll) : Does get t t t := rfl

theorem does_modify (f : Pll → Pll) (t : Pll) : Does (modify f) t () (f t) := rfl

theorem does_write_reg (limit : 2 ≤ t.priv.max_i2c_msg_len) {reg : UInt8}
    (shadowed : Shadowed reg) (val : UInt8) :
    Does (wrote (write_reg succeeding · reg val)) t () (t.put reg val) := by
  change (write_arr succeeding t.priv reg.toNat [val]).map _ = _
  rw [write_arr_single limit shadowed]
  rfl

theorem does_write_reg_mask (limit : 2 ≤ t.priv.max_i2c_msg_len) {reg : UInt8}
    (shadowed : Shadowed reg) (val mask : UInt8) :
    Does (wrote (write_reg_mask succeeding · reg val mask)) t ()
      (t.put reg (t.priv.merged reg val mask)) := by
  change (write_reg_mask succeeding t.priv reg val mask).map _ = _
  rw [write_reg_mask_shadowed _ _ shadowed, write_arr_single limit shadowed]
  rfl

theorem does_read {status : Status} {data : Nat → UInt8} (reads : status t.reads = .ok data) :
    Does (read_status status) t data { t with reads := t.reads + 1 } := by
  change some _ = _
  rw [reads]

end Rules

/-- What the registers stand for. -/
structure Shows (p : Priv) (sel_div integer fraction : Nat) : Prop where
  sel_div : p.sel_div = sel_div
  integer : p.integer = integer
  fraction : p.fraction = fraction

def vco_exact_yc (freq : UInt32) : UInt32 := freq <<< UInt32.ofNat (div_num_yc freq + 1)

def nint_yc (pll_ref freq : UInt32) : UInt8 :=
  ((vco_exact_yc freq + (pll_ref >>> 16)) / (pll_ref * 2)).toUInt8

def vco_frac_yc (pll_ref freq : UInt32) : UInt32 :=
  vco_exact_yc freq - pll_ref * 2 * (nint_yc pll_ref freq).toUInt32

def sdm_yc (pll_ref freq : UInt32) : Nat :=
  if vco_frac_yc pll_ref freq = 0 then 0
  else (sdm_bits pll_ref 16 (vco_frac_yc pll_ref freq + (pll_ref >>> 16)) 0).toNat

theorem div_num_yc_le (freq : UInt32) : div_num_yc freq ≤ 5 := by
  unfold div_num_yc
  cases found : (List.range 5).find? _ with
  | none => exact le_rfl
  | some d =>
    have below := List.mem_range.mp (List.mem_of_find?_eq_some found)
    exact le_of_lt below

theorem mix_search_spec (freq_khz vco_min vco_max : UInt32) {k fuel : Nat} (rest : k + fuel = 6) :
    mix_search freq_khz vco_min vco_max fuel (UInt8.ofNat (2 ^ (k + 1))) = (128, 0) ∨
      ∃ i < 6, mix_search freq_khz vco_min vco_max fuel (UInt8.ofNat (2 ^ (k + 1))) =
          (UInt8.ofNat (2 ^ (i + 1)), UInt8.ofNat i) ∧
        vco_min ≤ freq_khz * (UInt8.ofNat (2 ^ (i + 1))).toUInt32 ∧
        freq_khz * (UInt8.ofNat (2 ^ (i + 1))).toUInt32 < vco_max := by
  induction fuel generalizing k with
  | zero =>
    obtain rfl : k = 6 := rest
    exact Or.inl rfl
  | succ fuel ih =>
    have inside : k < 6 := by omega
    have small : ∀ k < 6, UInt8.ofNat (2 ^ (k + 1)) ≤ 64 := by decide
    have double : ∀ k < 6, UInt8.ofNat (2 ^ (k + 1)) <<< 1 = UInt8.ofNat (2 ^ (k + 2)) := by
      decide
    have halved : ∀ k < 6, halvings 5 (UInt8.ofNat (2 ^ (k + 1))) 0 = UInt8.ofNat k := by decide
    rw [mix_search, if_pos (small k inside), double k inside, halved k inside]
    by_cases fits : vco_min ≤ freq_khz * (UInt8.ofNat (2 ^ (k + 1))).toUInt32 ∧
        freq_khz * (UInt8.ofNat (2 ^ (k + 1))).toUInt32 < vco_max
    · rw [if_pos fits]
      exact Or.inr ⟨k, inside, rfl, fits⟩
    · rw [if_neg fits]
      exact ih (by omega)

theorem Pll.sdm_toNat (t : Pll) (freq : UInt32) :
    (t.sdm freq).toNat = (t.vco_div freq).toNat % 65536 := by
  have word : (t.vco_div freq).toNat % 65536 < 65536 := Nat.mod_lt _ (by decide)
  simp [Pll.sdm]
  omega

theorem Pll.div_num_few (t : Pll) (freq : UInt32) :
    ∃ d < 6, (t.dividers freq).2 = UInt8.ofNat d := by
  cases mix_search_spec ((freq + 500) / 1000) vco_min_khz (vco_max_khz t.vco_algo)
      (show 0 + 6 = 6 from rfl) with
  | inl none => exact ⟨0, by decide, congrArg Prod.snd none⟩
  | inr found =>
    obtain ⟨i, inside, found, -⟩ := found
    exact ⟨i, inside, congrArg Prod.snd found⟩

def Locks (data : Nat → Nat → UInt8) : Prop := ∀ n, data n 2 &&& 0x40 ≠ 0

section Runs

variable {t : Pll} {data : Nat → Nat → UInt8}

section

variable (limit : 2 ≤ t.priv.max_i2c_msg_len)
include limit

theorem write_fraction_yc_does (pll_ref vco_frac : UInt32) :
    ∃ t', Does (write_fraction_yc succeeding pll_ref vco_frac) t () t' ∧ t'.xtal = t.xtal ∧
      t'.priv.shadow 0x10 = t.priv.shadow 0x10 ∧ t'.priv.shadow 0x14 = t.priv.shadow 0x14 ∧
      t'.priv.fraction = if vco_frac = 0 then 0
        else (sdm_bits pll_ref 16 (vco_frac + (pll_ref >>> 16)) 0).toNat := by
  unfold write_fraction_yc
  by_cases whole : vco_frac = 0
  · simp only [if_pos whole]
    refine ⟨_, does_write_reg_mask limit (by decide) 0x08 0x08, rfl,
      t.priv.put_other _,
      t.priv.put_other _, Priv.fraction_off ?_⟩
    rw [Pll.put, t.priv.put_same _, Priv.merged, merged_bits _ _ (by decide)]
    decide
  · simp only [if_neg whole]
    generalize sdm_bits pll_ref 16 (vco_frac + (pll_ref >>> 16)) 0 = sdm
    let t₁ := t.put 0x15 (sdm &&& 0xff).toUInt8
    let t₂ := t₁.put 0x16 (sdm >>> 8).toUInt8
    let t₃ := t₂.put 0x12 (t₂.priv.merged 0x12 0x00 0x08)
    have first : Does (wrote (write_reg succeeding · 0x15 (sdm &&& 0xff).toUInt8)) t () t₁ :=
      does_write_reg limit (by decide) _
    have second : Does (wrote (write_reg succeeding · 0x16 (sdm >>> 8).toUInt8)) t₁ () t₂ :=
      does_write_reg (show 2 ≤ t₁.priv.max_i2c_msg_len from limit) (by decide) _
    have third : Does (wrote (write_reg_mask succeeding · 0x12 0x00 0x08)) t₂ () t₃ :=
      does_write_reg_mask (show 2 ≤ t₂.priv.max_i2c_msg_len from limit) (by decide) _ _
    have other (reg : UInt8) (known : Shadowed reg)
        (apart : reg ≠ 0x12 ∧ reg ≠ 0x16 ∧ reg ≠ 0x15) :
        t₃.priv.shadow reg = t.priv.shadow reg := by
      calc t₃.priv.shadow reg = t₂.priv.shadow reg :=
            t₂.priv.put_other _ (by decide) known apart.1
        _ = t₁.priv.shadow reg := t₁.priv.put_other _ (by decide) known apart.2.1
        _ = t.priv.shadow reg := t.priv.put_other _ (by decide) known apart.2.2
    have on : t₃.priv.shadow 0x12 &&& 0x08 = 0 := by
      have mode : t₃.priv.shadow 0x12 = t₂.priv.merged 0x12 0x00 0x08 :=
        t₂.priv.put_same _
      rw [mode, Priv.merged, merged_bits _ _ (by decide)]
      decide
    have high : t₃.priv.shadow 0x16 = (sdm >>> 8).toUInt8 :=
      (t₂.priv.put_other _).trans
        (t₁.priv.put_same _)
    have low : t₃.priv.shadow 0x15 = (sdm &&& 0xff).toUInt8 :=
      (t₂.priv.put_other _).trans
        ((t₁.priv.put_other _).trans
          (t.priv.put_same _))
    refine ⟨t₃, first.bind (second.bind third), rfl, other 0x10 (by decide) (by decide),
      other 0x14 (by decide) (by decide), ?_⟩
    rw [Priv.fraction_on on, high, low]
    exact sdm_halves sdm

theorem set_pll_yc_does (locks : Locks data) (freq : UInt32) :
    ∃ t', Does (set_pll_yc succeeding (fun n => .ok (data n)) freq) t 0 t' ∧ t'.xtal = t.xtal ∧
      Shows t'.priv (div_num_yc freq) ((nint_yc t.xtal freq - 13).toNat + 13)
        (sdm_yc t.xtal freq) := by
  let n := nint_yc t.xtal freq - 13
  let reg14 := (n >>> 2) + ((n - ((n >>> 2) <<< 2)) <<< 6)
  let t₁ := t.put 0x10 (t.priv.merged 0x10 (UInt8.ofNat (div_num_yc freq) <<< 5) 0xe0)
  let t₂ := t₁.put 0x12
    (t₁.priv.merged 0x12 (if t.disable_dither ≠ 0 then 0x10 else 0x00) 0x18)
  let t₃ := t₂.put 0x14 reg14
  have limit₂ : 2 ≤ t₂.priv.max_i2c_msg_len := limit
  have limit₃ : 2 ≤ t₃.priv.max_i2c_msg_len := limit
  have first : Does (wrote (write_reg_mask succeeding · 0x10
      (UInt8.ofNat (div_num_yc freq) <<< 5) 0xe0)) t () t₁ :=
    does_write_reg_mask limit (by decide) _ _
  have second : Does (wrote (write_reg_mask succeeding · 0x12
      (if t.disable_dither ≠ 0 then 0x10 else 0x00) 0x18)) t₁ () t₂ :=
    does_write_reg_mask (show 2 ≤ t₁.priv.max_i2c_msg_len from limit) (by decide) _ _
  have third : Does (wrote (write_reg succeeding · 0x14 reg14)) t₂ () t₃ :=
    does_write_reg limit₂ (by decide) _
  obtain ⟨t₄, fourth, xtal, splitter, divider, fraction⟩ :=
    write_fraction_yc_does limit₃ t.xtal (vco_frac_yc t.xtal freq)
  let t₅ : Pll := { t₄ with tuner_pll_set := 1 }
  have locked : ¬ data t₅.reads 2 &&& 0x40 = 0 := locks t₅.reads
  have last : Does (do
      modify fun t => { t with tuner_pll_set := 1 }
      let data ← read_status fun n => .ok (data n)
      if data 2 &&& 0x40 = 0 then
        modify fun t => { t with has_lock := 0 }
        return -1
      else
        modify fun t => { t with has_lock := 1 }
        return 0) t₄ (0 : Int) { t₅ with reads := t₅.reads + 1, has_lock := 1 } := by
    refine (does_modify _ t₄).bind ((does_read (t := t₅) rfl).bind ?_)
    rw [if_neg locked]
    exact (does_modify _ _).bind (Does.pure _ _)
  refine ⟨_, (does_get t).bind (first.bind (second.bind (third.bind (fourth.bind last)))), xtal,
    ?_, ?_, fraction⟩
  · change (t₄.priv.shadow 0x10 >>> 5).toNat = div_num_yc freq
    have kept : t₄.priv.shadow 0x10 =
        t.priv.merged 0x10 (UInt8.ofNat (div_num_yc freq) <<< 5) 0xe0 :=
      splitter.trans ((t₂.priv.put_other _).trans
        ((t₁.priv.put_other _).trans
          (t.priv.put_same _)))
    rw [kept]
    exact sel_div_bits _ (lt_of_le_of_lt (div_num_yc_le freq) (by decide))
  · have kept : t₄.priv.shadow 0x14 = reg14 := divider.trans (t₂.priv.put_same _)
    change 4 * (t₄.priv.shadow 0x14 &&& 0x3f).toNat + (t₄.priv.shadow 0x14 >>> 6).toNat + 13 = _
    rw [kept]
    exact congrArg (· + 13) (divider_bits n)

theorem set_vco_curr_does (curr : UInt8) :
    ∃ t', Does (set_vco_curr succeeding curr) t () t' ∧ t'.xtal = t.xtal ∧
      2 ≤ t'.priv.max_i2c_msg_len := by
  by_cases other : t.last_vco_curr ≠ curr
  · refine ⟨{ t.put 0x12 (t.priv.merged 0x12 curr 0xe0) with last_vco_curr := curr },
      (does_get t).bind ?_, rfl, limit⟩
    rw [if_pos other]
    exact (does_write_reg_mask limit (by decide) curr 0xe0).bind (does_modify _ _)
  · refine ⟨t, (does_get t).bind ?_, rfl, limit⟩
    rw [if_neg other]
    exact Does.pure () t

omit limit in
theorem wait_lock_does (locks : Locks data) (vco_curr_min vco_curr_max : UInt8) :
    Does (wait_lock succeeding (fun n => .ok (data n)) vco_curr_min vco_curr_max) t (data t.reads)
      { t with reads := t.reads + 1 } := by
  refine (does_read rfl).bind ?_
  rw [if_pos (Or.inl (locks t.reads))]
  exact Does.pure _ _

theorem write_divider_does (disable_dither : Int32)
    (nint : UInt8) {sdm : UInt32} (word : sdm.toNat < 65536) :
    ∃ t', Does (write_divider succeeding disable_dither nint sdm) t () t' ∧
      2 ≤ t'.priv.max_i2c_msg_len ∧ t'.priv.shadow 0x10 = t.priv.shadow 0x10 ∧
      (13 ≤ nint.toNat → t'.priv.integer = nint.toNat) ∧ t'.priv.fraction = sdm.toNat := by
  let ni := UInt8.ofInt (Int.tdiv ((nint.toNat : Int) - 13) 4)
  let si := UInt8.ofInt ((nint.toNat : Int) - 4 * ni.toNat - 13)
  let val : UInt8 := if sdm = 0 then 0x08 else 0x00
  let mode := if disable_dither ≠ 0 then val ||| 0x10 else val
  let t₁ := t.put 0x14 (ni + (si <<< 6))
  let t₂ := t₁.put 0x12 (t₁.priv.merged 0x12 mode 0x18)
  let t₃ := t₂.put 0x16 (sdm >>> 8).toUInt8
  let t₄ := t₃.put 0x15 (sdm &&& 0xff).toUInt8
  have first : Does (wrote (write_reg succeeding · 0x14 (ni + (si <<< 6)))) t () t₁ :=
    does_write_reg limit (by decide) _
  have second : Does (wrote (write_reg_mask succeeding · 0x12 mode 0x18)) t₁ () t₂ :=
    does_write_reg_mask (show 2 ≤ t₁.priv.max_i2c_msg_len from limit) (by decide) _ _
  have third : Does (wrote (write_reg succeeding · 0x16 (sdm >>> 8).toUInt8)) t₂ () t₃ :=
    does_write_reg (show 2 ≤ t₂.priv.max_i2c_msg_len from limit) (by decide) _
  have fourth : Does (wrote (write_reg succeeding · 0x15 (sdm &&& 0xff).toUInt8)) t₃ () t₄ :=
    does_write_reg (show 2 ≤ t₃.priv.max_i2c_msg_len from limit) (by decide) _
  have splitter : t₄.priv.shadow 0x10 = t.priv.shadow 0x10 := by
    calc t₄.priv.shadow 0x10 = t₃.priv.shadow 0x10 :=
          t₃.priv.put_other _
      _ = t₂.priv.shadow 0x10 := t₂.priv.put_other _
      _ = t₁.priv.shadow 0x10 := t₁.priv.put_other _
      _ = t.priv.shadow 0x10 := t.priv.put_other _
  have divider : t₄.priv.shadow 0x14 = ni + (si <<< 6) := by
    calc t₄.priv.shadow 0x14 = t₃.priv.shadow 0x14 :=
          t₃.priv.put_other _
      _ = t₂.priv.shadow 0x14 := t₂.priv.put_other _
      _ = t₁.priv.shadow 0x14 := t₁.priv.put_other _
      _ = ni + (si <<< 6) := t.priv.put_same _
  have power : t₄.priv.shadow 0x12 &&& 0x08 = val := by
    have kept : t₄.priv.shadow 0x12 = t₁.priv.merged 0x12 mode 0x18 :=
      (t₃.priv.put_other _).trans
        ((t₂.priv.put_other _).trans
          (t₁.priv.put_same _))
    rw [kept, Priv.merged, merged_bits _ _ (by decide)]
    simp only [mode, val]
    split_ifs <;> decide
  have high : t₄.priv.shadow 0x16 = (sdm >>> 8).toUInt8 :=
    (t₃.priv.put_other _).trans (t₂.priv.put_same _)
  have low : t₄.priv.shadow 0x15 = (sdm &&& 0xff).toUInt8 := t₃.priv.put_same _
  refine ⟨t₄, first.bind (second.bind (third.bind fourth)), limit, splitter, ?_, ?_⟩
  · intro enough
    rw [Priv.integer, divider]
    exact divider_bits_mix nint enough
  · by_cases zero : sdm = 0
    · have off : t₄.priv.shadow 0x12 &&& 0x08 ≠ 0 := by
        rw [power, show val = 0x08 from if_pos zero]
        decide
      rw [Priv.fraction_off off, zero]
      rfl
    · have on : t₄.priv.shadow 0x12 &&& 0x08 = 0 := power.trans (if_neg zero)
      rw [Priv.fraction_on on, high, low]
      exact sdm_halves_mix word

omit limit in
theorem Pll.tuned_div_num_eq (t : Pll) (freq : UInt32) :
    t.tuned_div_num freq t.vco_power_ref = (t.dividers freq).2 := by
  rw [Pll.tuned_div_num, if_neg (UInt8.lt_irrefl _), if_neg (UInt8.lt_irrefl _)]

omit limit in
theorem set_divider_mix_does {p : Pll} (limit : 2 ≤ p.priv.max_i2c_msg_len) (locks : Locks data)
    {freq : UInt32} (valid : ¬ t.Refused freq) (vco_curr_min vco_curr_max : UInt8) :
    ∃ p', Does (set_divider_mix succeeding (fun n => .ok (data n)) t freq vco_curr_min vco_curr_max)
        p 0 p' ∧ (13 ≤ (t.nint freq).toNat →
          Shows p'.priv p.priv.sel_div (t.nint freq).toNat (t.sdm freq).toNat) := by
  obtain ⟨p₁, first, limit₁, splitter, integer, fraction⟩ := write_divider_does limit
    t.disable_dither (t.nint freq)
    (show (t.sdm freq).toNat < 65536 from t.sdm_toNat freq ▸ Nat.mod_lt _ (by decide))
  let p₂ : Pll := { p₁ with tuner_pll_set := 1 }
  let p₃ : Pll := { p₂ with reads := p₂.reads + 1, has_lock := 1 }
  let p₄ := p₃.put 0x1a (p₃.priv.merged 0x1a 0x08 0x08)
  have locked : ¬ data p₂.reads 2 &&& 0x40 = 0 := locks p₂.reads
  have last : Does (wrote (write_reg_mask succeeding · 0x1a 0x08 0x08)) p₃ () p₄ :=
    does_write_reg_mask (show 2 ≤ p₃.priv.max_i2c_msg_len from limit₁) (by decide) _ _
  have other (reg : UInt8) (known : Shadowed reg) (apart : reg ≠ 0x1a) :
      p₄.priv.shadow reg = p₁.priv.shadow reg :=
    p₃.priv.put_other _ (by decide) known apart
  refine ⟨p₄, ?_, fun enough => ⟨?_, ?_, ?_⟩⟩
  · rw [set_divider_mix, if_neg valid]
    refine first.bind ((does_modify _ p₁).bind ((wait_lock_does (t := p₂) locks _ _).bind ?_))
    rw [if_neg locked]
    exact (does_modify _ _).bind (last.bind (Does.pure _ _))
  · rw [Priv.sel_div, other 0x10 (by decide) (by decide), splitter]
    rfl
  · rw [Priv.integer, other 0x14 (by decide) (by decide)]
    exact integer enough
  · rw [Priv.fraction, other 0x12 (by decide) (by decide), other 0x15 (by decide) (by decide),
      other 0x16 (by decide) (by decide)]
    exact fraction

theorem set_pll_mix_does (locks : Locks data)
    (tuned : ∀ n, (data n 4 &&& 0x30) >>> 4 = t.vco_power_ref) (freq : UInt32) :
    ∃ rc t', Does (set_pll_mix succeeding (fun n => .ok (data n)) freq) t rc t' ∧
      if t.Refused freq then rc = -1
      else rc = 0 ∧ (13 ≤ (t.nint freq).toNat →
        Shows t'.priv (t.dividers freq).2.toNat (t.nint freq).toNat (t.sdm freq).toNat) := by
  obtain ⟨d, few, div_num⟩ := t.div_num_few freq
  let t₁ := t.put 0x10 (t.priv.merged 0x10 0 0x10)
  let t₂ := t₁.put 0x1a (t₁.priv.merged 0x1a 0x00 0x0c)
  have first : Does (wrote (write_reg_mask succeeding · 0x10 0 0x10)) t () t₁ :=
    does_write_reg_mask limit (by decide) _ _
  have second : Does (wrote (write_reg_mask succeeding · 0x1a 0x00 0x0c)) t₁ () t₂ :=
    does_write_reg_mask (show 2 ≤ t₁.priv.max_i2c_msg_len from limit) (by decide) _ _
  obtain ⟨t₃, third, -, limit₃⟩ :=
    set_vco_curr_does (show 2 ≤ t₂.priv.max_i2c_msg_len from limit) (Pll.curr t.vco_curr_min 0x80)
  let t₄ : Pll := { t₃ with reads := t₃.reads + 1 }
  let splitter := t.tuned_div_num freq ((data t₃.reads 4 &&& 0x30) >>> 4) <<< 5
  let t₅ := t₄.put 0x10 (t₄.priv.merged 0x10 splitter 0xe0)
  have fifth : Does (wrote (write_reg_mask succeeding · 0x10 splitter 0xe0)) t₄ () t₅ :=
    does_write_reg_mask (show 2 ≤ t₄.priv.max_i2c_msg_len from limit₃) (by decide) _ _
  have sel_div : t₅.priv.sel_div = (t.dividers freq).2.toNat := by
    change (t₅.priv.shadow 0x10 >>> 5).toNat = _
    have kept : t₅.priv.shadow 0x10 = t₄.priv.merged 0x10 splitter 0xe0 :=
      t₄.priv.put_same _
    have same : (UInt8.ofNat d).toNat = d := Nat.mod_eq_of_lt (by omega)
    have top : splitter = UInt8.ofNat d <<< 5 := by
      rw [← div_num, ← t.tuned_div_num_eq, ← tuned t₃.reads]
    rw [kept, div_num, same, top]
    exact sel_div_bits _ (by omega)
  have start {rc : Int} {t' : Pll} (rest : Does (set_divider_mix succeeding
      (fun n => .ok (data n)) t freq (Pll.curr t.vco_curr_min 0x80) (Pll.curr t.vco_curr_max 0x60))
      t₅ rc t') : Does (set_pll_mix succeeding (fun n => .ok (data n)) freq) t rc t' :=
    (does_get t).bind (first.bind (second.bind (third.bind
      ((does_read (t := t₃) rfl).bind (fifth.bind rest)))))
  by_cases refused : t.Refused freq
  · refine ⟨-1, t₅, start ?_, (if_pos refused).symm ▸ rfl⟩
    rw [set_divider_mix, if_pos refused]
    exact Does.pure _ _
  · obtain ⟨t', rest, shows⟩ := set_divider_mix_does (p := t₅) (t := t) limit₃ locks refused
      (Pll.curr t.vco_curr_min 0x80) (Pll.curr t.vco_curr_max 0x60)
    rw [sel_div] at shows
    refine ⟨0, t', start rest, ?_⟩
    rw [if_neg refused]
    exact ⟨rfl, shows⟩

theorem set_pll_does_yc (locks : Locks data) (algo : t.vco_algo = 2) (freq : UInt32) :
    ∃ t', Does (set_pll succeeding (fun n => .ok (data n)) freq) t 0 t' ∧
      Shows t'.priv (div_num_yc freq) ((nint_yc t.xtal freq - 13).toNat + 13)
        (sdm_yc t.xtal freq) := by
  obtain ⟨t₁, first, xtal, limit₁⟩ := set_vco_curr_does
    (show 2 ≤ ({ t with tuner_pll_set := 0 } : Pll).priv.max_i2c_msg_len from limit)
    (Pll.curr t.vco_curr_max 0x60)
  obtain ⟨t₂, second, -, shows⟩ := set_pll_yc_does limit₁ locks freq
  rw [xtal] at shows
  refine ⟨t₂, (does_modify _ t).bind ((does_get _).bind ?_), shows⟩
  rw [if_pos algo]
  exact first.bind second

theorem set_pll_does_mix (locks : Locks data)
    (tuned : ∀ n, (data n 4 &&& 0x30) >>> 4 = t.vco_power_ref) (algo : t.vco_algo ≠ 2)
    (freq : UInt32) :
    ∃ rc t', Does (set_pll succeeding (fun n => .ok (data n)) freq) t rc t' ∧
      if t.Refused freq then rc = -1
      else rc = 0 ∧ (13 ≤ (t.nint freq).toNat →
        Shows t'.priv (t.dividers freq).2.toNat (t.nint freq).toNat (t.sdm freq).toNat) := by
  obtain ⟨rc, t', does, result⟩ := set_pll_mix_does
    (show 2 ≤ ({ t with tuner_pll_set := 0 } : Pll).priv.max_i2c_msg_len from limit) locks tuned freq
  refine ⟨rc, t', (does_modify _ t).bind ((does_get _).bind ?_), result⟩
  rw [if_neg algo]
  exact does

end

end Runs

end Soapy.Rtl.R82xx
