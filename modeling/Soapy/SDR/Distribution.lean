import Soapy.Remote.Defs
import Soapy.Lib.Filling

/-! # Overall gain and frequency

A driver names its gain elements and its tunable components; the overall settings are distributed
over them. Numbers of type double are rational here.
-/

namespace Soapy.SDR

open Lib
open Soapy.Remote (Kwargs)

def SOAPY_SDR_TX : Int := 0

def SOAPY_SDR_RX : Int := 1

theorem foldl_add_eq (f : Bytes → ℚ) (names : List Bytes) (start : ℚ) :
    names.foldl (fun sum name => sum + f name) start = start + (names.map f).sum := by
  induction names generalizing start with
  | nil => simp
  | cons name names ih => rw [List.foldl_cons, ih, List.map_cons, List.sum_cons, add_assoc]

structure GainRange where
  minimum : ℚ
  maximum : ℚ

/-- How much an element can add to the overall gain. -/
def GainRange.width (r : GainRange) : ℚ := r.maximum - r.minimum

/-- The methods of a driver for a named element, over the driver's state. -/
structure GainDriver (σ : Type) where
  listGains : Int → Nat → List Bytes
  gainRangeOf : Int → Nat → Bytes → GainRange
  setGainOf : Int → Nat → Bytes → ℚ → σ → σ
  getGainOf : Int → Nat → Bytes → σ → ℚ

namespace GainDriver

variable {σ : Type} (d : GainDriver σ) (dir : Int) (channel : Nat)

def giveGain (turn : ℚ × σ) (name : Bytes) : ℚ × σ :=
  let r := d.gainRangeOf dir channel name
  let g := min turn.1 (r.maximum - r.minimum)
  let s := d.setGainOf dir channel name (g + r.minimum) turn.2
  (turn.1 - (d.getGainOf dir channel name s - r.minimum), s)

def setGain (gain : ℚ) (s : σ) : σ :=
  let names := d.listGains dir channel
  let turn := if dir = SOAPY_SDR_TX then names.reverse.foldl (d.giveGain dir channel) (gain, s)
    else (gain, s)
  let turn := if dir = SOAPY_SDR_RX then names.foldl (d.giveGain dir channel) turn else turn
  turn.2

def getGain (s : σ) : ℚ :=
  (d.listGains dir channel).foldl (fun gain name =>
    gain + (d.getGainOf dir channel name s - (d.gainRangeOf dir channel name).minimum)) 0

def getGainRange : GainRange :=
  ⟨0, (d.listGains dir channel).foldl (fun gain name =>
    gain + ((d.gainRangeOf dir channel name).maximum -
      (d.gainRangeOf dir channel name).minimum)) 0⟩

/-- What the driver promises about the gain elements of a channel. -/
structure StoresGains : Prop where
  distinct : (d.listGains dir channel).Nodup
  ordered : ∀ name ∈ d.listGains dir channel,
    (d.gainRangeOf dir channel name).minimum ≤ (d.gainRangeOf dir channel name).maximum
  stores : ∀ name ∈ d.listGains dir channel, ∀ value s,
    (d.gainRangeOf dir channel name).minimum ≤ value →
    value ≤ (d.gainRangeOf dir channel name).maximum →
    d.getGainOf dir channel name (d.setGainOf dir channel name value s) = value
  keeps : ∀ name ∈ d.listGains dir channel, ∀ other ∈ d.listGains dir channel, other ≠ name →
    ∀ value s, d.getGainOf dir channel other (d.setGainOf dir channel name value s) =
      d.getGainOf dir channel other s

/-- TX gets BB first, RX gets RF first. -/
def fillOrder : List Bytes :=
  if dir = SOAPY_SDR_TX then (d.listGains dir channel).reverse else d.listGains dir channel

/-- What an element adds to the overall gain. -/
def level (s : σ) (name : Bytes) : ℚ :=
  d.getGainOf dir channel name s - (d.gainRangeOf dir channel name).minimum

def widthOf (name : Bytes) : ℚ := (d.gainRangeOf dir channel name).width

theorem getGain_eq (s : σ) :
    d.getGain dir channel s = ((d.listGains dir channel).map (d.level dir channel s)).sum :=
  (foldl_add_eq (d.level dir channel s) _ 0).trans (zero_add _)

theorem getGainRange_maximum : (d.getGainRange dir channel).maximum =
    ((d.listGains dir channel).map (d.widthOf dir channel)).sum :=
  (foldl_add_eq (d.widthOf dir channel) _ 0).trans (zero_add _)

variable {dir channel}

theorem mem_fillOrder (name : Bytes) :
    name ∈ d.fillOrder dir channel ↔ name ∈ d.listGains dir channel := by
  unfold fillOrder
  split <;> simp

theorem sum_fillOrder (f : Bytes → ℚ) :
    ((d.fillOrder dir channel).map f).sum = ((d.listGains dir channel).map f).sum := by
  unfold fillOrder
  split
  · rw [List.map_reverse, List.sum_reverse]
  · rfl

theorem setGain_fillOrder (known : dir = SOAPY_SDR_TX ∨ dir = SOAPY_SDR_RX) (gain : ℚ) (s : σ) :
    d.setGain dir channel gain s =
      ((d.fillOrder dir channel).foldl (d.giveGain dir channel) (gain, s)).2 := by
  rcases known with rfl | rfl <;> rfl

namespace StoresGains

variable {d} (driver : d.StoresGains dir channel)

include driver

theorem width_nonneg (name : Bytes) (mem : name ∈ d.listGains dir channel) :
    0 ≤ d.widthOf dir channel name :=
  sub_nonneg.mpr (driver.ordered name mem)

theorem turn (name : Bytes) (mem : name ∈ d.listGains dir channel) {gain : ℚ} (some : 0 ≤ gain)
    (s : σ) : ∃ s', d.giveGain dir channel (gain, s) name =
        (gain - min gain (d.widthOf dir channel name), s') ∧
      d.level dir channel s' name = min gain (d.widthOf dir channel name) ∧
      ∀ other ∈ d.listGains dir channel, other ≠ name →
        d.level dir channel s' other = d.level dir channel s other := by
  have low : 0 ≤ min gain (d.widthOf dir channel name) :=
    le_min some (driver.width_nonneg name mem)
  have high : min gain (d.widthOf dir channel name) ≤ d.widthOf dir channel name :=
    min_le_right _ _
  have stored := driver.stores name mem
    (min gain (d.widthOf dir channel name) + (d.gainRangeOf dir channel name).minimum) s
    (by linarith) (by unfold widthOf GainRange.width at high ⊢; linarith)
  have gave : d.level dir channel (d.setGainOf dir channel name
      (min gain (d.widthOf dir channel name) + (d.gainRangeOf dir channel name).minimum) s) name =
      min gain (d.widthOf dir channel name) := by
    rw [level, stored, add_sub_cancel_right]
  refine ⟨_, Prod.ext (congrArg (gain - ·) gave) rfl, gave, ?_⟩
  intro other listed differs
  exact congrArg (· - _) (driver.keeps name mem other listed differs _ s)

theorem run {order : List Bytes} (listed : ∀ name ∈ order, name ∈ d.listGains dir channel)
    (distinct : order.Nodup) {gain : ℚ} (some : 0 ≤ gain) (s : σ) :
    order.map (d.level dir channel (order.foldl (d.giveGain dir channel) (gain, s)).2) =
        fill (order.map (d.widthOf dir channel)) gain ∧
      ∀ other ∈ d.listGains dir channel, other ∉ order →
        d.level dir channel (order.foldl (d.giveGain dir channel) (gain, s)).2 other =
          d.level dir channel s other := by
  induction order generalizing gain s with
  | nil => simp
  | cons name order ih =>
    have mem := listed name List.mem_cons_self
    obtain ⟨s', turned, level, same⟩ := driver.turn name mem some s
    obtain ⟨rest, kept⟩ := ih (fun n m => listed n (List.mem_cons_of_mem _ m))
      distinct.of_cons (left_nonneg gain (d.widthOf dir channel name)) s'
    simp only [List.foldl_cons, turned, List.map_cons, fill_cons]
    constructor
    · rw [rest, kept name mem (List.nodup_cons.mp distinct).1, level]
    · intro other mem' absent
      simp only [List.mem_cons, not_or] at absent
      rw [kept other mem' absent.2, same other mem' absent.1]

theorem distinct_order : (d.fillOrder dir channel).Nodup := by
  unfold fillOrder
  split
  · exact List.pairwise_reverse.mpr (driver.distinct.imp Ne.symm)
  · exact driver.distinct

theorem levels (known : dir = SOAPY_SDR_TX ∨ dir = SOAPY_SDR_RX) {gain : ℚ} (some : 0 ≤ gain)
    (s : σ) : (d.fillOrder dir channel).map (d.level dir channel (d.setGain dir channel gain s)) =
      fill ((d.fillOrder dir channel).map (d.widthOf dir channel)) gain := by
  rw [d.setGain_fillOrder known]
  exact (driver.run (fun name => (d.mem_fillOrder name).mp) driver.distinct_order some s).1

theorem rooms (room : ℚ) (mem : room ∈ (d.fillOrder dir channel).map (d.widthOf dir channel)) :
    0 ≤ room := by
  obtain ⟨name, listed, rfl⟩ := List.mem_map.mp mem
  exact driver.width_nonneg name ((d.mem_fillOrder name).mp listed)

end StoresGains

/-- The overall gain is distributed in fill order, up to one element that takes the rest; a gain
    above the sum leaves every element at its maximum. -/
theorem setGain_distributes (driver : d.StoresGains dir channel)
    (known : dir = SOAPY_SDR_TX ∨ dir = SOAPY_SDR_RX) (g : ℚ) (some : 0 ≤ g) (s : σ) :
    (∀ name ∈ d.listGains dir channel,
      (d.gainRangeOf dir channel name).minimum ≤
        d.getGainOf dir channel name (d.setGain dir channel g s) ∧
      d.getGainOf dir channel name (d.setGain dir channel g s) ≤
        (d.gainRangeOf dir channel name).maximum) ∧
    (∃ full part rest, d.fillOrder dir channel = full ++ part ++ rest ∧ part.length ≤ 1 ∧
      (∀ name ∈ full, d.getGainOf dir channel name (d.setGain dir channel g s) =
        (d.gainRangeOf dir channel name).maximum) ∧
      ∀ name ∈ rest, d.getGainOf dir channel name (d.setGain dir channel g s) =
        (d.gainRangeOf dir channel name).minimum) ∧
    (g ≤ (d.getGainRange dir channel).maximum →
      d.getGain dir channel (d.setGain dir channel g s) = g) ∧
    ((d.getGainRange dir channel).maximum ≤ g → ∀ name ∈ d.listGains dir channel,
      d.getGainOf dir channel name (d.setGain dir channel g s) =
        (d.gainRangeOf dir channel name).maximum) := by
  have levels := driver.levels known some s
  have nonneg : ∀ name ∈ d.fillOrder dir channel, 0 ≤ d.widthOf dir channel name :=
    fun name mem => driver.width_nonneg name ((d.mem_fillOrder name).mp mem)
  refine ⟨?_, ?_, ?_, ?_⟩
  · intro name mem
    obtain ⟨low, high⟩ := fill_within nonneg some levels name ((d.mem_fillOrder name).mpr mem)
    unfold level at low high
    unfold widthOf GainRange.width at high
    constructor <;> linarith
  · obtain ⟨full, part, rest, order, short, brim, empty⟩ := fill_split nonneg some levels
    refine ⟨full, part, rest, order, short, ?_, ?_⟩
    · intro name mem
      exact sub_left_injective (brim name mem)
    · intro name mem
      exact sub_eq_zero.mp (empty name mem)
  · intro fits
    rw [getGainRange_maximum] at fits
    rw [getGain_eq, ← sum_fillOrder, levels, fill_sum driver.rooms some, sum_fillOrder,
      min_eq_left fits]
  · intro enough name mem
    rw [getGainRange_maximum, ← sum_fillOrder] at enough
    rw [fill_brim driver.rooms enough] at levels
    exact sub_left_injective
      (List.map_inj_left.mp levels name ((d.mem_fillOrder name).mpr mem))

/-- An amplifier, a mixer and a baseband element, on every channel. -/
def threeElements : GainDriver (Bytes → ℚ) where
  listGains _ _ := [[76], [77], [66]]
  gainRangeOf _ _ name := if name = [77] then ⟨-3, 12⟩ else ⟨0, 20⟩
  setGainOf _ _ name value s := Function.update s name value
  getGainOf _ _ name s := s name

theorem threeElements_stores (dir : Int) (channel : Nat) :
    threeElements.StoresGains dir channel where
  distinct := by simp [threeElements]
  ordered name _ := by
    simp only [threeElements]
    split <;> norm_num
  stores name _ value s _ _ := by
    simp [threeElements]
  keeps name _ other _ differs value s := by
    simp [threeElements, differs]

theorem setGain_distributes_three :
    threeElements.getGain SOAPY_SDR_RX 0 (threeElements.setGain SOAPY_SDR_RX 0 30 fun _ => 0) =
      30 := by
  have split := setGain_distributes threeElements (threeElements_stores SOAPY_SDR_RX 0)
    (Or.inr rfl) 30 (by norm_num) fun _ => 0
  apply split.2.2.1
  norm_num [threeElements, getGainRange, show (76 : UInt8) ≠ 77 by decide,
    show (66 : UInt8) ≠ 77 by decide]

end GainDriver

/-- The methods of a driver for a named tunable component. -/
structure FrequencyDriver (σ : Type) where
  listFrequencies : Int → Nat → List Bytes
  setFrequencyOf : Int → Nat → Bytes → ℚ → Kwargs → σ → σ
  getFrequencyOf : Int → Nat → Bytes → σ → ℚ

namespace FrequencyDriver

variable {σ : Type} (d : FrequencyDriver σ) (atof : Bytes → ℚ) (dir : Int) (chan : Nat)

/-- The frequency the arguments name for a component, a number or nothing at all. -/
inductive Mode where
  | ignored
  | explicit (text : Bytes)
  | remainder
  deriving DecidableEq

def mode (args : Kwargs) (name : Bytes) : Mode :=
  match args.find? name with
  | none => .remainder
  | some text =>
    if text = ascii "IGNORE" then .ignored
    else if text ≠ ascii "DEFAULT" then .explicit text
    else .remainder

/-- The call of `setFrequency` for one component, if there is one. -/
def tune (args : Kwargs) (name : Bytes) (freq : ℚ) (s : σ) : σ :=
  match mode args name with
  | .ignored => s
  | .explicit text => d.setFrequencyOf dir chan name (atof text) args s
  | .remainder => d.setFrequencyOf dir chan name freq args s

def distribute (offset : ℚ) (args : Kwargs) : Nat → List Bytes → ℚ → σ → σ
  | _, [], _, s => s
  | comp_i, name :: comps, freq, s =>
    let freq := if comp_i = 0 then freq + offset else freq
    let s := d.tune atof dir chan args name freq s
    let freq := freq - d.getFrequencyOf dir chan name s
    let freq := if comp_i = 0 then freq - offset else freq
    distribute offset args (comp_i + 1) comps freq s

def setFrequency (freq : ℚ) (args : Kwargs) (s : σ) : σ :=
  let comps := d.listFrequencies dir chan
  if comps = [] then s
  else
    let offset := match args.find? (ascii "OFFSET") with
      | some text => atof text
      | none => 0
    d.distribute atof dir chan offset args 0 comps freq s

def getFrequency (s : σ) : ℚ :=
  (d.listFrequencies dir chan).foldl (fun freq name => freq + d.getFrequencyOf dir chan name s) 0

/-- What the driver promises about the components: they are distinct, and tuning one leaves the
    others alone. It may round as it likes. -/
structure Tunes : Prop where
  distinct : (d.listFrequencies dir chan).Nodup
  keeps : ∀ name ∈ d.listFrequencies dir chan, ∀ other ∈ d.listFrequencies dir chan,
    other ≠ name → ∀ freq args s, d.getFrequencyOf dir chan other
      (d.setFrequencyOf dir chan name freq args s) = d.getFrequencyOf dir chan other s

theorem getFrequency_eq (s : σ) : d.getFrequency dir chan s =
    ((d.listFrequencies dir chan).map fun name => d.getFrequencyOf dir chan name s).sum :=
  (foldl_add_eq (d.getFrequencyOf dir chan · s) _ 0).trans (zero_add _)

variable {dir chan} (offset : ℚ) (args : Kwargs)

theorem distribute_cons (dir : Int) (chan comp_i : Nat) (name : Bytes) (comps : List Bytes)
    (freq : ℚ) (s : σ) :
    ∃ given, d.distribute atof dir chan offset args comp_i (name :: comps) freq s =
        d.distribute atof dir chan offset args (comp_i + 1) comps
          (freq - d.getFrequencyOf dir chan name (d.tune atof dir chan args name given s))
          (d.tune atof dir chan args name given s) ∧ (comp_i ≠ 0 → given = freq) := by
  cases comp_i with
  | zero =>
    refine ⟨freq + offset, ?_, fun first => absurd rfl first⟩
    simp only [distribute, if_true]
    congr 1
    ring
  | succ comp_i => exact ⟨freq, rfl, fun _ => rfl⟩

namespace Tunes

variable {d} (driver : d.Tunes dir chan)

include driver

theorem tune_keeps {name other : Bytes} (mem : name ∈ d.listFrequencies dir chan)
    (listed : other ∈ d.listFrequencies dir chan) (differs : other ≠ name) (freq : ℚ) (s : σ) :
    d.getFrequencyOf dir chan other (d.tune atof dir chan args name freq s) =
      d.getFrequencyOf dir chan other s := by
  unfold tune
  cases mode args name with
  | ignored => rfl
  | explicit text => exact driver.keeps name mem other listed differs _ _ s
  | remainder => exact driver.keeps name mem other listed differs _ _ s

theorem distribute_keeps {comps : List Bytes}
    (listed : ∀ name ∈ comps, name ∈ d.listFrequencies dir chan) (other : Bytes)
    (mem : other ∈ d.listFrequencies dir chan)
    (left : other ∈ comps → mode args other = .ignored) (comp_i : Nat) (freq : ℚ) (s : σ) :
    d.getFrequencyOf dir chan other
        (d.distribute atof dir chan offset args comp_i comps freq s) =
      d.getFrequencyOf dir chan other s := by
  induction comps generalizing comp_i freq s with
  | nil => rfl
  | cons name comps ih =>
    obtain ⟨given, turned, -⟩ :=
      d.distribute_cons atof offset args dir chan comp_i name comps freq s
    rw [turned, ih (fun n m => listed n (List.mem_cons_of_mem _ m))
      (fun m => left (List.mem_cons_of_mem _ m))]
    by_cases same : other = name
    · subst same
      simp only [tune, left List.mem_cons_self]
    · exact driver.tune_keeps atof args (listed name List.mem_cons_self) mem same given s

theorem distribute_sum {front : List Bytes} {last : Bytes}
    (listed : ∀ name ∈ front ++ [last], name ∈ d.listFrequencies dir chan)
    (distinct : (front ++ [last]).Nodup) (asked : mode args last = .remainder)
    (exact' : ∀ freq s, d.getFrequencyOf dir chan last
      (d.setFrequencyOf dir chan last freq args s) = freq)
    {comp_i : Nat} (more : comp_i ≠ 0 ∨ front ≠ []) (freq : ℚ) (s : σ) :
    ((front ++ [last]).map fun name => d.getFrequencyOf dir chan name
      (d.distribute atof dir chan offset args comp_i (front ++ [last]) freq s)).sum = freq := by
  induction front generalizing comp_i freq s with
  | nil =>
    obtain ⟨given, turned, plain⟩ :=
      d.distribute_cons atof offset args dir chan comp_i last [] freq s
    have rest := plain (more.resolve_right fun h => h rfl)
    rw [List.nil_append, turned, rest]
    simp [distribute, tune, asked, exact']
  | cons name front ih =>
    obtain ⟨given, turned, -⟩ :=
      d.distribute_cons atof offset args dir chan comp_i name (front ++ [last]) freq s
    simp only [List.cons_append, List.map_cons, List.sum_cons] at listed distinct turned ⊢
    have summed := ih (fun n m => listed n (List.mem_cons_of_mem _ m)) distinct.of_cons
      (Or.inl (Nat.succ_ne_zero comp_i))
      (freq - d.getFrequencyOf dir chan name (d.tune atof dir chan args name given s))
      (d.tune atof dir chan args name given s)
    have kept := driver.distribute_keeps atof offset args
      (fun n m => listed n (List.mem_cons_of_mem _ m)) name (listed name List.mem_cons_self)
      (fun m => absurd m (List.nodup_cons.mp distinct).1) (comp_i + 1)
      (freq - d.getFrequencyOf dir chan name (d.tune atof dir chan args name given s))
      (d.tune atof dir chan args name given s)
    rw [turned, summed, kept, add_sub_cancel]

end Tunes

theorem mode_ignored {args : Kwargs} {name : Bytes}
    (ignored : args.find? name = some (ascii "IGNORE")) : mode args name = .ignored := by
  simp [mode, ignored]

theorem mode_remainder {args : Kwargs} {name : Bytes}
    (plain : ∀ text, args.find? name = some text → text = ascii "DEFAULT") :
    mode args name = .remainder := by
  unfold mode
  cases found : args.find? name with
  | none => rfl
  | some text =>
    rw [plain text found]
    decide

/-- The last component takes the remainder, so the overall frequency is the one asked for,
    whatever the components before it were told and however they rounded. -/
theorem setFrequency_telescopes {d : FrequencyDriver σ} (driver : d.Tunes dir chan)
    {front : List Bytes} {last : Bytes} (comps : d.listFrequencies dir chan = front ++ [last])
    (args : Kwargs) (plain : ∀ text, args.find? last = some text → text = ascii "DEFAULT")
    (f : ℚ) (s : σ) :
    (front ≠ [] →
      (∀ freq s, d.getFrequencyOf dir chan last
        (d.setFrequencyOf dir chan last freq args s) = freq) →
      d.getFrequency dir chan (d.setFrequency atof dir chan f args s) = f) ∧
    ∀ name ∈ d.listFrequencies dir chan, args.find? name = some (ascii "IGNORE") →
      d.getFrequencyOf dir chan name (d.setFrequency atof dir chan f args s) =
        d.getFrequencyOf dir chan name s := by
  have some : front ++ [last] ≠ [] := by simp
  have distinct := driver.distinct
  simp only [setFrequency, comps, if_neg some] at distinct ⊢
  constructor
  · intro more stores
    rw [getFrequency_eq, comps]
    exact driver.distribute_sum atof _ args (fun name mem => comps ▸ mem) distinct
      (mode_remainder plain) stores (Or.inr more) f s
  · intro name mem ignored
    exact driver.distribute_keeps atof _ args (fun name mem => comps ▸ mem) name (comps ▸ mem)
      (fun _ => mode_ignored ignored) 0 f s

/-- An oscillator with steps of ten and a baseband shift without any. -/
def twoComponents : FrequencyDriver (Bytes → ℚ) where
  listFrequencies _ _ := [ascii "RF", ascii "BB"]
  setFrequencyOf _ _ name freq _ s :=
    Function.update s name (if name = ascii "RF" then 10 * ⌊freq / 10⌋ else freq)
  getFrequencyOf _ _ name s := s name

theorem twoComponents_tunes (dir : Int) (chan : Nat) : twoComponents.Tunes dir chan where
  distinct := by
    show [ascii "RF", ascii "BB"].Nodup
    decide
  keeps name _ other _ differs freq args s := by simp [twoComponents, differs]

theorem setFrequency_telescopes_two :
    twoComponents.getFrequency 1 0 (twoComponents.setFrequency (fun _ => 3) 1 0 1234
      (OrdMap.empty.insert (ascii "OFFSET") (ascii "3")) fun _ => 0) = 1234 := by
  have comps : twoComponents.listFrequencies 1 0 = [ascii "RF"] ++ [ascii "BB"] := rfl
  apply (setFrequency_telescopes (fun _ => 3) (twoComponents_tunes 1 0) comps _ _ 1234 _).1
  · exact List.cons_ne_nil _ _
  · intro freq s
    have other : ascii "BB" ≠ ascii "RF" := by decide
    simp [twoComponents, other]
  · intro text found
    cases found

end FrequencyDriver

end Soapy.SDR
