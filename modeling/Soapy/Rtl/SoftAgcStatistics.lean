import Soapy.Rtl.SoftAgc

/-! # What the soft AGC has counted

The counters hold what was counted since the last reset, up to `2 ^ 32`. They are exact as long as
not too much was counted.
-/

namespace Soapy.Rtl.SoftAgc

open Lib Tuner

def inBucket (k : Nat) (bytes : Bytes) : Nat := bytes.countP (bucket · = k)

def loud (k : Nat) (bytes : Bytes) : Nat := bytes.countP (k ≤ bucket ·)

structure Counted (agc : Agc) (bytes : Bytes) : Prop where
  number : agc.numInHisto = Int32.ofNat bytes.length
  histo : ∀ k, agc.histo k = Int32.ofNat (inBucket k bytes)

/-- The counters and what the overload test compares are exact. -/
structure Statistics (agc : Agc) (bytes : Bytes) : Prop where
  number : agc.numInHisto.toInt = bytes.length
  sum : ∑ k ∈ Finset.range 16, (agc.histo k).toInt = bytes.length
  distrib : ∀ k ≤ 15, (distrib agc.histo k).toInt = loud k bytes
  loudest : (64 * SoftAgc.distrib agc.histo 15).toInt = 64 * loud 15 bytes
  louder : (16 * SoftAgc.distrib agc.histo 12).toInt = 16 * loud 12 bytes
  half : (4 * SoftAgc.distrib agc.histo 8).toInt = 4 * loud 8 bytes

/-- Few enough bytes, and few enough loud ones. -/
structure Fits (bytes : Bytes) : Prop where
  number : bytes.length < 2 ^ 31
  loudest : loud 15 bytes < 2 ^ 25
  louder : loud 12 bytes < 2 ^ 27
  half : loud 8 bytes < 2 ^ 29

instance (bytes : Bytes) : Decidable (Fits bytes) :=
  decidable_of_iff (bytes.length < 2 ^ 31 ∧ loud 15 bytes < 2 ^ 25 ∧ loud 12 bytes < 2 ^ 27 ∧
    loud 8 bytes < 2 ^ 29) ⟨fun h => ⟨h.1, h.2.1, h.2.2.1, h.2.2.2⟩, fun h => ⟨h.1, h.2, h.3, h.4⟩⟩

theorem bucket_le (b : UInt8) : bucket b ≤ 15 := by
  have high := b.toNat_lt
  rw [bucket]
  split
  · rw [Nat.shiftRight_eq_div_pow]
    omega
  · rw [Nat.shiftRight_eq_div_pow]
    omega

theorem histogram_eq (bytes : Bytes) (histo : Nat → Int32) (k : Nat) :
    histogram histo bytes k = histo k + Int32.ofNat (inBucket k bytes) := by
  induction bytes generalizing histo with
  | nil => exact (Int32.add_zero (histo k)).symm
  | cons b bytes ih =>
    have rest := ih (Function.update histo (bucket b) (histo (bucket b) + 1))
    rw [histogram, List.foldl_cons, ← histogram, rest, inBucket, inBucket, List.countP_cons]
    by_cases same : bucket b = k
    · subst same
      simp only [Function.update_self, decide_true, if_true, Int32.ofNat_add]
      rw [Int32.add_assoc, Int32.add_comm 1]
      rfl
    · simp only [same, decide_false, Bool.false_eq_true, if_false, Nat.add_zero]
      rw [Function.update_of_ne (Ne.symm same)]

theorem loud_top (bytes : Bytes) : loud 15 bytes = inBucket 15 bytes := by
  apply List.countP_congr
  intro b _
  have high := bucket_le b
  simp only [decide_eq_true_eq]
  omega

theorem loud_step (k : Nat) (bytes : Bytes) : loud k bytes = inBucket k bytes + loud (k + 1) bytes := by
  induction bytes with
  | nil => rfl
  | cons b bytes ih =>
    simp only [loud, inBucket, List.countP_cons, decide_eq_true_eq] at ih ⊢
    split <;> split <;> split <;> omega

theorem distribDown_eq {agc : Agc} {bytes : Bytes} (counted : Counted agc bytes) :
    ∀ {j : Nat}, j ≤ 15 → distribDown agc.histo j = Int32.ofNat (loud (15 - j) bytes)
  | 0, _ => by rw [distribDown, counted.histo, loud_top]
  | j + 1, inside => by
    have next : 15 - (j + 1) + 1 = 15 - j := by omega
    have here : 14 - j = 15 - (j + 1) := by omega
    rw [distribDown, distribDown_eq counted (by omega), counted.histo, loud_step (15 - (j + 1)), next,
      here, Int32.ofNat_add, Int32.add_comm]

theorem distrib_eq {agc : Agc} {bytes : Bytes} (counted : Counted agc bytes) {k : Nat}
    (inside : k ≤ 15) : distrib agc.histo k = Int32.ofNat (loud k bytes) := by
  have back : 15 - (15 - k) = k := by omega
  rw [distrib, distribDown_eq counted (by omega), back]

theorem exact_iff (n : Nat) : (Int32.ofNat n).toInt = n ↔ n < 2 ^ 31 := by
  constructor
  · intro exact
    have high := (Int32.ofNat n).toInt_lt
    omega
  · exact Int32.toInt_ofNat_of_lt

theorem times_exact_iff (factor n : Nat) :
    (Int32.ofNat factor * Int32.ofNat n).toInt = factor * n ↔ factor * n < 2 ^ 31 := by
  rw [← Int32.ofNat_mul, ← exact_iff]
  exact Iff.rfl

theorem sum_buckets (bytes : Bytes) : ∀ k, k ≤ 16 →
    ∑ i ∈ Finset.range k, inBucket i bytes + loud k bytes = bytes.length
  | 0, _ => by
    have all : loud 0 bytes = bytes.length := List.countP_eq_length.mpr fun b _ => by simp
    rw [Finset.sum_range_zero, all, Nat.zero_add]
  | k + 1, inside => by
    rw [Finset.sum_range_succ, ← sum_buckets bytes k (by omega), loud_step k]
    omega

theorem loud_none (bytes : Bytes) : loud 16 bytes = 0 := by
  apply List.countP_eq_zero.mpr
  intro b _
  have high := bucket_le b
  simp only [decide_eq_true_eq]
  omega

theorem Counted.sum {agc : Agc} {bytes : Bytes} (counted : Counted agc bytes)
    (number : bytes.length < 2 ^ 31) :
    ∑ k ∈ Finset.range 16, (agc.histo k).toInt = bytes.length := by
  have exact (k : Nat) : (agc.histo k).toInt = inBucket k bytes := by
    have few : inBucket k bytes ≤ bytes.length := List.countP_le_length
    rw [counted.histo, exact_iff]
    omega
  have all := sum_buckets bytes 16 (Nat.le_refl 16)
  rw [loud_none, Nat.add_zero] at all
  simp only [exact]
  rw [← all, Nat.cast_sum]

theorem Counted.same {agc agc' : Agc} {bytes : Bytes} (counted : Counted agc bytes)
    (number : agc'.numInHisto = agc.numInHisto) (histo : agc'.histo = agc.histo) : Counted agc' bytes :=
  ⟨number.trans counted.number, fun k => histo ▸ counted.histo k⟩

theorem scanned_counted {agc : Agc} {bytes : Bytes} (counted : Counted agc bytes) :
    Counted (scanned agc) bytes := by
  rw [scanned_eq]
  exact counted.same rfl rfl

theorem Counted.exact_iff_fits {agc : Agc} {bytes : Bytes} (counted : Counted agc bytes) :
    Statistics agc bytes ↔ Fits bytes := by
  have loudest := times_exact_iff 64 (loud 15 bytes)
  have louder := times_exact_iff 16 (loud 12 bytes)
  have half := times_exact_iff 4 (loud 8 bytes)
  constructor
  · intro exact
    have number := exact.number
    have first := exact.loudest
    have second := exact.louder
    have third := exact.half
    rw [counted.number, exact_iff] at number
    rw [distrib_eq counted (by decide)] at first second third
    have first := loudest.mp first
    have second := louder.mp second
    have third := half.mp third
    exact ⟨number, by omega, by omega, by omega⟩
  · intro fits
    obtain ⟨number, first, second, third⟩ := fits
    refine ⟨?_, counted.sum number, ?_, ?_, ?_, ?_⟩
    · rw [counted.number, exact_iff]
      exact number
    · intro k inside
      have few : loud k bytes ≤ bytes.length := List.countP_le_length
      rw [distrib_eq counted inside, exact_iff]
      omega
    · rw [distrib_eq counted (by decide)]
      exact loudest.mpr (by omega)
    · rw [distrib_eq counted (by decide)]
      exact louder.mpr (by omega)
    · rw [distrib_eq counted (by decide)]
      exact half.mpr (by omega)

theorem Statistics.oversteered_iff {agc : Agc} {bytes : Bytes} (exact : Statistics agc bytes) :
    oversteered agc = true ↔ bytes.length ≤ 64 * loud 15 bytes ∨ bytes.length ≤ 16 * loud 12 bytes ∨
      bytes.length ≤ 4 * loud 8 bytes := by
  obtain ⟨number, _, _, loudest, louder, half⟩ := exact
  simp only [oversteered, ge_iff_le, Bool.or_eq_true, decide_eq_true_eq, Int32.le_iff_toInt_le, number,
    loudest, louder, half]
  omega

/-- The block is counted: nothing is pending, the dead time ends in it, and the lowest gain is not
reached. -/
def Measures (agc : Agc) (block : Block) : Prop :=
  (agc.agcState = .on ∨ agc.agcState = .reset_cont) ∧ agc.remainingDeadSps ≠ INT_MAX ∧
    ¬ (agc.remainingDeadSps ≠ 0 ∧ block.len / 2 ≤ agc.remainingDeadSps) ∧
    ¬ (agc.gainIdx = 0 ∧ agc.agcState = .reset_cont)

/-- The length behind the dead time is no negative number. -/
def LenRight (agc : Agc) (block : Block) : Prop := 0 ≤ block.len - 2 * agc.remainingDeadSps

instance (agc : Agc) (block : Block) : Decidable (LenRight agc block) :=
  inferInstanceAs (Decidable (0 ≤ block.len - 2 * agc.remainingDeadSps))

variable {agc : Agc} {bytes : Bytes} {block : Block}

theorem inBucket_append (k : Nat) (bytes more : Bytes) :
    inBucket k (bytes ++ more) = inBucket k bytes + inBucket k more := List.countP_append

theorem countBlock_counted (counted : Counted agc bytes) (right : LenRight agc block) :
    Counted (countBlock agc block) (bytes ++ liveBytes agc block) := by
  constructor
  · have whole : 0 ≤ (block.len - 2 * agc.remainingDeadSps).toInt := Int32.le_iff_toInt_le.mp right
    have length : Int32.ofNat (liveBytes agc block).length = block.len - 2 * agc.remainingDeadSps := by
      rw [liveBytes, List.length_map, List.length_range, ← Int32.ofInt_eq_ofNat, Int.toNat_of_nonneg whole,
        Int32.ofInt_toInt]
    rw [List.length_append, Int32.ofNat_add, length, ← counted.number]
    rfl
  · intro k
    rw [inBucket_append, Int32.ofNat_add, ← counted.histo]
    exact histogram_eq (liveBytes agc block) agc.histo k

theorem countBlock_exact_iff (counted : Counted agc bytes) :
    Statistics (countBlock agc block) (bytes ++ liveBytes agc block) ↔
      LenRight agc block ∧ Fits (bytes ++ liveBytes agc block) := by
  by_cases right : LenRight agc block
  · rw [(countBlock_counted counted right).exact_iff_fits]
    exact (and_iff_right right).symm
  · refine iff_of_false ?_ fun both => right both.1
    intro exact
    have negative : (block.len - 2 * agc.remainingDeadSps).toInt < 0 := by
      by_contra whole
      exact right (Int32.le_iff_toInt_le.mpr (not_lt.mp whole))
    have none : liveBytes agc block = [] := by
      rw [liveBytes, Int.toNat_of_nonpos (le_of_lt negative)]
      rfl
    have number := exact.number
    rw [none, List.append_nil] at number
    have small : bytes.length < 2 ^ 31 := by
      have high := (countBlock agc block).numInHisto.toInt_lt
      omega
    have low := (block.len - 2 * agc.remainingDeadSps).le_toInt
    have sum : (Int32.ofNat bytes.length + (block.len - 2 * agc.remainingDeadSps)).toInt =
        bytes.length := by
      rw [← counted.number]
      exact number
    rw [Int32.toInt_add, Int32.toInt_ofNat_of_lt small, Int.bmod_eq_of_le (by omega) (by omega)] at sum
    omega

def Result.since (result : Result) (bytes : Bytes) : Bytes :=
  if result.cleared then [] else bytes ++ result.counted

/-- The counters hold what was counted, which is little enough. -/
structure Sound (agc : Agc) (bytes : Bytes) : Prop where
  counted : Counted agc bytes
  fits : Fits bytes

theorem Sound.statistics (sound : Sound agc bytes) : Statistics agc bytes :=
  sound.counted.exact_iff_fits.mpr sound.fits

theorem Sound.cleared {agc : Agc} (number : agc.numInHisto = 0) (histo : agc.histo = fun _ => 0) :
    Sound agc [] := by
  refine ⟨⟨number, fun k => ?_⟩, by decide⟩
  rw [histo]
  rfl

theorem Sound.same {agc' : Agc} (sound : Sound agc bytes)
    (number : agc'.numInHisto = agc.numInHisto) (histo : agc'.histo = agc.histo) : Sound agc' bytes :=
  ⟨sound.counted.same number histo, sound.fits⟩

theorem returned_sound {agc' : Agc} (sound : Sound agc bytes)
    (number : agc'.numInHisto = agc.numInHisto) (histo : agc'.histo = agc.histo) (keepBlock : Bool) :
    Sound (returned agc' keepBlock).agc ((returned agc' keepBlock).since bytes) := by
  change Sound agc' (bytes ++ [])
  rw [List.append_nil]
  exact sound.same number histo

theorem judge_sound (gains : List Int32) {more : Bytes} (sound : Sound agc (bytes ++ more)) :
    Sound (judge gains more agc).agc ((judge gains more agc).since bytes) := by
  rw [judge]
  split
  · split
    · exact Sound.cleared rfl rfl
    · exact sound
  · exact ⟨scanned_counted sound.counted, sound.fits⟩

/-- A block that is counted does not make it too much. -/
def BlockFits (agc : Agc) (bytes : Bytes) (block : Block) : Prop :=
  Measures agc block → LenRight agc block ∧ Fits (bytes ++ liveBytes agc block)

theorem measure_sound (gains : List Int32) (sound : Sound agc bytes)
    (state : agc.agcState = .on ∨ agc.agcState = .reset_cont) (inside : BlockFits agc bytes block) :
    Sound (measure gains agc block).agc ((measure gains agc block).since bytes) := by
  rw [measure]
  split
  · exact returned_sound sound (by rfl) (by rfl) _
  · rename_i running
    split
    · exact returned_sound sound (by rfl) (by rfl) _
    · rename_i alive
      split
      · exact returned_sound sound (by rfl) (by rfl) _
      · rename_i going
        obtain ⟨right, fits⟩ := inside ⟨state, running, alive, going⟩
        exact judge_sound gains ⟨countBlock_counted sound.counted right, fits⟩

theorem softagc_sound (gains : List Int32) (times : Times) (sound : Sound agc bytes)
    (inside : BlockFits agc bytes block) :
    Sound (softagc gains times agc block).agc ((softagc gains times agc block).since bytes) := by
  rw [softagc]
  split
  · exact returned_sound sound (by rfl) (by rfl) _
  · exact returned_sound sound (by rfl) (by rfl) _
  · simp only [resetMeasurement]
    split
    · exact returned_sound sound (by rfl) (by rfl) _
    · split
      · exact returned_sound sound (by rfl) (by rfl) _
      · exact Sound.cleared rfl rfl
  · rename_i on
    exact measure_sound gains sound (.inl on) inside
  · rename_i cont
    exact measure_sound gains sound (.inr cont) inside

/-- With a block that is counted not too much was counted since the last reset. -/
def CountsFit (s : State) : Event → Prop
  | .block _ block => BlockFits s.agc s.counted block
  | .stream | .worker | .reactivate | .set_sample_rate => True

variable {tuner : TunerType} {s s' : State}

theorem sound_start (mode : UInt32) : Sound (start mode).agc (start mode).counted :=
  Sound.cleared rfl rfl

theorem other_step {event : Event} (taken : Steps tuner s event s')
    (other : ∀ times block, event ≠ .block times block) : s'.counted = s.counted ∧
      s'.agc.numInHisto = s.agc.numInHisto ∧ s'.agc.histo = s.agc.histo := by
  cases event with
  | block times block => exact absurd rfl (other times block)
  | stream =>
    rw [Steps, step, streamStep] at taken
    split at taken
    · cases taken
    · split at taken
      · cases taken
        exact ⟨rfl, rfl, rfl⟩
      · cases taken
    · cases taken
      exact ⟨rfl, rfl, rfl⟩
    · cases taken
      exact ⟨rfl, rfl, rfl⟩
    · rename_i rest _
      cases taken
      cases rest with
      | reset => exact ⟨rfl, rfl, rfl⟩
      | overload => exact ⟨rfl, rfl, rfl⟩
  | worker =>
    rw [Steps, step, workerStep] at taken
    split at taken
    · split at taken
      · cases taken
        exact ⟨rfl, rfl, rfl⟩
      · cases taken
    · cases taken
      exact ⟨rfl, rfl, rfl⟩
    · cases taken
    · split at taken
      · cases taken
        exact ⟨rfl, rfl, rfl⟩
      · cases taken
    · cases taken
      exact ⟨rfl, rfl, rfl⟩
    · cases taken
      simp only [Agc.command]
      split
      · exact ⟨trivial, rfl, rfl⟩
      · exact ⟨trivial, rfl, rfl⟩
  | reactivate =>
    cases taken
    simp only [reactivate_softagc]
    split
    · exact ⟨trivial, rfl, rfl⟩
    · exact ⟨trivial, rfl, rfl⟩
  | set_sample_rate =>
    cases taken
    simp only [Agc.rateChanged, reactivate_softagc]
    split
    · split
      · exact ⟨trivial, rfl, rfl⟩
      · exact ⟨trivial, rfl, rfl⟩
    · exact ⟨trivial, rfl, rfl⟩

theorem sound_step {event : Event} (sound : Sound s.agc s.counted) (fit : CountsFit s event)
    (taken : Steps tuner s event s') : Sound s'.agc s'.counted := by
  cases event with
  | block times block =>
    simp only [Steps, step] at taken
    split at taken
    · cases taken
      exact softagc_sound (get_tuner_gains tuner) times sound fit
    · cases taken
  | stream | worker | reactivate | set_sample_rate =>
    obtain ⟨counted, number, histo⟩ := other_step taken nofun
    rw [counted]
    exact sound.same number histo

/-- While few enough bytes and loud ones are counted between two resets, the counters are exact, and
    those behind a further block are if it keeps to that. -/
theorem statistics_exact {mode : UInt32} (run : Runs (Steps tuner) CountsFit (start mode) s) :
    Statistics s.agc s.counted ∧ ∀ block,
      Statistics (countBlock s.agc block) (s.counted ++ liveBytes s.agc block) ↔
        LenRight s.agc block ∧ Fits (s.counted ++ liveBytes s.agc block) := by
  have sound : Sound s.agc s.counted :=
    run.keeps (fun _ _ _ sound fit taken => sound_step sound fit taken) (sound_start mode)
  exact ⟨sound.statistics, fun block => countBlock_exact_iff sound.counted⟩

/-- Two samples behind the dead time of one. -/
def quiet : Block := ⟨fun _ => 127, 6, by decide⟩

theorem statistics_exact_quiet : ∃ s, Runs (Steps .r820t) CountsFit (start SOFTAGC_AUTO) s ∧
    s.counted = [127, 127, 127, 127] ∧ Statistics s.agc s.counted := by
  have run : Runs (Steps .r820t) CountsFit (start SOFTAGC_AUTO) _ :=
    .head (a := .worker) rfl trivial <| .head (a := .worker) rfl trivial <|
    .head (a := .block ⟨3, 1, by decide⟩ quiet) rfl (fun counts => absurd counts.1 (by decide)) <|
    .head (a := .block ⟨3, 1, by decide⟩ quiet) rfl (fun counts => absurd counts.1 (by decide)) <|
    .head (a := .stream) rfl trivial <| .head (a := .stream) rfl trivial <|
    .head (a := .stream) rfl trivial <| .head (a := .stream) rfl trivial <|
    .head (a := .worker) rfl trivial <| .head (a := .worker) rfl trivial <|
    .head (a := .worker) rfl trivial <|
    .head (a := .block ⟨3, 1, by decide⟩ quiet) rfl (fun _ => by decide) <| .refl
  exact ⟨_, run, by decide, (statistics_exact run).1⟩

/-- A block of the usual length, without an amplitude. -/
def hush : Block := ⟨fun _ => 127, 262144, by decide⟩

/-- So many blocks were counted. -/
structure Silent (s : State) (n : Nat) : Prop where
  counted : Counted s.agc s.counted
  bytes : s.counted = List.replicate (n * 262144) 127
  idle : s.stream = .idle
  mode : s.agc.softAgcMode = SOFTAGC_AUTO
  running : s.agc.remainingDeadSps = 0
  gain : s.agc.gainIdx ≠ 0
  state : s.agc.agcState = .on ∨ s.agc.agcState = .reset_cont

theorem loud_silence {k : Nat} (positive : 0 < k) (n : Nat) : loud k (List.replicate n 127) = 0 := by
  apply List.countP_eq_zero.mpr
  intro b silent
  rw [List.eq_of_mem_replicate silent]
  have none : bucket 127 = 0 := by decide
  rw [none, decide_eq_true_eq]
  omega

theorem fits_silence {n : Nat} (short : n < 2 ^ 31) : Fits (List.replicate n 127) := by
  refine ⟨?_, ?_, ?_, ?_⟩
  · rw [List.length_replicate]
    exact short
  · rw [loud_silence (by decide)]
    decide
  · rw [loud_silence (by decide)]
    decide
  · rw [loud_silence (by decide)]
    decide

theorem liveBytes_hush (running : agc.remainingDeadSps = 0) :
    liveBytes agc hush = List.replicate 262144 127 := by
  have all : (hush.len - 2 * agc.remainingDeadSps).toInt.toNat = 262144 := by
    rw [running]
    decide
  rw [liveBytes, all]
  apply List.eq_replicate_iff.mpr
  constructor
  · rw [List.length_map, List.length_range]
  · intro b there
    obtain ⟨i, _, rfl⟩ := List.mem_map.mp there
    rfl

theorem Silent.more {n : Nat} (silent : Silent s n) :
    s.counted ++ liveBytes s.agc hush = List.replicate ((n + 1) * 262144) 127 := by
  rw [liveBytes_hush silent.running, silent.bytes, ← List.replicate_add, Nat.succ_mul]

theorem Silent.measures {n : Nat} (silent : Silent s n) : Measures s.agc hush :=
  ⟨silent.state, by rw [silent.running]; decide, fun dead => dead.1 silent.running,
    fun last => silent.gain last.1⟩

theorem scanned_auto (agc : Agc) (mode : agc.softAgcMode = SOFTAGC_AUTO)
    (state : agc.agcState = .on ∨ agc.agcState = .reset_cont) :
    (scanned agc).agcState = .on ∨ (scanned agc).agcState = .reset_cont := by
  rw [scanned]
  split
  · rw [if_neg (by rw [mode]; decide), if_pos (by rw [mode]; decide)]
    exact .inl rfl
  · exact state

theorem scanned_keeps (agc : Agc) : (scanned agc).softAgcMode = agc.softAgcMode ∧
    (scanned agc).remainingDeadSps = agc.remainingDeadSps ∧ (scanned agc).gainIdx = agc.gainIdx := by
  rw [scanned_eq]
  exact ⟨rfl, rfl, rfl⟩

theorem silent_step {n : Nat} (silent : Silent s n) (short : n + 1 < 8192) (times : Times) :
    Silent (s.receive tuner times hush) (n + 1) := by
  have right : LenRight s.agc hush := by
    rw [LenRight, silent.running]
    decide
  have counted := countBlock_counted silent.counted right
  have bytes := silent.more
  have quiet : ¬ oversteered (countBlock s.agc hush) = true := by
    rw [bytes] at counted
    have exact := counted.exact_iff_fits.mpr (fits_silence (by omega))
    rw [exact.oversteered_iff, List.length_replicate, loud_silence (by decide), loud_silence (by decide),
      loud_silence (by decide)]
    omega
  obtain ⟨state, pending, alive, going⟩ := silent.measures
  have call : softagc (get_tuner_gains tuner) times s.agc hush =
      ⟨scanned (countBlock s.agc hush), .inl (scanned (countBlock s.agc hush)).keeps,
        liveBytes s.agc hush, false, false⟩ := by
    have measured : softagc (get_tuner_gains tuner) times s.agc hush =
        measure (get_tuner_gains tuner) s.agc hush := by
      rw [softagc]
      cases state with
      | inl on => rw [on]
      | inr cont => rw [cont]
    rw [measured, measure, if_neg pending, if_neg alive, if_neg going, judge, if_neg quiet]
  have state := scanned_auto (countBlock s.agc hush) silent.mode state
  obtain ⟨mode, running, gain⟩ := scanned_keeps (countBlock s.agc hush)
  simp only [State.receive, call, Bool.false_eq_true, if_false]
  exact ⟨scanned_counted counted, bytes, rfl, mode.trans silent.mode, running, gain ▸ silent.gain, state⟩

def WholeSamples (_ : State) : Event → Prop
  | .block _ block => 2 ∣ block.len.toInt
  | .stream | .worker | .reactivate | .set_sample_rate => True

theorem hush_whole : 2 ∣ hush.len.toInt := by decide

theorem silent_run (n : Nat) (short : n < 8192) :
    ∃ s, Runs (Steps .r820t) WholeSamples (start SOFTAGC_AUTO) s ∧ Silent s n := by
  induction n with
  | zero =>
    have run : Runs (Steps .r820t) WholeSamples (start SOFTAGC_AUTO) _ :=
      .head (a := .worker) rfl trivial <| .head (a := .worker) rfl trivial <|
      .head (a := .block ⟨204800, 0, by decide⟩ hush) rfl hush_whole <|
      .head (a := .block ⟨204800, 0, by decide⟩ hush) rfl hush_whole <|
      .head (a := .stream) rfl trivial <| .head (a := .stream) rfl trivial <|
      .head (a := .stream) rfl trivial <| .head (a := .stream) rfl trivial <|
      .head (a := .worker) rfl trivial <| .head (a := .worker) rfl trivial <|
      .head (a := .worker) rfl trivial <| .refl
    exact ⟨_, run, ⟨rfl, fun _ => rfl⟩, rfl, rfl, rfl, rfl, by decide, .inr rfl⟩
  | succ n ih =>
    obtain ⟨s, run, silent⟩ := ih (by omega)
    have times : Times := ⟨204800, 0, by decide⟩
    have next : Steps .r820t s (.block times hush) (s.receive .r820t times hush) := by
      rw [Steps, step, silent.idle]
    exact ⟨_, run.tail next hush_whole, silent_step silent short times⟩

/-- With the number of the block that makes them `2 ^ 31` bytes the number is negative. -/
theorem not_exact : ¬ ∀ (tuner : TunerType) (mode : UInt32) (s : State),
    Runs (Steps tuner) WholeSamples (start mode) s →
      Statistics s.agc s.counted ∧ ∀ block, 2 ∣ block.len.toInt → Measures s.agc block →
        Statistics (countBlock s.agc block) (s.counted ++ liveBytes s.agc block) := by
  intro always
  obtain ⟨s, run, silent⟩ := silent_run 8191 (by decide)
  have exact := (always .r820t SOFTAGC_AUTO s run).2 hush hush_whole silent.measures
  have number := ((countBlock_exact_iff silent.counted).mp exact).2.number
  rw [silent.more, List.length_replicate] at number
  omega

end Soapy.Rtl.SoftAgc
