import Soapy.Lime.PllPlanning

/-! # The VCO of an FPGA PLL

Which frequency the loops of `SetPllFrequency` arrive at, and with which counts.
-/

namespace Soapy.Lime.Pll

open Lib

def firstMultiple (outFrequency : ℚ) : Nat :=
  ⌊outFrequency * (⌊vcoLower / outFrequency⌋₊ + 1 : Nat)⌋₊

/-- The frequencies from `first` on, up to 1300 MHz. -/
def MultipleFrom (first : Nat) (outFrequency : ℚ) (v : Nat) : Prop :=
  v ≤ 1300000000 ∧ ∃ j, v = first + j * ⌊outFrequency⌋₊

def Candidate (clocks : List Clock) (v : Nat) : Prop :=
  ∃ clock ∈ clocks, MultipleFrom (firstMultiple clock.outFrequency) clock.outFrequency v

def integerDividers (clocks : List Clock) (v : Nat) : Nat :=
  clocks.countP fun clock => ¬ clock.bypass ∧ v % ⌊clock.outFrequency⌋₊ = 0

def Best (clocks : List Clock) (v : Nat) : Prop :=
  Candidate clocks v ∧ ∀ w, Candidate clocks w → integerDividers clocks w ≤ integerDividers clocks v

/-- The first count with a reference of 5 MHz at most, or the last whose M has a byte. -/
def countN (inputFreq : ℚ) (v : Nat) : Nat :=
  max 1 ⌈min (inputFreq / 5000000) (511 * inputFreq / (2 * v) - 1)⌉₊

def countM (inputFreq : ℚ) (v : Nat) : Nat := ⌊v / inputFreq * countN inputFreq v + 1 / 2⌋₊

def nearest (inputFreq : ℚ) (v : Nat) : ℚ := inputFreq * countM inputFreq v / countN inputFreq v

def deviation (inputFreq : ℚ) (v : Nat) : ℚ := |(v : ℚ) - nearest inputFreq v|

/-- The candidate with the most integer dividers that comes nearest. -/
def Chosen (inputFreq : ℚ) (clocks : List Clock) (v : Nat) : Prop :=
  IsLastLeast (deviation inputFreq) (Best clocks) v

/-- The counts are found before `int` ends. -/
def Countable (inputFreq : ℚ) (v : Nat) : Prop :=
  inputFreq ≤ 5000000 * INT_MAX ∨ 511 * inputFreq ≤ 2 * v * INT_MAX

theorem divide_ok {x y : ℚ} (other : y ≠ 0) : divide x y = .ok (x / y) := if_neg other

theorem toInt_ok {x : ℚ} (small : x < 2147483648) : toInt x = .ok ⌊x⌋₊ := if_pos small

theorem toInt_undefined {x : ℚ} (large : 2147483648 ≤ x) : toInt x = .error .undefined :=
  if_neg (not_lt.mpr large)

theorem toUnsignedLong_ok {x : ℚ} (small : x < 18446744073709551616) :
    toUnsignedLong x = .ok ⌊x⌋₊ := if_pos small

theorem ok_bind {α β : Type} (a : α) (f : α → Except Stop β) : (Except.ok a >>= f) = f a := rfl

section Candidates

variable {out : ℚ} {vcos : OrdMap Nat Nat} {clocks : List Clock}

theorem inVco_iff {freq : Nat} :
    (vcoLower ≤ freq ∧ (freq : ℚ) ≤ vcoUpper) ↔ 600000000 ≤ freq ∧ freq ≤ 1300000000 := by
  unfold vcoLower vcoUpper
  norm_cast

theorem firstMultiple_lower (fast : 5000000 ≤ out) : 600000000 ≤ firstMultiple out := by
  have positive : 0 < out := by linarith
  have above := Nat.lt_floor_add_one (vcoLower / out)
  rw [div_lt_iff₀ positive] at above
  apply Nat.le_floor
  push_cast
  unfold vcoLower at above ⊢
  linarith

theorem floor_le_firstMultiple (fast : 5000000 ≤ out) : ⌊out⌋₊ ≤ firstMultiple out := by
  apply Nat.floor_le_floor
  have times : (1 : ℚ) ≤ (⌊vcoLower / out⌋₊ + 1 : Nat) := by exact_mod_cast Nat.le_add_left 1 _
  nlinarith

theorem multiple_small (fast : 5000000 ≤ out) :
    out * (⌊vcoLower / out⌋₊ + 1 : Nat) ≤ 1200000000 ∨
      out * (⌊vcoLower / out⌋₊ + 1 : Nat) = out := by
  have positive : 0 < out := by linarith
  by_cases slow : out ≤ 600000000
  · have below : ⌊vcoLower / out⌋₊ * out ≤ vcoLower := by
      have floor := Nat.floor_le (div_nonneg (by unfold vcoLower; norm_num) positive.le :
        0 ≤ vcoLower / out)
      rwa [le_div_iff₀ positive] at floor
    left
    push_cast
    unfold vcoLower at below ⊢
    linarith
  · have none : ⌊vcoLower / out⌋₊ = 0 := by
      rw [Nat.floor_eq_zero, div_lt_one positive]
      unfold vcoLower
      linarith
    right
    rw [none]
    norm_num

theorem firstMultiple_upper (fast : 5000000 ≤ out) :
    firstMultiple out ≤ 1300000000 ↔ out < 1300000001 := by
  constructor
  · intro inside
    have whole := (floor_le_firstMultiple fast).trans inside
    have below := Nat.lt_floor_add_one out
    have bound : (⌊out⌋₊ : ℚ) ≤ 1300000000 := by exact_mod_cast whole
    linarith
  · intro small
    cases multiple_small fast with
    | inl low =>
      apply (Nat.floor_le_floor low).trans
      norm_num
    | inr same =>
      rw [firstMultiple, same, ← Nat.lt_succ_iff, Nat.floor_lt (by linarith)]
      exact_mod_cast small

theorem multipleFrom_next {freq v : Nat} (inside : freq ≤ 1300000000) :
    MultipleFrom freq out v ↔ v = freq ∨ MultipleFrom (freq + ⌊out⌋₊) out v := by
  constructor
  · rintro ⟨upper, j, here⟩
    cases j with
    | zero => exact .inl (by simpa using here)
    | succ j => exact .inr ⟨upper, j, by rw [here]; ring⟩
  · rintro (here | ⟨upper, j, here⟩)
    · exact ⟨here ▸ inside, 0, by simp [here]⟩
    · exact ⟨upper, j + 1, by rw [here]; ring⟩

/-- What the `while` loop adds. -/
theorem multiples_spec (fast : 5000000 ≤ out) {turns freq : Nat} (lower : 600000000 ≤ freq)
    (small : freq ≤ 1300000000 → out < 1300000001) (some : 0 < turns)
    (enough : 1300000001 < freq + turns) (vcos : OrdMap Nat Nat) :
    ∃ vcos', multiples out turns freq vcos = .ok vcos' ∧
      ∀ e, e ∈ vcos'.entries ↔ e.2 = 0 ∧ MultipleFrom freq out e.1 ∨
        ¬ MultipleFrom freq out e.1 ∧ e ∈ vcos.entries := by
  have whole : 5000000 ≤ ⌊out⌋₊ := Nat.le_floor (by exact_mod_cast fast)
  induction turns generalizing freq vcos with
  | zero => cases some
  | succ turns ih =>
    rw [multiples]
    by_cases inside : freq ≤ 1300000000
    · have step : ⌊(freq : ℚ) + out⌋₊ = freq + ⌊out⌋₊ := by
        rw [add_comm, Nat.floor_add_natCast (by linarith), add_comm]
      have bound : (freq : ℚ) ≤ 1300000000 := by exact_mod_cast inside
      have next : toUnsignedLong (freq + out) = .ok (freq + ⌊out⌋₊) := by
        rw [toUnsignedLong_ok (by linarith [small inside]), step]
      have small' : freq + ⌊out⌋₊ ≤ 1300000000 → out < 1300000001 := fun _ => small inside
      obtain ⟨vcos', run, entries⟩ := ih (by omega) small' (by omega) (by omega)
        (vcos.insert freq 0)
      rw [if_pos (inVco_iff.mpr ⟨lower, inside⟩), next, ok_bind]
      refine ⟨vcos', run, ?_⟩
      intro e
      have here : e = (freq, 0) ↔ e.1 = freq ∧ e.2 = 0 := Prod.ext_iff
      rw [entries, OrdMap.mem_insert, multipleFrom_next inside, here]
      grind
    · rw [if_neg fun within => inside (inVco_iff.mp within).2]
      refine ⟨vcos, rfl, ?_⟩
      intro e
      have none : ¬ MultipleFrom freq out e.1 := by
        rintro ⟨upper, j, here⟩
        exact absurd (here ▸ upper) (by omega)
      simp [none]

theorem addMultiples_ok {clock : Clock} (fast : 5000000 ≤ clock.outFrequency)
    (converts : clock.outFrequency < 18446744073709551616) (vcos : OrdMap Nat Nat) :
    ∃ vcos', addMultiples vcos clock = .ok vcos' ∧
      ∀ e, e ∈ vcos'.entries ↔
        e.2 = 0 ∧ MultipleFrom (firstMultiple clock.outFrequency) clock.outFrequency e.1 ∨
        ¬ MultipleFrom (firstMultiple clock.outFrequency) clock.outFrequency e.1 ∧
          e ∈ vcos.entries := by
  have positive : 0 < clock.outFrequency := by linarith
  have times : vcoLower / clock.outFrequency < 2147483648 := by
    rw [div_lt_iff₀ positive]
    unfold vcoLower
    linarith
  have range : clock.outFrequency * ((⌊vcoLower / clock.outFrequency⌋₊ : ℚ) + 1) <
      18446744073709551616 := by
    have product := multiple_small fast
    push_cast at product
    cases product with
    | inl low => linarith
    | inr same => rwa [same]
  have first : ⌊clock.outFrequency * ((⌊vcoLower / clock.outFrequency⌋₊ : ℚ) + 1)⌋₊ =
      firstMultiple clock.outFrequency := by
    rw [firstMultiple]
    push_cast
    rfl
  have lower := firstMultiple_lower fast
  rw [addMultiples, divide_ok positive.ne', ok_bind, toInt_ok times, ok_bind,
    toUnsignedLong_ok range, ok_bind, first]
  exact multiples_spec fast lower (firstMultiple_upper fast).mp (by norm_num) (by omega) vcos

theorem addMultiples_undefined {clock : Clock} (large : 18446744073709551616 ≤ clock.outFrequency) :
    addMultiples vcos clock = .error .undefined := by
  have positive : 0 < clock.outFrequency := by linarith
  have ratio : vcoLower / clock.outFrequency < 1 := by
    rw [div_lt_one positive]
    unfold vcoLower
    linarith
  have none : ⌊vcoLower / clock.outFrequency⌋₊ = 0 := Nat.floor_eq_zero.mpr ratio
  have range : toUnsignedLong (clock.outFrequency * (((0 : Nat) : ℚ) + 1)) = .error .undefined := by
    apply if_neg
    norm_num
    exact large
  rw [addMultiples, divide_ok positive.ne', ok_bind, toInt_ok (by linarith), ok_bind, none, range]
  rfl

section

variable (fast : ∀ clock ∈ clocks, 5000000 ≤ clock.outFrequency)
include fast

theorem availableVCOs_ok
    (converts : ∀ clock ∈ clocks, clock.outFrequency < 18446744073709551616) :
    ∃ vcos, availableVCOs clocks = .ok vcos ∧
      ∀ e, e ∈ vcos.entries ↔ e.2 = 0 ∧ Candidate clocks e.1 := by
  have all (start : OrdMap Nat Nat) :
      ∃ vcos, clocks.foldlM addMultiples start = .ok vcos ∧
        ∀ e, e ∈ vcos.entries ↔
          e.2 = 0 ∧ Candidate clocks e.1 ∨ ¬ Candidate clocks e.1 ∧ e ∈ start.entries := by
    induction clocks generalizing start with
    | nil =>
      refine ⟨start, rfl, ?_⟩
      intro e
      simp [Candidate]
    | cons clock rest ih =>
      rw [List.forall_mem_cons] at fast converts
      obtain ⟨middle, first, added⟩ := addMultiples_ok fast.1 converts.1 start
      obtain ⟨vcos, run, entries⟩ := ih fast.2 converts.2 middle
      rw [List.foldlM_cons, first]
      refine ⟨vcos, run, ?_⟩
      intro e
      have split : Candidate (clock :: rest) e.1 ↔
          MultipleFrom (firstMultiple clock.outFrequency) clock.outFrequency e.1 ∨
            Candidate rest e.1 := by
        simp [Candidate]
      rw [entries, added, split]
      grind
  obtain ⟨vcos, run, entries⟩ := all .empty
  refine ⟨vcos, run, ?_⟩
  intro e
  rw [entries]
  simp [OrdMap.empty]

omit fast in
structure Keys (clocks : List Clock) (keys : List Nat) : Prop where
  sorted : keys.Pairwise (· < ·)
  candidates : ∀ v, v ∈ keys ↔ Candidate clocks v

theorem exists_keys
    (converts : ∀ clock ∈ clocks, clock.outFrequency < 18446744073709551616) :
    ∃ vcos keys, availableVCOs clocks = .ok vcos ∧ vcos.entries = keys.map (fun v => (v, 0)) ∧
      Keys clocks keys := by
  obtain ⟨vcos, run, entries⟩ := availableVCOs_ok fast converts
  refine ⟨vcos, vcos.entries.map Prod.fst, run, ?_, List.pairwise_map.mpr vcos.sorted, ?_⟩
  · have zero : ∀ e ∈ vcos.entries, ((fun v => (v, 0)) ∘ Prod.fst) e = id e := fun e member =>
      Prod.ext rfl ((entries e).mp member).1.symm
    rw [List.map_map, List.map_congr_left zero, List.map_id]
  · intro v
    rw [List.mem_map]
    constructor
    · rintro ⟨e, member, rfl⟩
      exact ((entries e).mp member).2
    · intro candidate
      exact ⟨(v, 0), (entries (v, 0)).mpr ⟨rfl, candidate⟩, rfl⟩

theorem availableVCOs_undefined
    (large : ∃ clock ∈ clocks, ¬ clock.outFrequency < 18446744073709551616) :
    availableVCOs clocks = .error .undefined := by
  apply foldlM_stops _ _ large
  · intro vcos clock member converts
    obtain ⟨vcos', run, _⟩ := addMultiples_ok (fast clock member) converts vcos
    exact ⟨vcos', run⟩
  · intro vcos clock _ other
    exact addMultiples_undefined (not_lt.mp other)

theorem exists_candidate :
    (∃ v, Candidate clocks v) ↔ ∃ clock ∈ clocks, clock.outFrequency < 1300000001 := by
  constructor
  · rintro ⟨v, clock, member, upper, j, here⟩
    refine ⟨clock, member, (firstMultiple_upper (fast clock member)).mp ?_⟩
    omega
  · rintro ⟨clock, member, small⟩
    exact ⟨firstMultiple clock.outFrequency, clock, member,
      (firstMultiple_upper (fast clock member)).mpr small, 0, by simp⟩

theorem Candidate.lower {v : Nat} (candidate : Candidate clocks v) : 600000000 ≤ v := by
  obtain ⟨clock, member, _, j, here⟩ := candidate
  have first := firstMultiple_lower (fast clock member)
  omega

end

end Candidates

section Scores

variable {clocks : List Clock} {v : Nat}

def scoredKeys (clocks : List Clock) (keys : List Nat) : List (Nat × Nat) :=
  keys.map fun v => (v, integerDividers clocks v)

/-- The frequencies of the outputs in use are `int`s. -/
def Clock.Scored (clock : Clock) : Prop := clock.bypass = true ∨ clock.outFrequency < 2147483648

theorem foldl_score (v start : Nat) :
    clocks.foldl (fun score clock =>
      if ¬ clock.bypass ∧ v % ⌊clock.outFrequency⌋₊ = 0 then score + 1 else score) start =
      start + integerDividers clocks v := by
  unfold integerDividers
  induction clocks generalizing start with
  | nil => rfl
  | cons clock rest ih =>
    rw [List.foldl_cons, ih, List.countP_cons]
    by_cases divides : ¬ clock.bypass ∧ v % ⌊clock.outFrequency⌋₊ = 0
    · rw [if_pos divides, if_pos (decide_eq_true divides)]
      omega
    · rw [if_neg divides, if_neg fun counted => divides (of_decide_eq_true counted)]
      rfl

section

variable (fast : ∀ clock ∈ clocks, 5000000 ≤ clock.outFrequency)
include fast

theorem score_ok
    (scored : ∀ clock ∈ clocks, clock.Scored) (v : Nat) :
    score clocks (v, 0) = .ok (integerDividers clocks v) := by
  rw [← Nat.zero_add (integerDividers clocks v), ← foldl_score]
  apply foldlM_done
  intro score clock member
  have frequency := fast clock member
  by_cases bypass : clock.bypass = true
  · simp [bypass]
  · have small := (scored clock member).resolve_left bypass
    have some : clock.outFrequency ≠ 0 := by linarith
    have whole : 5000000 ≤ ⌊clock.outFrequency⌋₊ := Nat.le_floor (by exact_mod_cast frequency)
    have divisor : ⌊clock.outFrequency⌋₊ ≠ 0 := by omega
    rw [if_neg (by simp [bypass, some]), toInt_ok small, ok_bind, if_neg divisor]
    simp [bypass]

theorem score_undefined
    (large : ∃ clock ∈ clocks, ¬ clock.Scored) (vco : Nat × Nat) :
    score clocks vco = .error .undefined := by
  apply foldlM_stops _ _ large
  · intro score clock member scored
    have frequency := fast clock member
    have some : clock.outFrequency ≠ 0 := by linarith
    by_cases bypass : clock.bypass = true
    · exact ⟨score, if_pos (.inr bypass)⟩
    · have whole : 5000000 ≤ ⌊clock.outFrequency⌋₊ := Nat.le_floor (by exact_mod_cast frequency)
      have divisor : ⌊clock.outFrequency⌋₊ ≠ 0 := by omega
      rw [if_neg (by simp [bypass, some]), toInt_ok (scored.resolve_left bypass), ok_bind,
        if_neg divisor]
      exact ⟨_, rfl⟩
  · intro score clock member other
    obtain ⟨bypass, large⟩ := not_or.mp other
    have some : clock.outFrequency ≠ 0 := by linarith [fast clock member]
    rw [if_neg (by simp [bypass, some]), toInt_undefined (not_lt.mp large)]
    rfl

theorem scores_ok
    (scored : ∀ clock ∈ clocks, clock.Scored) {vcos : OrdMap Nat Nat} {keys : List Nat}
    (entries : vcos.entries = keys.map fun v => (v, 0)) :
    scores clocks vcos = .ok (scoredKeys clocks keys) := by
  have run : scores clocks vcos =
      .ok (vcos.entries.map fun e => (e.1, integerDividers clocks e.1)) := by
    apply mapM_done
    intro e member
    rw [entries] at member
    obtain ⟨v, _, rfl⟩ := List.mem_map.mp member
    rw [score_ok fast scored]
    rfl
  rw [run, entries, List.map_map]
  rfl

theorem scores_undefined
    (large : ∃ clock ∈ clocks, ¬ clock.Scored) {vcos : OrdMap Nat Nat} (some : vcos.entries ≠ []) :
    scores clocks vcos = .error .undefined := by
  apply mapM_stops _ some
  intro vco _
  rw [score_undefined fast large]
  rfl

end

theorem bestScore_spec (vcos : List (Nat × Nat)) :
    (∀ vco ∈ vcos, vco.2 ≤ bestScore vcos) ∧
      (vcos ≠ [] → ∃ vco ∈ vcos, vco.2 = bestScore vcos) := by
  have all (start : Nat) : start ≤ vcos.foldl (fun best vco =>
        if vco.2 > best then vco.2 else best) start ∧
      (∀ vco ∈ vcos, vco.2 ≤ vcos.foldl (fun best vco =>
        if vco.2 > best then vco.2 else best) start) ∧
      (vcos.foldl (fun best vco => if vco.2 > best then vco.2 else best) start = start ∨
        ∃ vco ∈ vcos, vco.2 = vcos.foldl (fun best vco =>
          if vco.2 > best then vco.2 else best) start) := by
    induction vcos generalizing start with
    | nil => exact ⟨le_refl _, nofun, .inl rfl⟩
    | cons vco rest ih =>
      simp only [List.foldl_cons, List.mem_cons, forall_eq_or_imp, exists_eq_or_imp]
      by_cases better : vco.2 > start
      · simp only [if_pos better]
        obtain ⟨above, all, found⟩ := ih vco.2
        exact ⟨better.le.trans above, ⟨above, all⟩, .inr (found.imp_left Eq.symm)⟩
      · simp only [if_neg better]
        obtain ⟨above, all, found⟩ := ih start
        exact ⟨above, ⟨(not_lt.mp better).trans above, all⟩, found.imp_right .inr⟩
  obtain ⟨_, most, found⟩ := all 0
  refine ⟨most, ?_⟩
  intro some
  cases found with
  | inr reached => exact reached
  | inl none =>
    obtain ⟨vco, rest, rfl⟩ := List.exists_cons_of_ne_nil some
    refine ⟨vco, List.mem_cons_self, ?_⟩
    have low := most vco List.mem_cons_self
    rw [none] at low
    exact (Nat.le_zero.mp low).trans none.symm

end Scores

section Counts

variable {inputFreq : ℚ} {v N left : Nat}

theorem countN_le_iff (some : 0 < v) (one : 1 ≤ N) :
    countN inputFreq v ≤ N ↔
      inputFreq ≤ 5000000 * N ∨ 511 * inputFreq ≤ 2 * v * (N + 1 : Nat) := by
  have positive : (0 : ℚ) < 2 * v := by positivity
  rw [countN, max_le_iff, Nat.ceil_le, min_le_iff, div_le_iff₀ (by norm_num), sub_le_iff_le_add,
    div_le_iff₀ positive]
  push_cast
  rw [mul_comm (5000000 : ℚ), mul_comm (2 * (v : ℚ))]
  exact and_iff_right one

section

variable (fast : 5000000 ≤ inputFreq)
include fast

theorem count_next (n : Nat) :
    255 < ⌊v / inputFreq * n + 1 / 2⌋₊ ↔ 511 * inputFreq ≤ 2 * v * n := by
  have positive : 0 < inputFreq := by linarith
  have product : v / inputFreq * n = v * n / inputFreq := by ring
  rw [← Nat.succ_le_iff, Nat.le_floor_iff (by positivity), product, ← sub_le_iff_le_add,
    le_div_iff₀ positive]
  norm_num
  constructor
  · intro bound
    linarith
  · intro bound
    linarith

theorem countSearch_turn (one : 1 ≤ N) (small : v / inputFreq * N ≤ 260) :
    countSearch inputFreq (v / inputFreq) left N ⌊v / inputFreq * N + 1 / 2⌋₊ =
      if inputFreq ≤ 5000000 * N ∨ 0 < left ∧ 511 * inputFreq ≤ 2 * v * (N + 1 : Nat) then
        .ok (N, ⌊v / inputFreq * N + 1 / 2⌋₊)
      else match left with
        | 0 => .error .undefined
        | left + 1 => countSearch inputFreq (v / inputFreq) left (N + 1)
            ⌊v / inputFreq * (N + 1 : Nat) + 1 / 2⌋₊ := by
  have positive : (0 : ℚ) < N := by exact_mod_cast one
  have above : inputFreq / N > PLLlowerLimit ↔ ¬ inputFreq ≤ 5000000 * N := by
    rw [gt_iff_lt, lt_div_iff₀ positive, not_le]
    rfl
  have ratio : v / inputFreq ≤ 260 := by
    have coef : 0 ≤ v / inputFreq := by positivity
    have count : (1 : ℚ) ≤ N := by exact_mod_cast one
    nlinarith
  rw [countSearch.eq_def, divide_ok positive.ne', ok_bind]
  by_cases slow : inputFreq ≤ 5000000 * N
  · rw [if_neg (fun fast => above.mp fast slow), if_pos (.inl slow)]
  · rw [if_pos (above.mpr slow)]
    cases left with
    | zero => rw [if_neg (by simp [slow])]
    | succ left =>
      have next : v / inputFreq * (N + 1 : Nat) + 1 / 2 < 2147483648 := by
        push_cast
        linarith
      simp only [toInt_ok next, ok_bind, toInt_ok (by linarith : v / inputFreq * N + 1 / 2 <
        2147483648), gt_iff_lt, count_next fast, slow, false_or, Nat.succ_pos, true_and]

theorem next_small (n : Nat) (low : ¬ 511 * inputFreq ≤ 2 * v * n) : v / inputFreq * n ≤ 260 := by
  have positive : 0 < inputFreq := by linarith
  have product : v / inputFreq * n = v * n / inputFreq := by ring
  rw [product, div_le_iff₀ positive]
  linarith

/-- The loop ends at the counts, however large the input frequency is, unless `int` ends first. -/
theorem countSearch_ok (some : 0 < v)
    (countable : Countable inputFreq v) (range : N + left = INT_MAX) (one : 1 ≤ N)
    (small : v / inputFreq * N ≤ 260) (most : N ≤ countN inputFreq v) :
    countSearch inputFreq (v / inputFreq) left N ⌊v / inputFreq * N + 1 / 2⌋₊ =
      .ok (countN inputFreq v, countM inputFreq v) := by
  have ends (stop : countN inputFreq v ≤ N) :
      (Except.ok (N, ⌊v / inputFreq * N + 1 / 2⌋₊) : Except Stop (Nat × Nat)) =
        .ok (countN inputFreq v, countM inputFreq v) := by
    have here : countN inputFreq v = N := le_antisymm stop most
    rw [countM, here]
  induction left generalizing N with
  | zero =>
    rw [countSearch_turn fast one small]
    by_cases slow : inputFreq ≤ 5000000 * N
    · rw [if_pos (.inl slow)]
      exact ends ((countN_le_iff some one).mpr (.inl slow))
    · exfalso
      have last : N = INT_MAX := range
      cases countable with
      | inl slow' => exact slow (last ▸ slow')
      | inr high =>
        have before : countN inputFreq v ≤ N - 1 := by
          rw [countN_le_iff some (by rw [last]; decide), Nat.sub_add_cancel one, last]
          exact .inr high
        omega
  | succ left ih =>
    rw [countSearch_turn fast one small]
    by_cases stop : inputFreq ≤ 5000000 * N ∨ 511 * inputFreq ≤ 2 * v * (N + 1 : Nat)
    · rw [if_pos (stop.imp_right fun high => ⟨Nat.succ_pos _, high⟩)]
      exact ends ((countN_le_iff some one).mpr stop)
    · have more : ¬ countN inputFreq v ≤ N := fun le => stop ((countN_le_iff some one).mp le)
      obtain ⟨_, low⟩ := not_or.mp stop
      rw [if_neg fun ends => stop (ends.imp_right And.right)]
      apply ih (by omega) (by omega) (next_small fast (N + 1) low) (by omega)
      intro le
      have here : countN inputFreq v = N + 1 := le_antisymm le (by omega)
      rw [countM, here]

theorem countSearch_undefined
    (endless : ¬ Countable inputFreq v) (range : N + left = INT_MAX) (one : 1 ≤ N)
    (small : v / inputFreq * N ≤ 260) :
    countSearch inputFreq (v / inputFreq) left N ⌊v / inputFreq * N + 1 / 2⌋₊ =
      .error .undefined := by
  obtain ⟨quick, low⟩ := not_or.mp endless
  have bound : (N : ℚ) ≤ INT_MAX := by exact_mod_cast (by omega : N ≤ INT_MAX)
  have reference : ¬ inputFreq ≤ 5000000 * N := by
    intro slow
    apply quick
    linarith
  induction left generalizing N with
  | zero =>
    rw [countSearch_turn fast one small, if_neg]
    simp [reference]
  | succ left ih =>
    have bound' : ((N + 1 : Nat) : ℚ) ≤ INT_MAX := by exact_mod_cast (by omega : N + 1 ≤ INT_MAX)
    have next : ¬ 511 * inputFreq ≤ 2 * v * (N + 1 : Nat) := by
      intro high
      have scaled : (2 * v : ℚ) * (N + 1 : Nat) ≤ 2 * v * INT_MAX :=
        mul_le_mul_of_nonneg_left bound' (by positivity)
      exact low (high.trans scaled)
    have reference' : ¬ inputFreq ≤ 5000000 * (N + 1 : Nat) := by
      intro slow
      apply quick
      linarith
    rw [countSearch_turn fast one small, if_neg]
    · exact ih (by omega) (by omega) (next_small fast (N + 1) next) bound' reference'
    · simp only [reference, false_or, not_and]
      exact fun _ => next

omit fast in
theorem countN_pos (inputFreq : ℚ) (v : Nat) : 1 ≤ countN inputFreq v := le_max_left _ _

theorem count_small (some : 0 < v) (upper : v ≤ 1300000000) :
    v / inputFreq * countN inputFreq v ≤ 260 := by
  have one := countN_pos inputFreq v
  cases Nat.lt_or_ge 1 (countN inputFreq v) with
  | inl more =>
    have before : ¬ countN inputFreq v ≤ countN inputFreq v - 1 := by omega
    rw [countN_le_iff some (by omega), Nat.sub_add_cancel one] at before
    exact next_small fast _ (not_or.mp before).2
  | inr single =>
    have here : countN inputFreq v = 1 := le_antisymm single one
    have bound : (v : ℚ) ≤ 1300000000 := by exact_mod_cast upper
    rw [here, Nat.cast_one, mul_one, div_le_iff₀ (by linarith)]
    linarith

theorem countM_upper (some : 0 < v) (upper : v ≤ 1300000000) :
    countM inputFreq v ≤ 260 := by
  have small := count_small fast some upper
  rw [countM, ← Nat.lt_succ_iff, Nat.floor_lt (by positivity)]
  norm_num
  linarith

omit fast in
theorem reference_small (some : 0 < v) (upper : v ≤ 1300000000) :
    inputFreq ≤ 11000000 * countN inputFreq v := by
  have one : (1 : ℚ) ≤ countN inputFreq v := by exact_mod_cast countN_pos inputFreq v
  cases (countN_le_iff some (countN_pos inputFreq v)).mp (le_refl _) with
  | inl slow => linarith
  | inr high =>
    have bound : (v : ℚ) ≤ 1300000000 := by exact_mod_cast upper
    push_cast at high
    nlinarith

theorem deviation_small (some : 0 < v) (upper : v ≤ 1300000000) :
    deviation inputFreq v ≤ 5500000 := by
  have positive : 0 < inputFreq := by linarith
  have one : (0 : ℚ) < countN inputFreq v := by exact_mod_cast countN_pos inputFreq v
  have reference : inputFreq / countN inputFreq v ≤ 11000000 := by
    rw [div_le_iff₀ one]
    exact reference_small some upper
  have nonneg : 0 ≤ v / inputFreq * countN inputFreq v + 1 / 2 := by positivity
  have below := Nat.floor_le nonneg
  have above := Nat.lt_floor_add_one (v / inputFreq * countN inputFreq v + 1 / 2)
  have rounded : |v / inputFreq * countN inputFreq v - countM inputFreq v| ≤ 1 / 2 := by
    rw [countM, abs_le]
    constructor
    · linarith
    · linarith
  have scaled : (v : ℚ) - nearest inputFreq v = inputFreq / countN inputFreq v *
      (v / inputFreq * countN inputFreq v - countM inputFreq v) := by
    rw [nearest]
    field_simp
  rw [deviation, scaled, abs_mul, abs_of_pos (div_pos positive one)]
  have product := mul_le_mul reference rounded (abs_nonneg _) (by norm_num)
  linarith

theorem countM_pos (lower : 600000000 ≤ v) (upper : v ≤ 1300000000) : 1 ≤ countM inputFreq v := by
  have near := deviation_small fast (by omega) upper
  have bound : (600000000 : ℚ) ≤ v := by exact_mod_cast lower
  rw [deviation, abs_le] at near
  by_contra none
  have zero : countM inputFreq v = 0 := by omega
  rw [nearest, zero] at near
  norm_num at near
  linarith

end

theorem countN_upper (some : 0 < v) :
    countN inputFreq v ≤ 510 ↔ inputFreq ≤ 2550000000 ∨ inputFreq ≤ 2 * v := by
  rw [countN_le_iff some (by norm_num)]
  norm_num
  apply or_congr_right
  constructor
  · intro bound
    linarith
  · intro bound
    linarith

end Counts

section Choices

variable {inputFreq : ℚ} {clocks : List Clock} {v : Nat} {keys : List Nat}

def choiceOf (inputFreq : ℚ) (v : Nat) : Choice :=
  ⟨deviation inputFreq v, countM inputFreq v, countN inputFreq v⟩

theorem consider_ok (fast : 5000000 ≤ inputFreq) (some : 0 < v) (upper : v ≤ 1300000000)
    (countable : Countable inputFreq v) (best : Choice) (s : Nat) :
    consider inputFreq s best (v, s) =
      .ok (if deviation inputFreq v ≤ best.bestDeviation then choiceOf inputFreq v else best) := by
  have positive : inputFreq ≠ 0 := by linarith
  have bound : (v : ℚ) ≤ 1300000000 := by exact_mod_cast upper
  have ratio : v / inputFreq ≤ 260 := by
    rw [div_le_iff₀ (by linarith)]
    linarith
  have one : (countN inputFreq v : ℚ) ≠ 0 := by
    exact_mod_cast Nat.one_le_iff_ne_zero.mp (countN_pos inputFreq v)
  have search := countSearch_ok fast some countable (rfl : 1 + (INT_MAX - 1) = INT_MAX) (le_refl 1)
    (by rwa [Nat.cast_one, mul_one]) (countN_pos inputFreq v)
  rw [Nat.cast_one, mul_one] at search
  rw [consider, if_pos rfl]
  simp only [divide_ok positive, ok_bind, toInt_ok (by linarith : v / inputFreq + 1 / 2 <
    2147483648), search, divide_ok one]
  rfl

theorem consider_undefined (fast : 5000000 ≤ inputFreq) (upper : v ≤ 1300000000)
    (endless : ¬ Countable inputFreq v) (best : Choice) (s : Nat) :
    consider inputFreq s best (v, s) = .error .undefined := by
  have positive : inputFreq ≠ 0 := by linarith
  have bound : (v : ℚ) ≤ 1300000000 := by exact_mod_cast upper
  have ratio : v / inputFreq ≤ 260 := by
    rw [div_le_iff₀ (by linarith)]
    linarith
  have search := countSearch_undefined fast endless (rfl : 1 + (INT_MAX - 1) = INT_MAX) (le_refl 1)
    (by rwa [Nat.cast_one, mul_one])
  rw [Nat.cast_one, mul_one] at search
  rw [consider, if_pos rfl]
  simp only [divide_ok positive, ok_bind, toInt_ok (by linarith : v / inputFreq + 1 / 2 <
    2147483648), search]
  rfl

theorem foldl_choices (inputFreq : ℚ) (v : Nat) (keys : List Nat) :
    keys.foldl (fun best w =>
      if deviation inputFreq w ≤ best.bestDeviation then choiceOf inputFreq w else best)
      (choiceOf inputFreq v) = choiceOf inputFreq (lastLeast (deviation inputFreq) v keys) := by
  unfold lastLeast
  induction keys generalizing v with
  | nil => rfl
  | cons w rest ih =>
    rw [List.foldl_cons, List.foldl_cons, ← ih]
    congr 1
    by_cases better : deviation inputFreq w ≤ deviation inputFreq v
    · rw [if_pos better]
      exact if_pos better
    · rw [if_neg better]
      exact if_neg better

theorem Keys.best (set : Keys clocks keys) (v : Nat) :
    v ∈ keys ∧ integerDividers clocks v = bestScore (scoredKeys clocks keys) ↔ Best clocks v := by
  obtain ⟨most, reached⟩ := bestScore_spec (scoredKeys clocks keys)
  have above (w : Nat) (member : w ∈ keys) :
      integerDividers clocks w ≤ bestScore (scoredKeys clocks keys) :=
    most (w, integerDividers clocks w) (List.mem_map_of_mem member)
  rw [Best, ← set.candidates]
  apply and_congr_right
  intro member
  constructor
  · intro score w candidate
    rw [score]
    exact above w ((set.candidates w).mpr candidate)
  · intro best
    obtain ⟨vco, scored, score⟩ := reached (List.ne_nil_of_mem (List.mem_map_of_mem member))
    obtain ⟨w, other, rfl⟩ := List.mem_map.mp scored
    apply le_antisymm (above v member)
    rw [← score]
    exact best w ((set.candidates w).mp other)

theorem choose_ok (fast : 5000000 ≤ inputFreq)
    (fastClocks : ∀ clock ∈ clocks, 5000000 ≤ clock.outFrequency) (set : Keys clocks keys)
    (some : keys ≠ []) (countable : ∀ v, Best clocks v → Countable inputFreq v) :
    ∃ v, Chosen inputFreq clocks v ∧
      choose inputFreq (scoredKeys clocks keys) = .ok (choiceOf inputFreq v) := by
  let best := bestScore (scoredKeys clocks keys)
  let take (choice : Choice) (v : Nat) : Choice :=
    if deviation inputFreq v ≤ choice.bestDeviation then choiceOf inputFreq v else choice
  let bests := keys.filter fun v => integerDividers clocks v = best
  have member (v : Nat) : v ∈ bests ↔ Best clocks v := by
    rw [List.mem_filter, decide_eq_true_eq]
    exact set.best v
  have range {v : Nat} (best : Best clocks v) : 600000000 ≤ v ∧ v ≤ 1300000000 := by
    obtain ⟨clock, _, upper, _⟩ := best.1
    exact ⟨best.1.lower fastClocks, upper⟩
  have run : choose inputFreq (scoredKeys clocks keys) =
      .ok (bests.foldl take ⟨1000000000, 0, 0⟩) := by
    rw [List.foldl_filter, ← List.foldl_map (g := fun choice (vco : Nat × Nat) =>
      if decide (vco.2 = best) = true then take choice vco.1 else choice)
      (f := fun v => (v, integerDividers clocks v))]
    apply foldlM_done
    intro choice vco listed
    obtain ⟨v, key, rfl⟩ := List.mem_map.mp listed
    by_cases scored : integerDividers clocks v = best
    · have isBest : Best clocks v := (set.best v).mp ⟨key, scored⟩
      obtain ⟨lower, upper⟩ := range isBest
      have score : integerDividers clocks v = bestScore (scoredKeys clocks keys) := scored
      rw [if_pos (decide_eq_true scored), ← score]
      exact consider_ok fast (by omega) upper (countable v isBest) choice _
    · rw [if_neg fun here => scored (of_decide_eq_true here)]
      exact if_neg scored
  have sorted : bests.Pairwise (· < ·) := set.sorted.filter _
  obtain ⟨u, rest, split⟩ : ∃ u rest, bests = u :: rest := by
    apply List.exists_cons_of_ne_nil
    obtain ⟨vco, listed, score⟩ := (bestScore_spec (scoredKeys clocks keys)).2
      (by simpa [scoredKeys] using some)
    obtain ⟨w, key, rfl⟩ := List.mem_map.mp listed
    exact List.ne_nil_of_mem ((member w).mpr ((set.best w).mp ⟨key, score⟩))
  have first : take ⟨1000000000, 0, 0⟩ u = choiceOf inputFreq u := by
    obtain ⟨lower, upper⟩ := range ((member u).mp (split ▸ List.mem_cons_self))
    exact if_pos ((deviation_small fast (by omega) upper).trans (by norm_num))
  refine ⟨lastLeast (deviation inputFreq) u rest, ?_, ?_⟩
  · rw [split] at sorted
    apply (lastLeast_spec (deviation inputFreq) u sorted).congr
    intro v
    rw [← split]
    exact member v
  · rw [run, split, List.foldl_cons, first]
    exact congrArg Except.ok (foldl_choices inputFreq u rest)

theorem choose_undefined (fast : 5000000 ≤ inputFreq)
    (fastClocks : ∀ clock ∈ clocks, 5000000 ≤ clock.outFrequency) (set : Keys clocks keys)
    (endless : ∃ v, Best clocks v ∧ ¬ Countable inputFreq v) :
    choose inputFreq (scoredKeys clocks keys) = .error .undefined := by
  have range {v : Nat} (key : v ∈ keys) : 600000000 ≤ v ∧ v ≤ 1300000000 := by
    have candidate := (set.candidates v).mp key
    obtain ⟨clock, _, upper, _⟩ := id candidate
    exact ⟨candidate.lower fastClocks, upper⟩
  apply foldlM_stops (p := fun vco => vco.2 = bestScore (scoredKeys clocks keys) →
    Countable inputFreq vco.1)
  · intro choice vco listed counted
    obtain ⟨v, key, rfl⟩ := List.mem_map.mp listed
    obtain ⟨lower, upper⟩ := range key
    by_cases scored : integerDividers clocks v = bestScore (scoredKeys clocks keys)
    · rw [← scored]
      exact ⟨_, consider_ok fast (by omega) upper (counted scored) choice _⟩
    · exact ⟨choice, if_neg scored⟩
  · intro choice vco listed other
    obtain ⟨v, key, rfl⟩ := List.mem_map.mp listed
    obtain ⟨scored, endless⟩ := Classical.not_imp.mp other
    change integerDividers clocks v = _ at scored
    rw [← scored]
    exact consider_undefined fast (range key).2 endless choice _
  · obtain ⟨v, best, endless⟩ := endless
    obtain ⟨key, scored⟩ := (set.best v).mpr best
    refine ⟨(v, integerDividers clocks v), List.mem_map_of_mem key, ?_⟩
    intro counted
    exact endless (counted scored)

end Choices

end Soapy.Lime.Pll
