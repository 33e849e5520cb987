import Soapy.Lime.PllSearch

/-! # The words for an FPGA PLL

What the words of `SetPllFrequency` say about its dividers, and for which inputs they say what was
planned.
-/

namespace Soapy.Lime.Pll

open Lib

def countIn (word : Nat) : Nat := word / 256 % 256 + word % 256

/-- A register is written, and with one value only, of which `p` holds. -/
def Written (words : List (Nat × Nat)) (address : Nat) (p : Nat → Prop) : Prop :=
  ∃ word, p word ∧ ∀ w, (address, w) ∈ words ↔ w = word

def outputCount (Fvco : ℚ) (clock : Clock) : Nat := ⌊Fvco / clock.outFrequency + 1 / 2⌋₊

/-- The words for output `i` have this count, and the clock has the frequency that comes of it. -/
structure OutputDecodes (Fvco : ℚ) (plan : Plan) (i : Nat) (clock : Clock) : Prop where
  count : Written plan.words (0x002E + i) fun word => countIn word = outputCount Fvco clock
  oddByp : Written plan.words (if i < 8 then 0x0027 else 0x0028) fun word =>
    (word.testBit (i % 8 * 2) = true ↔ clock.bypass = true ∨ outputCount Fvco clock = 1) ∧
      (word.testBit (i % 8 * 2 + 1) = true ↔ outputCount Fvco clock % 2 = 1)
  actual : plan.rd_actualFrequency[i]? = some (Fvco / outputCount Fvco clock)

structure Decodes (inputFreq : ℚ) (clocks : List Clock) (plan : Plan) : Prop where
  positive : 1 ≤ plan.M ∧ 1 ≤ plan.N
  lower : 600000000 ≤ inputFreq * plan.M / plan.N
  upper : inputFreq * plan.M / plan.N ≤ 1300000000
  countM : Written plan.words 0x002B fun word => countIn word = plan.M
  countN : Written plan.words 0x002A fun word => countIn word = plan.N
  oddByp : Written plan.words 0x0026 fun word =>
    (word.testBit 3 = true ↔ plan.M % 2 = 1) ∧ (word.testBit 2 = true ↔ plan.M = 1) ∧
      (word.testBit 1 = true ↔ plan.N % 2 = 1) ∧ (word.testBit 0 = true ↔ plan.N = 1)
  outputs : ∀ i clock, clocks[i]? = some clock →
    OutputDecodes (inputFreq * plan.M / plan.N) plan i clock

def Meets (inputFreq : ℚ) (clocks : List Clock) : Except Stop Plan → Prop
  | .ok plan => Decodes inputFreq clocks plan
  | .error .inputFrequency | .error (.clock _) | .error (.vco _) => True
  | .error .undefined | .error .zeroDivide | .error .endless => False

/-- No clock is above the range of the VCO, the frequencies are in the range of their types, and for
    the nearest VCO frequency, when it is not refused, the count of the input has two bytes and no
    clock is above twice that frequency. -/
structure Plannable (inputFreq : ℚ) (clocks : List Clock) : Prop where
  reached : ∃ clock ∈ clocks, clock.outFrequency < 1300000001
  converts : ∀ clock ∈ clocks, clock.outFrequency < 18446744073709551616
  scored : ∀ clock ∈ clocks, clock.Scored
  countable : ∀ v, Best clocks v → Countable inputFreq v
  chosen : ∀ v, Chosen inputFreq clocks v →
    nearest inputFreq v < 600000000 ∨ nearest inputFreq v > 1300000000 ∨
      (inputFreq ≤ 2550000000 ∨ inputFreq ≤ 2 * v) ∧
        ∀ clock ∈ clocks, clock.outFrequency ≤ 2 * nearest inputFreq v

theorem countIn_countWord {count : Nat} : countIn (countWord count) = count ↔ count ≤ 510 := by
  unfold countIn
  constructor
  · intro same
    omega
  · intro small
    have word : countWord count = (count / 2 + count % 2) * 256 + count / 2 := by
      rw [countWord, ← Nat.shiftLeft_add_eq_or_of_lt (by omega : count / 2 < 2 ^ 8),
        Nat.shiftLeft_eq]
    have bytes : ∀ h l, h ≤ 255 → l ≤ 255 →
        (h * 256 + l) / 256 % 256 + (h * 256 + l) % 256 = h + l := by
      omega
    rw [word, bytes _ _ (by omega) (by omega)]
    omega

theorem testBit_mod_two (x i : Nat) :
    (x % 2).testBit i = (decide (i = 0) && decide (x % 2 = 1)) := by
  have bit := Nat.testBit_mod_two_pow x 1 i
  rw [pow_one] at bit
  rw [bit]
  cases i with
  | zero => simp [Nat.testBit_zero]
  | succ i => simp

theorem M_N_odd_byp_bits (M N : Nat) :
    ((M_N_odd_byp M N).testBit 3 = true ↔ M % 2 = 1) ∧
      ((M_N_odd_byp M N).testBit 2 = true ↔ M = 1) ∧
      ((M_N_odd_byp M N).testBit 1 = true ↔ N % 2 = 1) ∧
      ((M_N_odd_byp M N).testBit 0 = true ↔ N = 1) := by
  have bypass (p : Prop) [Decidable p] (word i : Nat) :
      (if p then word else 0).testBit i = (decide p && word.testBit i) := by
    by_cases holds : p
    · simp [holds]
    · simp [holds]
  have bits (i : Nat) : (M_N_odd_byp M N).testBit i =
      (((decide (i ≥ 3) && (decide (i - 3 = 0) && decide (M % 2 = 1)) ||
        decide (i ≥ 1) && (decide (i - 1 = 0) && decide (N % 2 = 1))) ||
        decide (M = 1) && Nat.testBit (1 <<< 2) i) || decide (N = 1) && Nat.testBit 1 i) := by
    rw [M_N_odd_byp, Nat.testBit_or, Nat.testBit_or, Nat.testBit_or, Nat.testBit_shiftLeft,
      Nat.testBit_shiftLeft, testBit_mod_two, testBit_mod_two, bypass, bypass]
  simp only [bits]
  simp [Nat.testBit]

theorem oddByp_bit (byps : BitVec 16) (bypass : Bool) (i C : Nat) {k : Nat} (inside : k < 16) :
    (oddByp byps bypass i C).getLsbD k =
        (byps.getLsbD k && (decide (k ≠ i * 2) || bypass || decide (C = 1)) ||
          decide (k = i * 2 + 1) && decide (C % 2 = 1)) := by
  have mask : (1#16 <<< (i * 2)).getLsbD k = decide (k = i * 2) := by
    rw [BitVec.getLsbD_shiftLeft, BitVec.getLsbD_one]
    by_cases here : k = i * 2
    · subst here
      simp [inside]
    · simp [here, inside]
      omega
  have odd : (BitVec.ofNat 16 (C % 2) <<< (i * 2 + 1)).getLsbD k =
      (decide (k = i * 2 + 1) && decide (C % 2 = 1)) := by
    rw [BitVec.getLsbD_shiftLeft, BitVec.getLsbD_ofNat, testBit_mod_two]
    by_cases here : k = i * 2 + 1
    · subst here
      simp [inside]
    · simp [here, inside]
      omega
  rw [oddByp, BitVec.getLsbD_or, odd]
  by_cases kept : ¬ bypass ∧ C ≠ 1
  · rw [if_pos kept, BitVec.getLsbD_and, BitVec.getLsbD_not, mask]
    simp [kept, inside]
  · rw [if_neg kept]
    have stays : (bypass || decide (C = 1)) = true := by
      cases bypass <;> simp_all
    rw [Bool.or_assoc, stays, Bool.or_true, Bool.and_true]

section Outputs

variable {Fvco : ℚ} {clocks : List Clock} {clock : Clock} {o : Outputs} {i j : Nat}

/-- The register for output `i`. -/
def Outputs.flags (o : Outputs) (i : Nat) : BitVec 16 :=
  if i < 8 then o.c7_c0_odds_byps else o.c15_c8_odds_byps

def giveOutput (Fvco : ℚ) (o : Outputs) (output : Clock × Nat) : Outputs :=
  let C := outputCount Fvco output.1
  { c7_c0_odds_byps :=
      if output.2 < 8 then oddByp o.c7_c0_odds_byps output.1.bypass output.2 C
      else o.c7_c0_odds_byps
    c15_c8_odds_byps :=
      if output.2 < 8 then o.c15_c8_odds_byps
      else oddByp o.c15_c8_odds_byps output.1.bypass (output.2 - 8) C
    words := o.words ++ [(0x002E + output.2, countWord C)]
    rd_actualFrequency := o.rd_actualFrequency ++ [Fvco / C] }

theorem outputCount_pos (fast : 5000000 ≤ clock.outFrequency) :
    1 ≤ outputCount Fvco clock ↔ clock.outFrequency ≤ 2 * Fvco := by
  have positive : 0 < clock.outFrequency := by linarith
  rw [outputCount, Nat.one_le_floor_iff, ← sub_le_iff_le_add, le_div_iff₀ positive]
  constructor
  · intro bound
    linarith
  · intro bound
    linarith

theorem outputCount_upper (fast : 5000000 ≤ clock.outFrequency) (lower : 0 ≤ Fvco)
    (upper : Fvco ≤ 1300000000) :
    Fvco / clock.outFrequency + 1 / 2 < 261 ∧ outputCount Fvco clock ≤ 260 := by
  have positive : 0 < clock.outFrequency := by linarith
  have ratio : Fvco / clock.outFrequency ≤ 260 := by
    rw [div_le_iff₀ positive]
    linarith
  have below : Fvco / clock.outFrequency + 1 / 2 < 261 := by linarith
  refine ⟨below, ?_⟩
  rw [outputCount, ← Nat.lt_succ_iff, Nat.floor_lt (by positivity)]
  exact_mod_cast below

theorem setOutput_eq (fast : 5000000 ≤ clock.outFrequency) (lower : 0 ≤ Fvco)
    (upper : Fvco ≤ 1300000000) (o : Outputs) (i : Nat) :
    setOutput Fvco o (clock, i) =
      if clock.outFrequency ≤ 2 * Fvco then .ok (giveOutput Fvco o (clock, i))
      else .error .zeroDivide := by
  have some : clock.outFrequency ≠ 0 := by linarith
  have converts := (outputCount_upper fast lower upper).1
  have halves (C : Nat) : C / 2 + C % 2 + C / 2 = C := by omega
  have count : ⌊Fvco / clock.outFrequency + 1 / 2⌋₊ = outputCount Fvco clock := rfl
  simp only [setOutput, divide_ok some, ok_bind, toInt_ok (by linarith : Fvco / clock.outFrequency +
    1 / 2 < 2147483648), halves, count]
  by_cases slow : clock.outFrequency ≤ 2 * Fvco
  · have one := (outputCount_pos fast).mpr slow
    have divisor : (outputCount Fvco clock : ℚ) ≠ 0 := by
      exact_mod_cast Nat.one_le_iff_ne_zero.mp one
    rw [if_pos slow, divide_ok divisor]
    rfl
  · have zero : outputCount Fvco clock = 0 := by
      by_contra some
      exact slow ((outputCount_pos fast).mp (Nat.one_le_iff_ne_zero.mpr some))
    rw [if_neg slow, zero, Nat.cast_zero]
    rfl

theorem flags_give (inside : i < 16) (o : Outputs) (clock : Clock) (j : Nat) :
    (giveOutput Fvco o (clock, i)).flags j =
      if j < 8 ↔ i < 8 then oddByp (o.flags j) clock.bypass (i % 8) (outputCount Fvco clock)
      else o.flags j := by
  unfold Outputs.flags giveOutput
  by_cases low : i < 8
  · have same : i % 8 = i := Nat.mod_eq_of_lt low
    by_cases left : j < 8
    · simp [low, left, same]
    · simp [low, left]
  · have same : i % 8 = i - 8 := by omega
    by_cases left : j < 8
    · simp [low, left]
    · simp [low, left, same]

def Outputs.bits (o : Outputs) (j : Nat) : Bool × Bool :=
  ((o.flags j).getLsbD (j % 8 * 2), (o.flags j).getLsbD (j % 8 * 2 + 1))

theorem bits_give (inside : i < 16) (other : j < 16) (o : Outputs) (clock : Clock) :
    (giveOutput Fvco o (clock, i)).bits j =
      if j = i then ((o.bits j).1 && (clock.bypass || decide (outputCount Fvco clock = 1)),
        (o.bits j).2 || decide (outputCount Fvco clock % 2 = 1))
      else o.bits j := by
  unfold Outputs.bits
  rw [flags_give inside]
  by_cases same : j < 8 ↔ i < 8
  · rw [if_pos same, oddByp_bit _ _ _ _ (by omega), oddByp_bit _ _ _ _ (by omega)]
    by_cases here : j = i
    · subst here
      simp
    · have apart : j % 8 * 2 ≠ i % 8 * 2 := by omega
      have odd : j % 8 * 2 ≠ i % 8 * 2 + 1 := by omega
      have even : j % 8 * 2 + 1 ≠ i % 8 * 2 := by omega
      simp [here, apart, odd, even]
  · have apart : j ≠ i := fun here => same (here ▸ Iff.rfl)
    rw [if_neg same, if_neg apart]

theorem foldl_give_bits {outputs : List (Clock × Nat)}
    (others : ∀ output ∈ outputs, output.2 < 16 ∧ output.2 ≠ j) (inside : j < 16) (o : Outputs) :
    (outputs.foldl (giveOutput Fvco) o).bits j = o.bits j := by
  induction outputs generalizing o with
  | nil => rfl
  | cons output rest ih =>
    rw [List.forall_mem_cons] at others
    rw [List.foldl_cons, ih others.2, bits_give others.1.1 inside, if_neg others.1.2.symm]

theorem foldl_give_words (outputs : List (Clock × Nat)) (o : Outputs) :
    (outputs.foldl (giveOutput Fvco) o).words = o.words ++ outputs.map fun output =>
        (0x002E + output.2, countWord (outputCount Fvco output.1)) := by
  induction outputs generalizing o with
  | nil => simp
  | cons output rest ih =>
    rw [List.foldl_cons, ih, List.map_cons]
    simp [giveOutput]

theorem foldl_give_actual (outputs : List (Clock × Nat)) (o : Outputs) :
    (outputs.foldl (giveOutput Fvco) o).rd_actualFrequency =
      o.rd_actualFrequency ++ outputs.map fun output => Fvco / outputCount Fvco output.1 := by
  induction outputs generalizing o with
  | nil => simp
  | cons output rest ih =>
    rw [List.foldl_cons, ih, List.map_cons]
    simp [giveOutput]

theorem setOutputs_ok (fast : ∀ clock ∈ clocks, 5000000 ≤ clock.outFrequency) (lower : 0 ≤ Fvco)
    (upper : Fvco ≤ 1300000000) (slow : ∀ clock ∈ clocks, clock.outFrequency ≤ 2 * Fvco) :
    setOutputs Fvco clocks =
      .ok (clocks.zipIdx.foldl (giveOutput Fvco) ⟨0x5555#16, 0x5555#16, [], []⟩) := by
  apply foldlM_done
  intro o output member
  obtain ⟨clock, i⟩ := output
  have listed : clock ∈ clocks := List.fst_mem_of_mem_zipIdx member
  rw [setOutput_eq (fast clock listed) lower upper, if_pos (slow clock listed)]

theorem setOutputs_zeroDivide (fast : ∀ clock ∈ clocks, 5000000 ≤ clock.outFrequency)
    (lower : 0 ≤ Fvco) (upper : Fvco ≤ 1300000000)
    (quick : ∃ clock ∈ clocks, ¬ clock.outFrequency ≤ 2 * Fvco) :
    setOutputs Fvco clocks = .error .zeroDivide := by
  apply foldlM_stops (p := fun output => output.1.outFrequency ≤ 2 * Fvco)
  · intro o output member slow
    rw [setOutput_eq (fast _ (List.fst_mem_of_mem_zipIdx member)) lower upper, if_pos slow]
    exact ⟨_, rfl⟩
  · intro o output member quick
    rw [setOutput_eq (fast _ (List.fst_mem_of_mem_zipIdx member)) lower upper, if_neg quick]
  · obtain ⟨clock, member, quick⟩ := quick
    obtain ⟨i, here⟩ := List.mem_iff_getElem?.mp member
    exact ⟨(clock, i), List.mk_mem_zipIdx_iff_getElem?.mpr here, quick⟩

theorem outputs_bits (few : clocks.length ≤ 16) (here : clocks[i]? = some clock) :
    (clocks.zipIdx.foldl (giveOutput Fvco) ⟨0x5555#16, 0x5555#16, [], []⟩).bits i =
      (clock.bypass || decide (outputCount Fvco clock = 1),
        decide (outputCount Fvco clock % 2 = 1)) := by
  obtain ⟨inside, value⟩ := List.getElem?_eq_some_iff.mp here
  have split : clocks = clocks.take i ++ clock :: clocks.drop (i + 1) := by
    rw [← value, List.cons_getElem_drop_succ, List.take_append_drop]
  have whole : clocks.zipIdx = (clocks.take i).zipIdx ++
      (clock, i) :: (clocks.drop (i + 1)).zipIdx (i + 1) := by
    have parts := congrArg List.zipIdx split
    rwa [List.zipIdx_append, List.length_take, Nat.min_eq_left inside.le, Nat.zero_add,
      List.zipIdx_cons] at parts
  rw [whole, List.foldl_append, List.foldl_cons, foldl_give_bits _ (by omega),
    bits_give (by omega) (by omega), if_pos rfl, foldl_give_bits _ (by omega)]
  · have start : Outputs.bits ⟨0x5555#16, 0x5555#16, [], []⟩ i = (true, false) := by
      unfold Outputs.bits Outputs.flags
      have eight : i % 8 < 8 := Nat.mod_lt _ (by decide)
      rw [ite_self]
      exact (by decide : ∀ k < 8, ((0x5555#16).getLsbD (k * 2), (0x5555#16).getLsbD (k * 2 + 1)) =
        (true, false)) _ eight
    rw [start]
    simp
  · intro output member
    have bound := List.snd_lt_of_mem_zipIdx member
    rw [List.length_take] at bound
    omega
  · intro output member
    have above := List.le_snd_of_mem_zipIdx member
    have bound := List.snd_lt_of_mem_zipIdx member
    rw [List.length_drop] at bound
    omega

end Outputs

section Plan

variable {reg23val : UInt16} {inputFreq : ℚ} {clocks : List Clock} {M N v : Nat}

def givenOutputs (Fvco : ℚ) (clocks : List Clock) : Outputs :=
  clocks.zipIdx.foldl (giveOutput Fvco) ⟨0x5555#16, 0x5555#16, [], []⟩

theorem mem_planWords (Fvco : ℚ) {address : Nat} (other : address ≠ 0x0023) (w : Nat) :
    (address, w) ∈ planWords reg23val clocks M N (givenOutputs Fvco clocks) ↔
      address = 0x0026 ∧ w = M_N_odd_byp M N ∨ address = 0x002A ∧ w = countWord N ∨
        address = 0x002B ∧ w = countWord M ∨
        (∃ i clock, clocks[i]? = some clock ∧ address = 0x002E + i ∧
          w = countWord (outputCount Fvco clock)) ∨
        address = 0x0027 ∧ w = ((givenOutputs Fvco clocks).flags 0).toNat ∨
        address = 0x0028 ∧ w = ((givenOutputs Fvco clocks).flags 8).toNat := by
  have outputs : (address, w) ∈ (givenOutputs Fvco clocks).words ↔
      ∃ i clock, clocks[i]? = some clock ∧ address = 0x002E + i ∧
        w = countWord (outputCount Fvco clock) := by
    rw [givenOutputs, foldl_give_words, List.nil_append, List.mem_map]
    constructor
    · rintro ⟨⟨clock, i⟩, member, same⟩
      rw [Prod.mk.injEq] at same
      exact ⟨i, clock, List.mk_mem_zipIdx_iff_getElem?.mp member, same.1.symm, same.2.symm⟩
    · rintro ⟨i, clock, here, rfl, rfl⟩
      exact ⟨(clock, i), List.mk_mem_zipIdx_iff_getElem?.mpr here, rfl⟩
  have start : (address, w) ∉ (if clocks.length ≠ 4 ∨ clocks.head?.map Clock.index = some 3 then
      [(0x0023, (reg23val ||| PLLCFG_START).toNat)] else []) := by
    intro member
    split at member
    · exact other (congrArg Prod.fst (List.mem_singleton.mp member))
    · cases member
  simp only [planWords, List.mem_append, start, or_false, outputs, List.mem_cons, Prod.mk.injEq,
    List.not_mem_nil, other, false_and, false_or, or_assoc]
  rfl

theorem written_of {words : List (Nat × Nat)} {address word : Nat} {p : Nat → Prop}
    (only : ∀ w, (address, w) ∈ words ↔ w = word) : Written words address p ↔ p word := by
  constructor
  · rintro ⟨word', holds, only'⟩
    have same : word = word' := (only' word).mp ((only word).mpr rfl)
    exact same ▸ holds
  · intro holds
    exact ⟨word, holds, only⟩

theorem outputDecodes {plan : Plan} {Fvco : ℚ} {i : Nat} {clock : Clock}
    (few : clocks.length ≤ 16) (fast : ∀ clock ∈ clocks, 5000000 ≤ clock.outFrequency)
    (lower : 0 ≤ Fvco) (upper : Fvco ≤ 1300000000)
    (words : plan.words = planWords reg23val clocks M N (givenOutputs Fvco clocks))
    (actual : plan.rd_actualFrequency = (givenOutputs Fvco clocks).rd_actualFrequency)
    (here : clocks[i]? = some clock) : OutputDecodes Fvco plan i clock := by
  obtain ⟨length, _⟩ := List.getElem?_eq_some_iff.mp here
  have inside : i < 16 := by omega
  have count : outputCount Fvco clock ≤ 260 :=
    (outputCount_upper (fast clock (List.mem_of_getElem? here)) lower upper).2
  have member {address : Nat} (other : address ≠ 0x0023) (w : Nat) :=
    words ▸ @mem_planWords reg23val clocks M N Fvco address other w
  constructor
  · have word : ∀ w, (0x002E + i, w) ∈ plan.words ↔ w = countWord (outputCount Fvco clock) := by
      intro w
      rw [member (by omega)]
      constructor
      · rintro (⟨same, _⟩ | ⟨same, _⟩ | ⟨same, _⟩ | ⟨k, other, there, same, value⟩ | ⟨same, _⟩ |
          ⟨same, _⟩)
        · omega
        · omega
        · omega
        · have index : k = i := by omega
          rw [index, here, Option.some.injEq] at there
          rw [value, there]
        · omega
        · omega
      · intro value
        exact .inr (.inr (.inr (.inl ⟨i, clock, here, rfl, value⟩)))
    exact (written_of word).mpr (countIn_countWord.mpr (by omega))
  · have flags : ∀ w, ((if i < 8 then 0x0027 else 0x0028 : Nat), w) ∈ plan.words ↔
        w = ((givenOutputs Fvco clocks).flags i).toNat := by
      intro w
      by_cases low : i < 8
      · rw [if_pos low, member (by decide)]
        simp [Outputs.flags, low]
        omega
      · rw [if_neg low, member (by decide)]
        simp [Outputs.flags, low]
        omega
    have bits := @outputs_bits Fvco clocks clock i few here
    have bypassed := congrArg Prod.fst bits
    have odd := congrArg Prod.snd bits
    apply (written_of flags).mpr
    rw [BitVec.testBit_toNat, BitVec.testBit_toNat]
    constructor
    · exact (Bool.eq_iff_iff.mp bypassed).trans (by simp)
    · exact (Bool.eq_iff_iff.mp odd).trans (by simp)
  · rw [actual, givenOutputs, foldl_give_actual, List.nil_append, List.getElem?_map,
      List.getElem?_zipIdx, here]
    rfl

theorem decodes_iff {plan : Plan} (few : clocks.length ≤ 16)
    (fast : ∀ clock ∈ clocks, 5000000 ≤ clock.outFrequency) (oneM : 1 ≤ plan.M) (oneN : 1 ≤ plan.N)
    (smallM : plan.M ≤ 510) (lower : 600000000 ≤ inputFreq * plan.M / plan.N)
    (upper : inputFreq * plan.M / plan.N ≤ 1300000000)
    (words : plan.words = planWords reg23val clocks plan.M plan.N
      (givenOutputs (inputFreq * plan.M / plan.N) clocks))
    (actual : plan.rd_actualFrequency =
      (givenOutputs (inputFreq * plan.M / plan.N) clocks).rd_actualFrequency) :
    Decodes inputFreq clocks plan ↔ plan.N ≤ 510 := by
  have member {address : Nat} (other : address ≠ 0x0023) (w : Nat) :=
    words ▸ @mem_planWords reg23val clocks plan.M plan.N _ address other w
  have wordN : ∀ w, (0x002A, w) ∈ plan.words ↔ w = countWord plan.N := by
    intro w
    rw [member (by decide)]
    simp
    omega
  constructor
  · intro decodes
    exact countIn_countWord.mp ((written_of wordN).mp decodes.countN)
  · intro small
    have wordM : ∀ w, (0x002B, w) ∈ plan.words ↔ w = countWord plan.M := by
      intro w
      rw [member (by decide)]
      simp
      omega
    have wordOdd : ∀ w, (0x0026, w) ∈ plan.words ↔ w = M_N_odd_byp plan.M plan.N := by
      intro w
      rw [member (by decide)]
      simp
      omega
    constructor
    · exact ⟨oneM, oneN⟩
    · exact lower
    · exact upper
    · exact (written_of wordM).mpr (countIn_countWord.mpr smallM)
    · exact (written_of wordN).mpr (countIn_countWord.mpr small)
    · exact (written_of wordOdd).mpr (M_N_odd_byp_bits _ _)
    · intro i clock here
      exact outputDecodes few fast (by linarith) upper words actual here

theorem program_meets (few : clocks.length ≤ 16) (fast : 5000000 ≤ inputFreq)
    (fastClocks : ∀ clock ∈ clocks, 5000000 ≤ clock.outFrequency) (lower : 600000000 ≤ v)
    (upper : v ≤ 1300000000) :
    program reg23val inputFreq clocks (choiceOf inputFreq v) ≠ .error .endless ∧
      (Meets inputFreq clocks (program reg23val inputFreq clocks (choiceOf inputFreq v)) ↔
        nearest inputFreq v < 600000000 ∨ nearest inputFreq v > 1300000000 ∨
          (inputFreq ≤ 2550000000 ∨ inputFreq ≤ 2 * v) ∧
            ∀ clock ∈ clocks, clock.outFrequency ≤ 2 * nearest inputFreq v) := by
  have oneN := countN_pos inputFreq v
  have divisor : (countN inputFreq v : ℚ) ≠ 0 := by
    exact_mod_cast Nat.one_le_iff_ne_zero.mp oneN
  have Fvco : divide (inputFreq * (choiceOf inputFreq v).M) (choiceOf inputFreq v).N =
      .ok (nearest inputFreq v) := divide_ok divisor
  rw [program]
  simp only [Fvco, ok_bind]
  by_cases refused : nearest inputFreq v < vcoLower ∨ nearest inputFreq v > vcoUpper
  · rw [if_pos refused]
    exact ⟨nofun, iff_of_true trivial (refused.imp_right .inl)⟩
  · rw [if_neg refused]
    obtain ⟨low, high⟩ := not_or.mp refused
    have low' : 600000000 ≤ nearest inputFreq v := not_lt.mp low
    have high' : nearest inputFreq v ≤ 1300000000 := not_lt.mp high
    have inside (p : Prop) : (nearest inputFreq v < 600000000 ∨ nearest inputFreq v > 1300000000 ∨
        p) ↔ p := by
      rw [or_iff_right (not_lt.mpr low'), or_iff_right (not_lt.mpr high')]
    rw [inside]
    by_cases slow : ∀ clock ∈ clocks, clock.outFrequency ≤ 2 * nearest inputFreq v
    · rw [setOutputs_ok fastClocks (by linarith) high' slow]
      have smallM := countM_upper fast (by omega : 0 < v) upper
      let outputs := givenOutputs (nearest inputFreq v) clocks
      let plan : Plan := ⟨countM inputFreq v, countN inputFreq v,
        planWords reg23val clocks (countM inputFreq v) (countN inputFreq v) outputs,
        outputs.rd_actualFrequency⟩
      have decodes : Decodes inputFreq clocks plan ↔ countN inputFreq v ≤ 510 :=
        @decodes_iff reg23val inputFreq clocks plan few fastClocks (countM_pos fast lower upper)
          oneN (smallM.trans (by decide)) low' high' rfl rfl
      exact ⟨nofun, decodes.trans ((countN_upper (by omega)).trans (and_iff_left slow).symm)⟩
    · rw [setOutputs_zeroDivide fastClocks (by linarith) high' (by push Not at slow ⊢; exact slow)]
      exact ⟨nofun, iff_of_false id fun both => slow both.2⟩

theorem plannable_of_moderate (moderate : inputFreq ≤ 2550000000)
    (some : clocks ≠ []) (slow : ∀ clock ∈ clocks, clock.outFrequency ≤ 1200000000) :
    Plannable inputFreq clocks where
  reached := by
    obtain ⟨clock, member⟩ := List.exists_mem_of_ne_nil _ some
    exact ⟨clock, member, by linarith [slow clock member]⟩
  converts clock member := by linarith [slow clock member]
  scored clock member := .inr (by linarith [slow clock member])
  countable v _ := by
    left
    norm_num [INT_MAX]
    linarith
  chosen v _ := by
    by_cases low : nearest inputFreq v < 600000000
    · exact .inl low
    · refine .inr (.inr ⟨.inl moderate, ?_⟩)
      intro clock member
      linarith [slow clock member]

theorem checkClock_ok {outputs : List (Clock × Nat)}
    (fast : ∀ output ∈ outputs, 5000000 ≤ output.1.outFrequency) :
    outputs.forM checkClock = .ok () := by
  induction outputs with
  | nil => rfl
  | cons output rest ih =>
    rw [List.forall_mem_cons] at fast
    have passes : checkClock output = .ok () := if_neg fun slow => not_lt.mpr fast.1 slow.1
    change (checkClock output >>= fun _ => rest.forM checkClock) = .ok ()
    rw [passes, ok_bind]
    exact ih fast.2

/-- For frequencies that pass the checks the loops end. The function returns an error or writes what
    it has planned exactly when the input is plannable. -/
theorem setPllFrequency_meets (reg23val : UInt16) (fast : 5000000 ≤ inputFreq)
    (few : clocks.length ≤ 16) (fastClocks : ∀ clock ∈ clocks, 5000000 ≤ clock.outFrequency) :
    setPllFrequency reg23val inputFreq clocks ≠ .error .endless ∧
      (Meets inputFreq clocks (setPllFrequency reg23val inputFreq clocks) ↔
        Plannable inputFreq clocks) := by
  have start : setPllFrequency reg23val inputFreq clocks = (availableVCOs clocks >>= fun vcos =>
      scores clocks vcos >>= fun vcos => choose inputFreq vcos >>= fun best =>
        program reg23val inputFreq clocks best) := by
    have quick : ¬ inputFreq < PLLlowerLimit := not_lt.mpr fast
    have checks : clocks.zipIdx.forM checkClock = .ok () :=
      checkClock_ok fun output member => fastClocks _ (List.fst_mem_of_mem_zipIdx member)
    rw [setPllFrequency, if_neg quick, checks]
    rfl
  rw [start]
  by_cases converts : ∀ clock ∈ clocks, clock.outFrequency < 18446744073709551616
  · obtain ⟨vcos, keys, run, entries, set⟩ := exists_keys fastClocks converts
    rw [run, ok_bind]
    cases keys with
    | nil =>
      -- No candidate, so M and N are zero, and Fvco is 0 / 0.
      have unreached : ¬ ∃ clock ∈ clocks, clock.outFrequency < 1300000001 := by
        rw [← exists_candidate fastClocks]
        rintro ⟨v, candidate⟩
        cases (set.candidates v).mpr candidate
      have choice : scores clocks vcos = .ok [] := by
        rw [scores, entries]
        rfl
      rw [choice, ok_bind]
      exact ⟨nofun, iff_of_false id fun plannable => unreached plannable.reached⟩
    | cons first rest =>
      have reached : ∃ clock ∈ clocks, clock.outFrequency < 1300000001 :=
        (exists_candidate fastClocks).mp ⟨first, (set.candidates first).mp List.mem_cons_self⟩
      by_cases scored : ∀ clock ∈ clocks, clock.Scored
      · rw [scores_ok fastClocks scored entries, ok_bind]
        by_cases countable : ∀ v, Best clocks v → Countable inputFreq v
        · obtain ⟨v, chosen, choice⟩ :=
            choose_ok fast fastClocks set (List.cons_ne_nil _ _) countable
          obtain ⟨_, _, upper, _⟩ := id chosen.holds.1
          obtain ⟨ends, meets⟩ := @program_meets reg23val inputFreq clocks v few fast fastClocks
            (chosen.holds.1.lower fastClocks) upper
          rw [choice, ok_bind]
          refine ⟨ends, meets.trans ?_⟩
          constructor
          · intro planned
            exact ⟨reached, converts, scored, countable, fun u other =>
              other.unique chosen ▸ planned⟩
          · intro plannable
            exact plannable.chosen v chosen
        · rw [choose_undefined fast fastClocks set (by simpa using countable)]
          exact ⟨nofun, iff_of_false id fun plannable => countable plannable.countable⟩
      · rw [scores_undefined fastClocks (by simpa using scored) (by simp [entries])]
        exact ⟨nofun, iff_of_false id fun plannable => scored plannable.scored⟩
  · rw [availableVCOs_undefined fastClocks (by simpa using converts)]
    exact ⟨nofun, iff_of_false id fun plannable => converts plannable.converts⟩

end Plan

theorem setPllFrequency_meets_two :
    let clocks : List Clock := [⟨30720000, 0, false⟩, ⟨61440000, 1, false⟩]
    Meets 30720000 clocks (setPllFrequency 0 30720000 clocks) := by
  have fast : ∀ clock ∈ ([⟨30720000, 0, false⟩, ⟨61440000, 1, false⟩] : List Clock),
      5000000 ≤ clock.outFrequency := by
    simp
    norm_num
  refine (setPllFrequency_meets 0 (by norm_num) (by decide) fast).2.mpr ?_
  exact plannable_of_moderate (by norm_num) (by simp) (by simp; norm_num)

/-- A clock above the range of the VCO passes the checks, and there is nothing to choose from. -/
theorem setPllFrequency_divides_by_zero :
    let clocks : List Clock := [⟨1400000000, 0, false⟩]
    setPllFrequency 0 5000000 clocks = .error .zeroDivide ∧
      ¬ Meets 5000000 clocks (setPllFrequency 0 5000000 clocks) := by
  intro clocks
  have run : setPllFrequency 0 5000000 clocks = .error .zeroDivide := by decide +kernel
  refine ⟨run, ?_⟩
  rw [run]
  exact id

end Soapy.Lime.Pll
