import Soapy.Lime.SynthesizerRoundTrip

/-! # The control words of the NCOs

Each channel has 16 words for either direction, of two registers each. What the driver reads and
writes of them is known while it is known which channel is active.
-/

namespace Soapy.Lime.Session

open Lib LMS7002M

variable {v : Cell → UInt16} {refClk : Rat} {b : Session} {bank bank' : Bank} {tx tx' : Bool}
variable {i i' : Nat} {k k' : UInt16}

/-- A half of a control word: the upper one at 2, the lower one at 3. -/
def ncoCell (bank : Bank) (tx : Bool) (i : Nat) (k : UInt16) : Cell :=
  (bank, ncoAddress tx + k + (UInt8.ofNat i).toUInt16 * 2)

theorem index_toNat (small : i < 16) : (UInt8.ofNat i).toNat = i :=
  UInt8.toNat_ofNat_of_lt (lt_trans small (by decide))

theorem index_inRange (small : i < 16) : ¬ 15 < UInt8.ofNat i := by
  rw [UInt8.lt_iff_toNat_lt, index_toNat small]
  change ¬ 15 < i
  omega

theorem ncoCell_toNat (small : i < 16) (half : k.toNat ≤ 3) :
    (ncoCell bank tx i k).2.toNat = (if tx then 0x0240 else 0x0440) + k.toNat + i * 2 := by
  rw [ncoCell, ncoAddress_toNat tx (UInt8.ofNat i) half, index_toNat small]

/-- `k` is that of a half. -/
def Half (k : UInt16) : Prop := k = 2 ∨ k = 3

theorem Half.toNat (half : Half k) : k.toNat = 2 ∨ k.toNat = 3 := by
  cases half with
  | inl upper => exact .inl (congrArg UInt16.toNat upper)
  | inr lower => exact .inr (congrArg UInt16.toNat lower)

theorem ncoCell_inj (small : i < 16) (small' : i' < 16) (half : Half k) (half' : Half k')
    (same : ncoCell bank tx i k = ncoCell bank' tx' i' k') :
    bank = bank' ∧ tx = tx' ∧ i = i' ∧ k = k' := by
  have first := half.toNat
  have second := half'.toNat
  have place : (ncoCell bank tx i k).2.toNat = (ncoCell bank' tx' i' k').2.toNat :=
    congrArg (fun c : Cell => c.2.toNat) same
  rw [ncoCell_toNat small (by omega), ncoCell_toNat small' (by omega)] at place
  refine ⟨congrArg Prod.fst same, ?_⟩
  cases tx with
  | false =>
    cases tx' with
    | false => exact ⟨rfl, by simp at place; omega, UInt16.toNat_inj.mp (by simp at place; omega)⟩
    | true => simp at place; omega
  | true =>
    cases tx' with
    | false => simp at place; omega
    | true => exact ⟨rfl, by simp at place; omega, UInt16.toNat_inj.mp (by simp at place; omega)⟩

/-- The word that two registers hold. -/
def word (v : Cell → UInt16) (bank : Bank) (tx : Bool) (i : Nat) : UInt32 :=
  ((v (ncoCell bank tx i 2)).toUInt32 <<< 16) ||| (v (ncoCell bank tx i 3)).toUInt32

def writingWord (v : Cell → UInt16) (bank : Bank) (tx : Bool) (i : Nat) (q : UInt32) :
    Cell → UInt16 :=
  Function.update (Function.update v (ncoCell bank tx i 2) (q >>> 16).toUInt16)
    (ncoCell bank tx i 3) q.toUInt16

theorem word_halves (q : UInt32) :
    ((q >>> 16).toUInt16.toUInt32 <<< 16) ||| q.toUInt16.toUInt32 = q := by
  have bound := q.toNat_lt
  have shift : (16 : UInt32).toNat % 32 = 16 := rfl
  apply UInt32.toNat_inj.mp
  rw [UInt32.toNat_or, UInt32.toNat_shiftLeft, UInt16.toNat_toUInt32, UInt16.toNat_toUInt32,
    high_half, UInt32.toNat_toUInt16, shift, Nat.shiftLeft_eq, Nat.mod_eq_of_lt (by omega)]
  have apart := Nat.shiftLeft_add_eq_or_of_lt (show q.toNat % 65536 < 2 ^ 16 by omega)
    (q.toNat / 65536)
  rw [Nat.shiftLeft_eq] at apart
  rw [← apart]
  omega

theorem word_writing (small : i < 16) (small' : i' < 16) (q : UInt32) :
    word (writingWord v bank tx i q) bank' tx' i' =
      if bank' = bank ∧ tx' = tx ∧ i' = i then q else word v bank' tx' i' := by
  have upper : Half 2 := .inl rfl
  have lower : Half 3 := .inr rfl
  have apart : (2 : UInt16) ≠ 3 := by decide
  by_cases here : bank' = bank ∧ tx' = tx ∧ i' = i
  · obtain ⟨rfl, rfl, rfl⟩ := here
    have other : ncoCell bank' tx' i' 2 ≠ ncoCell bank' tx' i' 3 := fun same =>
      apart (ncoCell_inj small small upper lower same).2.2.2
    rw [if_pos ⟨rfl, rfl, rfl⟩, word, writingWord, Function.update_of_ne other,
      Function.update_self, Function.update_self, word_halves]
  · have other {k k' : UInt16} (half : Half k) (half' : Half k') :
        ncoCell bank' tx' i' k ≠ ncoCell bank tx i k' := by
      intro same
      obtain ⟨banks, txs, indices, _⟩ := ncoCell_inj small' small half half' same
      exact here ⟨banks, txs, indices⟩
    rw [if_neg here, word, writingWord, Function.update_of_ne (other upper lower),
      Function.update_of_ne (other upper upper), Function.update_of_ne (other lower lower),
      Function.update_of_ne (other lower upper), word]

theorem writingWord_low (small : i < 16) {c : Cell} (low : c.2.toNat < 0x0240) (q : UInt32) :
    writingWord v bank tx i q c = v c := by
  have other (k : UInt16) (half : Half k) : c ≠ ncoCell bank tx i k := by
    intro same
    have place := half.toNat
    rw [same, ncoCell_toNat small (by omega)] at low
    split at low <;> omega
  rw [writingWord, Function.update_of_ne (other 3 (.inr rfl)),
    Function.update_of_ne (other 2 (.inl rfl))]

def OutOfRangeNCO (clock freq : Rat) : Prop := freq < 0 ∨ 1 / 2 < freq / clock

instance (clock freq : Rat) : Decidable (OutOfRangeNCO clock freq) :=
  inferInstanceAs (Decidable (_ ∨ _))

def controlWord (clock freq : Rat) : UInt32 := toUInt32 (freq / clock * 4294967296)

def settingWord (clock : Rat) (bank : Bank) (tx : Bool) (freqs : List Rat) (v : Cell → UInt16)
    (i : Nat) : Cell → UInt16 :=
  if OutOfRangeNCO clock (freqs.getD i 0) then v
  else writingWord v bank tx i (controlWord clock (freqs.getD i 0))

def settingWords (clock : Rat) (bank : Bank) (tx : Bool) (freqs : List Rat) (v : Cell → UInt16) :
    Cell → UInt16 :=
  (List.range 16).foldl (settingWord clock bank tx freqs) v

section

variable (clock : Rat) (bank : Bank) (tx : Bool) (freqs : List Rat)

theorem foldl_settingWord {l : List Nat} (small : ∀ i ∈ l, i < 16) (small' : i' < 16)
    (v : Cell → UInt16) : word (l.foldl (settingWord clock bank tx freqs) v) bank' tx' i' =
      if bank' = bank ∧ tx' = tx ∧ i' ∈ l ∧ ¬ OutOfRangeNCO clock (freqs.getD i' 0) then
        controlWord clock (freqs.getD i' 0)
      else word v bank' tx' i' := by
  induction l generalizing v with
  | nil => rw [if_neg fun here => List.not_mem_nil here.2.2.1, List.foldl_nil]
  | cons i rest ih =>
    rw [List.foldl_cons, ih fun j member => small j (List.mem_cons_of_mem i member)]
    have step : word (settingWord clock bank tx freqs v i) bank' tx' i' =
        if bank' = bank ∧ tx' = tx ∧ i' = i ∧ ¬ OutOfRangeNCO clock (freqs.getD i' 0) then
          controlWord clock (freqs.getD i' 0)
        else word v bank' tx' i' := by
      rw [settingWord]
      split
      · rename_i refused
        rw [if_neg fun here => here.2.2.2 (here.2.2.1 ▸ refused)]
      · rename_i accepted
        rw [word_writing (small i List.mem_cons_self) small']
        grind
    rw [step]
    grind

theorem settingWords_word (small : i' < 16) (v : Cell → UInt16) :
    word (settingWords clock bank tx freqs v) bank' tx' i' =
      if bank' = bank ∧ tx' = tx ∧ ¬ OutOfRangeNCO clock (freqs.getD i' 0) then
        controlWord clock (freqs.getD i' 0)
      else word v bank' tx' i' := by
  rw [settingWords, foldl_settingWord clock bank tx freqs (fun _ => List.mem_range.mp) small]
  simp [small]

theorem settingWord_low {c : Cell} (small : i < 16) (low : c.2.toNat < 0x0240)
    (v : Cell → UInt16) : settingWord clock bank tx freqs v i c = v c := by
  rw [settingWord]
  split
  · rfl
  · exact writingWord_low small low _

theorem settingWords_low {c : Cell} (low : c.2.toNat < 0x0240) (v : Cell → UInt16) :
    settingWords clock bank tx freqs v c = v c := by
  have turns (l : List Nat) (small : ∀ i ∈ l, i < 16) (v : Cell → UInt16) :
      l.foldl (settingWord clock bank tx freqs) v c = v c := by
    induction l generalizing v with
    | nil => rfl
    | cons i rest ih =>
      rw [List.foldl_cons, ih fun j member => small j (List.mem_cons_of_mem i member)]
      exact settingWord_low clock bank tx freqs (small i List.mem_cons_self) low v
  exact turns _ (fun _ => List.mem_range.mp) v

end

def clockCells : List Cell := [macCell, (.a, 0x0086), (.a, 0x0087), (.a, 0x0088), (.a, 0x0089)]

/-- These, and the words of both channels. -/
def ncoRegisters : Set Cell :=
  {c | c ∈ clockCells ∨ ∃ bank tx i k, i < 16 ∧ Half k ∧ c = ncoCell bank tx i k}

theorem clock_known {c : Cell} (member : c ∈ clockCells) : c ∈ ncoRegisters := .inl member

theorem ncoCell_known (bank : Bank) (tx : Bool) (small : i < 16) (half : Half k) :
    ncoCell bank tx i k ∈ ncoRegisters :=
  .inr ⟨bank, tx, i, k, small, half, rfl⟩

theorem plain_of_range (address : UInt16)
    (range : (0x0242 ≤ address.toNat ∧ address.toNat ≤ 0x0261) ∨
      (0x0442 ≤ address.toNat ∧ address.toNat ≤ 0x0461)) :
    Lime.Plain address ∧ ¬ address < 0x0100 := by
  have changing : readOnlyRegs.all (fun r => decide (r.toNat < 0x0242 ∨
      (0x0261 < r.toNat ∧ r.toNat < 0x0442) ∨ 0x0461 < r.toNat)) = true := by decide
  refine ⟨⟨?_, fun member => ?_, ?_, ?_⟩, fun low => ?_⟩
  · rw [UInt16.lt_iff_toNat_lt]
    change _ < 32768
    omega
  · have apart := of_decide_eq_true (List.all_eq_true.mp changing address member)
    omega
  · rintro rfl
    simp at range
  · rintro rfl
    simp at range
  · rw [UInt16.lt_iff_toNat_lt] at low
    change address.toNat < 256 at low
    omega

theorem ncoRegisters_plain {c : Cell} (member : c ∈ ncoRegisters) : Cell.Plain c := by
  cases member with
  | inl clock =>
    have all : clockCells.all (fun c => decide (c.1 = .a ∧ Lime.Plain c.2)) = true := by decide
    obtain ⟨bank, plain⟩ := of_decide_eq_true (List.all_eq_true.mp all c clock)
    exact ⟨plain, fun other => by rw [bank] at other; cases other⟩
  | inr nco =>
    obtain ⟨bank, tx, i, k, small, half, rfl⟩ := nco
    have place := half.toNat
    have value : (ncoCell bank tx i k).2.toNat = _ := ncoCell_toNat small (by omega)
    obtain ⟨plain, high⟩ := plain_of_range (ncoCell bank tx i k).2 (by
      split at value <;> omega)
    exact ⟨plain, fun _ => high⟩

theorem nco_meant (active : v macCell &&& 0x0003 = channelOf bank) (small : i < 16)
    (half : Half k) : Meant ncoRegisters v (ncoCell bank tx i k) := by
  refine .inr ⟨clock_known (by decide), ?_⟩
  cases bank with
  | a => exact .inl ⟨rfl, active⟩
  | b => exact .inr ⟨rfl, (ncoRegisters_plain (ncoCell_known .b tx small half)).2 rfl, active⟩

/-- What the registers of the clock generator make of the reference clock. -/
def clockTSP (refClk : Rat) (v : Cell → UInt16) (tx : Bool) : Rat :=
  let cgenFreq := cgenFrequency refClk (bitsOf (v (.a, 0x0089)) 10 3)
    (bitsOf (v (.a, 0x0088)) 13 0) (bitsOf (v (.a, 0x0087)) 15 0)
  let clklfreq := cgenFreq / 2 ^ (bitsOf (v (.a, 0x0089)) 12 11).toNat
  if bitsOf (v (.a, 0x0086)) 11 11 = 0 then if tx then clklfreq else cgenFreq / 4
  else if tx then cgenFreq else clklfreq / 4

def ncoFrequency (refClk : Rat) (v : Cell → UInt16) (bank : Bank) (tx : Bool) (i : Nat) : Rat :=
  clockTSP refClk v tx * ((word v bank tx i).toNat / 4294967296)

section Holds

variable (holds : Holds ncoRegisters v refClk b)

include holds

theorem Holds.getReferenceClkTSP (tx : Bool) :
    (getReferenceClkTSP tx b).1 = clockTSP refClk v tx ∧
      Holds ncoRegisters v refClk (getReferenceClkTSP tx b).2 := by
  have known (p : Parameter) (member : ((.a, p.address) : Cell) ∈ clockCells)
      (low : p.address < 0x0100) {b : Session} (holds : Holds ncoRegisters v refClk b) :
      (Session.getBits p true b).1 = bitsOf (v (.a, p.address)) p.msb p.lsb ∧
        Holds ncoRegisters v refClk (Session.getBits p true b).2 :=
    holds.getBits (clock_known member) (.inl ⟨rfl, low⟩) p.msb p.lsb true
  obtain ⟨div, first⟩ := known DIV_OUTCH_CGEN (by decide) (by decide) holds
  obtain ⟨gINT, second⟩ := known ⟨0x0088, 13, 0⟩ (by decide) (by decide) first
  obtain ⟨low, third⟩ := known ⟨0x0087, 15, 0⟩ (by decide) (by decide) second
  obtain ⟨clkl, fourth⟩ := known CLKH_OV_CLKL_CGEN (by decide) (by decide) third
  obtain ⟨high, fifth⟩ := known EN_ADCCLKH_CLKGN (by decide) (by decide) fourth
  simp only [Session.getReferenceClkTSP, getFrequencyCGEN, bind_run, pure_run, ite_pure_run,
    getReferenceClkSX_run holds, div, gINT, low, clkl, high]
  exact ⟨rfl, fifth⟩

theorem Holds.getNCOFrequency (active : v macCell &&& 0x0003 = channelOf bank) (tx : Bool)
    (small : i < 16) :
    (getNCOFrequency tx (UInt8.ofNat i) false b).1 = ncoFrequency refClk v bank tx i ∧
      Holds ncoRegisters v refClk (getNCOFrequency tx (UInt8.ofNat i) false b).2 := by
  obtain ⟨clock, first⟩ := holds.getReferenceClkTSP tx
  have half (k : UInt16) (half : Half k) {b : Session} (holds : Holds ncoRegisters v refClk b) :
      (Session.spiRead (ncoAddress tx + k + (UInt8.ofNat i).toUInt16 * 2) false b).1 =
          v (ncoCell bank tx i k) ∧
        Holds ncoRegisters v refClk
          (Session.spiRead (ncoAddress tx + k + (UInt8.ofNat i).toUInt16 * 2) false b).2 :=
    holds.spiRead (ncoCell_known bank tx small half) (nco_meant active small half) false
  obtain ⟨upper, second⟩ := half 2 (.inl rfl) first
  obtain ⟨lower, third⟩ := half 3 (.inr rfl) second
  simp only [Session.getNCOFrequency, if_neg (index_inRange small), bind_run, pure_run, clock, upper, lower]
  exact ⟨rfl, third⟩

theorem Holds.getNCOs (active : v macCell &&& 0x0003 = channelOf bank) (tx modeNCO : Bool) :
    (getNCOs tx modeNCO b).1 =
        (if modeNCO then [] else (List.range 16).map (ncoFrequency refClk v bank tx)) ∧
      Holds ncoRegisters v refClk (getNCOs tx modeNCO b).2 := by
  cases modeNCO with
  | true => exact ⟨rfl, holds⟩
  | false =>
    have turns (i : Nat) (member : i ∈ List.range 16) (b : Session)
        (holds : Holds ncoRegisters v refClk b) :=
      holds.getNCOFrequency active tx (List.mem_range.mp member)
    have values := mapM_values turns holds
    simp only [Session.getNCOs, Bool.false_eq_true, if_false]
    exact values

end Holds

theorem clockTSP_congr {v' : Cell → UInt16} (same : ∀ c ∈ clockCells, c ≠ macCell → v c = v' c) :
    clockTSP refClk v tx = clockTSP refClk v' tx := by
  rw [clockTSP, clockTSP, same (.a, 0x0086) (by decide) (by decide),
    same (.a, 0x0087) (by decide) (by decide), same (.a, 0x0088) (by decide) (by decide),
    same (.a, 0x0089) (by decide) (by decide)]

theorem clockCells_low {c : Cell} (member : c ∈ clockCells) : c.2.toNat < 0x0240 := by
  have all : clockCells.all (fun c => decide (c.2.toNat < 0x0240)) = true := by decide
  exact of_decide_eq_true (List.all_eq_true.mp all c member)

theorem settingWord_clock (clock : Rat) (freqs : List Rat) (small : i < 16) :
    clockTSP refClk (settingWord clock bank tx freqs v i) tx' = clockTSP refClk v tx' :=
  clockTSP_congr fun _ member _ =>
    settingWord_low clock bank tx freqs small (clockCells_low member) v

theorem Holds.setNCOFrequency (holds : Holds ncoRegisters v refClk b)
    (active : v macCell &&& 0x0003 = channelOf bank) (small : i < 16) (tx : Bool)
    (freqs : List Rat) :
    Holds ncoRegisters (settingWord (clockTSP refClk v tx) bank tx freqs v i) refClk
      (setNCOFrequency tx (UInt8.ofNat i) (freqs.getD i 0) b).2 := by
  obtain ⟨clock, first⟩ := holds.getReferenceClkTSP tx
  simp only [Session.setNCOFrequency, if_neg (index_inRange small), bind_run, clock]
  by_cases refused : OutOfRangeNCO (clockTSP refClk v tx) (freqs.getD i 0)
  · rw [settingWord, if_pos refused]
    simp only [OutOfRangeNCO] at refused
    simp only [if_pos refused]
    exact first
  · rw [settingWord, if_neg refused]
    simp only [OutOfRangeNCO] at refused
    simp only [if_neg refused, bind_run, pure_run]
    have upper : Half 2 := .inl rfl
    have lower : Half 3 := .inr rfl
    have second := first.spiWrite (ncoCell_known bank tx small upper)
      (nco_meant active small upper)
      (controlWord (clockTSP refClk v tx) (freqs.getD i 0) >>> 16).toUInt16
    refine second.spiWrite (ncoCell_known bank tx small lower) (nco_meant ?_ small lower) _
    rw [Function.update_of_ne]
    · exact active
    · intro same
      have place := congrArg (fun c : Cell => c.2.toNat) same
      rw [ncoCell_toNat small (by decide)] at place
      change 32 = _ at place
      split at place <;> omega

theorem Holds.setNCOs (holds : Holds ncoRegisters v refClk b)
    (active : v macCell &&& 0x0003 = channelOf bank) (tx modeNCO : Bool) (freqs : List Rat) :
    Holds ncoRegisters
      (if modeNCO then v else settingWords (clockTSP refClk v tx) bank tx freqs v) refClk
      (setNCOs tx modeNCO freqs b).2 := by
  cases modeNCO with
  | true => exact holds
  | false =>
    let clock := clockTSP refClk v tx
    let Now (v' : Cell → UInt16) (b' : Session) := Holds ncoRegisters v' refClk b' ∧
      v' macCell &&& 0x0003 = channelOf bank ∧ clockTSP refClk v' tx = clock
    have turns (i : Nat) (member : i ∈ List.range 16) (v' : Cell → UInt16) (b' : Session)
        (now : Now v' b') : Now (settingWord clock bank tx freqs v' i)
          (Session.setNCOFrequency tx (UInt8.ofNat i) (freqs.getD i 0) b').2 := by
      obtain ⟨holds, active, same⟩ := now
      have small := List.mem_range.mp member
      have set := holds.setNCOFrequency active small tx freqs
      rw [same] at set
      refine ⟨set, ?_, (settingWord_clock clock freqs small).trans same⟩
      rwa [settingWord_low clock bank tx freqs small (by decide)]
    have start : Now v b := ⟨holds, active, rfl⟩
    simp only [Session.setNCOs, Bool.false_eq_true, if_false]
    exact (forM_fold turns start).1

end Soapy.Lime.Session
