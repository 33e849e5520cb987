import Soapy.Lib.LastLeast
import Soapy.Lib.OrdMap
import Soapy.Lib.Stopping

/-! # The plan of an FPGA PLL

`FPGA::SetPllFrequency` from its checks up to the words for the dividers. `double` and `float` are
exact, `int` has 32 bits and `unsigned long` 64.
-/

namespace Soapy.Lime.Pll

open Lib

/-- `FPGA_PLL_clock` without its phase. -/
structure Clock where
  outFrequency : ℚ
  index : Nat
  bypass : Bool

/-- What ends the function before it writes the words. -/
inductive Stop where
  | inputFrequency
  | clock (i : Nat)
  /-- "SetPllFrequency: VCO(%g MHz) out of range [600:1300] MHz" -/
  | vco (Fvco : ℚ)
  /-- A value that its type does not have: C++ does not say how it goes on. -/
  | undefined
  | zeroDivide
  | endless
deriving DecidableEq

def PLLlowerLimit : ℚ := 5000000

def vcoLower : ℚ := 600000000

def vcoUpper : ℚ := 1300000000

def INT_MAX : Nat := 2147483647

def divide (x y : ℚ) : Except Stop ℚ := if y = 0 then .error .zeroDivide else .ok (x / y)

/-- `int(x)`. None is negative here. -/
def toInt (x : ℚ) : Except Stop Nat := if x < 2147483648 then .ok ⌊x⌋₊ else .error .undefined

def toUnsignedLong (x : ℚ) : Except Stop Nat :=
  if x < 18446744073709551616 then .ok ⌊x⌋₊ else .error .undefined

/-- The `while` loop for one clock. A turn that does not add anything is repeated for ever. -/
def multiples (outFrequency : ℚ) : Nat → Nat → OrdMap Nat Nat → Except Stop (OrdMap Nat Nat)
  | 0, _, _ => .error .endless
  | turns + 1, freq, availableVCOs =>
    if vcoLower ≤ freq ∧ freq ≤ vcoUpper then do
      let next ← toUnsignedLong (freq + outFrequency)
      multiples outFrequency turns next (availableVCOs.insert freq 0)
    else .ok availableVCOs

def addMultiples (availableVCOs : OrdMap Nat Nat) (clock : Clock) :
    Except Stop (OrdMap Nat Nat) := do
  let ratio ← divide vcoLower clock.outFrequency
  let times ← toInt ratio
  let freq ← toUnsignedLong (clock.outFrequency * (times + 1))
  multiples clock.outFrequency 1300000001 freq availableVCOs

def availableVCOs (clocks : List Clock) : Except Stop (OrdMap Nat Nat) :=
  clocks.foldlM addMultiples .empty

/-- How many outputs have integer dividers. -/
def score (clocks : List Clock) (vco : Nat × Nat) : Except Stop Nat :=
  clocks.foldlM (fun score clock =>
    if clock.outFrequency = 0 ∨ clock.bypass then .ok score
    else do
      let out ← toInt clock.outFrequency
      if out = 0 then .error .zeroDivide
      else .ok (if vco.1 % out = 0 then score + 1 else score)) vco.2

def scores (clocks : List Clock) (vcos : OrdMap Nat Nat) : Except Stop (List (Nat × Nat)) :=
  vcos.entries.mapM fun vco => do
    let second ← score clocks vco
    .ok (vco.1, second)

def bestScore (vcos : List (Nat × Nat)) : Nat :=
  vcos.foldl (fun best vco => if vco.2 > best then vco.2 else best) 0

/-- The inner `while` loop, as long as there is a next `int`. -/
def countSearch (inputFreq coef : ℚ) (left Ntemp Mtemp : Nat) : Except Stop (Nat × Nat) := do
  let reference ← divide inputFreq Ntemp
  if reference > PLLlowerLimit then
    match left with
    | 0 => .error .undefined
    | left + 1 =>
      let next ← toInt (coef * (Ntemp + 1 : Nat) + 1 / 2)
      if next > 255 then do
        let back ← toInt (coef * Ntemp + 1 / 2)
        .ok (Ntemp, back)
      else countSearch inputFreq coef left (Ntemp + 1) next
  else .ok (Ntemp, Mtemp)

structure Choice where
  bestDeviation : ℚ
  M : Nat
  N : Nat

def consider (inputFreq : ℚ) (bestScore : Nat) (best : Choice) (vco : Nat × Nat) :
    Except Stop Choice :=
  if vco.2 = bestScore then do
    let coef ← divide vco.1 inputFreq
    let Mtemp ← toInt (coef + 1 / 2)
    let (Ntemp, Mtemp) ← countSearch inputFreq coef (INT_MAX - 1) 1 Mtemp
    let nearest ← divide (inputFreq * Mtemp) Ntemp
    let deviation := |(vco.1 : ℚ) - nearest|
    .ok (if deviation ≤ best.bestDeviation then ⟨deviation, Mtemp, Ntemp⟩ else best)
  else .ok best

def choose (inputFreq : ℚ) (vcos : List (Nat × Nat)) : Except Stop Choice :=
  vcos.foldlM (consider inputFreq (bestScore vcos)) ⟨1000000000, 0, 0⟩

def countWord (count : Nat) : Nat := (count / 2 + count % 2) <<< 8 ||| count / 2

def M_N_odd_byp (M N : Nat) : Nat :=
  (M % 2) <<< 3 ||| (N % 2) <<< 1 ||| (if M = 1 then 1 <<< 2 else 0) ||| (if N = 1 then 1 else 0)

structure Outputs where
  c7_c0_odds_byps : BitVec 16
  c15_c8_odds_byps : BitVec 16
  words : List (Nat × Nat)
  rd_actualFrequency : List ℚ

/-- The bits of an output among the eight of a register. -/
def oddByp (byps : BitVec 16) (bypass : Bool) (i C : Nat) : BitVec 16 :=
  (if ¬ bypass ∧ C ≠ 1 then byps &&& ~~~(1#16 <<< (i * 2)) else byps) |||
    (BitVec.ofNat 16 (C % 2) <<< (i * 2 + 1))

def setOutput (Fvco : ℚ) (o : Outputs) (output : Clock × Nat) : Except Stop Outputs := do
  let (clock, i) := output
  let ratio ← divide Fvco clock.outFrequency
  let C ← toInt (ratio + 1 / 2)
  let clow := C / 2
  let chigh := clow + C % 2
  let actual ← divide Fvco (chigh + clow : Nat)
  .ok {
    c7_c0_odds_byps :=
      if i < 8 then oddByp o.c7_c0_odds_byps clock.bypass i C else o.c7_c0_odds_byps
    c15_c8_odds_byps :=
      if i < 8 then o.c15_c8_odds_byps else oddByp o.c15_c8_odds_byps clock.bypass (i - 8) C
    words := o.words ++ [(0x002E + i, countWord C)]
    rd_actualFrequency := o.rd_actualFrequency ++ [actual] }

def setOutputs (Fvco : ℚ) (clocks : List Clock) : Except Stop Outputs :=
  clocks.zipIdx.foldlM (setOutput Fvco) ⟨0x5555#16, 0x5555#16, [], []⟩

/-- The counts, the words with their addresses, and the frequencies that the clocks are given. -/
structure Plan where
  M : Nat
  N : Nat
  words : List (Nat × Nat)
  rd_actualFrequency : List ℚ
deriving DecidableEq

def PLLCFG_START : UInt16 := 0x1

def PLLRST_START : UInt16 := 0x4

def planWords (reg23val : UInt16) (clocks : List Clock) (M N : Nat) (outputs : Outputs) :
    List (Nat × Nat) :=
  [(0x0023, (reg23val &&& ~~~PLLRST_START).toNat), (0x0026, M_N_odd_byp M N),
    (0x002A, countWord N), (0x002B, countWord M)] ++ outputs.words ++
  [(0x0027, outputs.c7_c0_odds_byps.toNat), (0x0028, outputs.c15_c8_odds_byps.toNat)] ++
  (if clocks.length ≠ 4 ∨ clocks.head?.map Clock.index = some 3 then
    [(0x0023, (reg23val ||| PLLCFG_START).toNat)] else [])

/-- What is left to do with the counts that have been chosen. -/
def program (reg23val : UInt16) (inputFreq : ℚ) (clocks : List Clock) (best : Choice) :
    Except Stop Plan := do
  let M := best.M
  let N := best.N
  let Fvco ← divide (inputFreq * M) N
  if Fvco < vcoLower ∨ Fvco > vcoUpper then .error (.vco Fvco) else
  let outputs ← setOutputs Fvco clocks
  .ok ⟨M, N, planWords reg23val clocks M N outputs, outputs.rd_actualFrequency⟩

def checkClock (output : Clock × Nat) : Except Stop Unit :=
  if output.1.outFrequency < PLLlowerLimit ∧ ¬ output.1.bypass then .error (.clock output.2)
  else .ok ()

def setPllFrequency (reg23val : UInt16) (inputFreq : ℚ) (clocks : List Clock) :
    Except Stop Plan := do
  if inputFreq < PLLlowerLimit then .error .inputFrequency else
  clocks.zipIdx.forM checkClock
  let vcos ← availableVCOs clocks
  let vcos ← scores clocks vcos
  let best ← choose inputFreq vcos
  program reg23val inputFreq clocks best

end Soapy.Lime.Pll
