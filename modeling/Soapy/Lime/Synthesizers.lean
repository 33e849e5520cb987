import Soapy.Lib.Rounding
import Soapy.Lime.Session

/-! # The clock generator, the synthesizers and the NCOs of the LMS7002M

Frequencies are rational numbers where the driver has `double`. What is written to `output` is left
out, but not the reads that it takes.
-/

namespace Soapy.Lime.Session

open Lib

def INT_SDM_CGEN : Parameter := ⟨0x0088, 13, 4⟩
def DIV_OUTCH_CGEN : Parameter := ⟨0x0089, 10, 3⟩
def CLKH_OV_CLKL_CGEN : Parameter := ⟨0x0089, 12, 11⟩
def EN_ADCCLKH_CLKGN : Parameter := ⟨0x0086, 11, 11⟩
def CSW_VCO_CGEN : Parameter := ⟨0x008B, 8, 1⟩
def MODE_RX : Parameter := ⟨0x0440, 0, 0⟩
def MODE_TX : Parameter := ⟨0x0240, 0, 0⟩
def EN_INTONLY_SDM : Parameter := ⟨0x011C, 9, 9⟩
def EN_DIV2_DIVPROG : Parameter := ⟨0x011C, 10, 10⟩
def PD_VCO : Parameter := ⟨0x011C, 1, 1⟩
def PD_VCO_COMP : Parameter := ⟨0x011C, 2, 2⟩
def INT_SDM : Parameter := ⟨0x011E, 13, 4⟩
def DIV_LOCH : Parameter := ⟨0x011F, 8, 6⟩
def ICT_VCO : Parameter := ⟨0x0120, 7, 0⟩
def CSW_VCO : Parameter := ⟨0x0121, 10, 3⟩
def SEL_VCO : Parameter := ⟨0x0121, 2, 1⟩
def HBI_OVR_TXTSP : Parameter := ⟨0x0203, 14, 12⟩
def HBD_OVR_RXTSP : Parameter := ⟨0x0403, 14, 12⟩

def ERANGE : Int := 34

def toUInt16 (x : Rat) : UInt16 := UInt16.ofInt (truncate x)

def toUInt32 (x : Rat) : UInt32 := UInt32.ofInt (truncate x)

def getReferenceClkSX : LmsM Rat := fun b => (b._cachedRefClockRate, b)

/-- What the registers of the clock generator stand for. -/
def cgenFrequency (refClk : Rat) (div : UInt16) (gINT low : UInt16) : Rat :=
  let dMul := (refClk / 2) / (div.toNat + 1)
  let gFRAC : UInt32 := ((gINT &&& 0xF).toUInt32 * 65536) ||| low.toUInt32
  dMul * ((gINT >>> 4).toNat + 1 + gFRAC.toNat / 1048576)

def getFrequencyCGEN : LmsM Rat := do
  let refClk ← getReferenceClkSX
  let div ← getBits DIV_OUTCH_CGEN true
  let gINT ← getBits ⟨0x0088, 13, 0⟩ true
  let low ← getBits ⟨0x0087, 15, 0⟩ true
  return cgenFrequency refClk div gINT low

def getReferenceClkTSP (tx : Bool) : LmsM Rat := do
  let cgenFreq ← getFrequencyCGEN
  let clkl ← getBits CLKH_OV_CLKL_CGEN true
  let clklfreq := cgenFreq / 2 ^ clkl.toNat
  let high ← getBits EN_ADCCLKH_CLKGN true
  if high = 0 then return if tx then clklfreq else cgenFreq / 4
  else return if tx then cgenFreq else clklfreq / 4

def ncoAddress (tx : Bool) : UInt16 := if tx then 0x0240 else 0x0440

def setNCOFrequency (tx : Bool) (index : UInt8) (freq : Rat) : LmsM Int := do
  if 15 < index then return ERANGE
  else
    let refClk ← getReferenceClkTSP tx
    if freq < 0 ∨ 1 / 2 < freq / refClk then return ERANGE
    else
      let fcw := toUInt32 (freq / refClk * 4294967296)
      let _ ← spiWrite (ncoAddress tx + 2 + index.toUInt16 * 2) (fcw >>> 16).toUInt16
      let _ ← spiWrite (ncoAddress tx + 3 + index.toUInt16 * 2) fcw.toUInt16
      return 0

def getNCOFrequency (tx : Bool) (index : UInt8) (fromChip : Bool) : LmsM Rat := do
  if 15 < index then return ERANGE
  else
    let refClk ← getReferenceClkTSP tx
    let high ← spiRead (ncoAddress tx + 2 + index.toUInt16 * 2) fromChip
    let low ← spiRead (ncoAddress tx + 3 + index.toUInt16 * 2) fromChip
    let fcw : UInt32 := (high.toUInt32 <<< 16) ||| low.toUInt32
    return refClk * (fcw.toNat / 4294967296)

inductive VCO_Module where
  | VCO_CGEN
  | VCO_SXR
  | VCO_SXT

/-- The comparators, with this value of the coarse control. -/
def checkCSW (cswVal : Int) : LmsM UInt16 := do
  let _ ← modifyBits CSW_VCO_CGEN (UInt16.ofInt cswVal)
  getBits ⟨0x008C, 13, 12⟩ true

/-- Halve the steps until the comparators agree. -/
def findLock : List Int → (csw : Int) → LmsM Int
  | [], csw => return csw
  | step :: rest, csw => do
    let cmphl ← checkCSW csw
    if cmphl = 0 then findLock rest (csw + step)
    else if cmphl = 3 then findLock rest (csw - step)
    else return csw

def tuneCGENVCO : LmsM Int := do
  let status ← modifyBits ⟨0x0086, 2, 1⟩ 0
  if status ≠ 0 then return 1
  else
    let csw ← findLock [64, 32, 16, 8, 4, 2, 1] 127
    let cswLow ← [4, 2, 1].foldlM (fun low (step : Int) => do
      let cmphl ← checkCSW (low - step)
      return if cmphl ≠ 0 then low - step else low) csw
    let cswHigh ← [4, 2, 1].foldlM (fun high (step : Int) => do
      let cmphl ← checkCSW (high + step)
      return if cmphl = 2 then high + step else high) csw
    let cmphl ← checkCSW (Int.tdiv (cswHigh + cswLow) 2)
    return if cmphl = 2 then 0 else -1

structure CSWInteval where
  high : Int16
  low : Int16

/-- The comparators of a synthesizer, with this value of the coarse control. -/
def settle (csw : UInt16) : LmsM UInt16 := do
  let _ ← modifyBits CSW_VCO csw
  getBits ⟨0x0123, 13, 12⟩ true

def searchBit (cswSearch : CSWInteval) (i : Int16) : LmsM CSWInteval := do
  let tried := cswSearch.high ||| ((1 : Int16) <<< i)
  let cmphl ← settle tried.toUInt16
  let high := if cmphl &&& 0x01 ≠ 0 then tried &&& ~~~((1 : Int16) <<< i) else tried
  return { high, low := if cmphl = 2 ∧ high < cswSearch.low then high else cswSearch.low }

/-- The loop that lowers `low`, which stays above `bottom`. -/
def lower (bottom : Int16) : Nat → CSWInteval → LmsM CSWInteval
  | 0, cswSearch => return cswSearch
  | fuel + 1, cswSearch =>
    if cswSearch.low ≤ cswSearch.high ∧ bottom < cswSearch.low then do
      let cmphl ← settle (cswSearch.low - 1).toUInt16
      if cmphl ≠ 2 then return cswSearch
      else lower bottom fuel { cswSearch with low := cswSearch.low - 1 }
    else return cswSearch

/-- The search in one half of the values. `low` starts 128 above the bottom. -/
def searchHalf (t : Int16) : LmsM CSWInteval := do
  let _ ← modifyBits CSW_VCO (128 * t).toUInt16
  let cswSearch ← [6, 5, 4, 3, 2, 1, 0].foldlM searchBit { high := 128 * t, low := 128 * (t + 1) }
  lower (128 * t) 128 cswSearch

def joined (first second : CSWInteval) : CSWInteval :=
  if first.high = second.low - 1 then { high := second.high, low := first.low }
  else if first.high.toInt - first.low.toInt < second.high.toInt - second.low.toInt then second
  else first

/-- The middle of the interval, or that of its two values which locks. -/
def writeCSW (csw : CSWInteval) : LmsM Unit := do
  let width := csw.high.toInt - csw.low.toInt
  if width = 1 then
    let cmphl ← settle csw.low.toUInt16
    if cmphl = 2 then return ()
    else
      let _ ← modifyBits CSW_VCO csw.high.toUInt16
      return ()
  else
    let _ ← modifyBits CSW_VCO (UInt16.ofInt (csw.low.toInt + Int.tdiv width 2))
    return ()

/-- `TuneVCO` of a synthesizer, from the check of its range on. -/
def tuneInRange (ch : UInt16) : LmsM Int := do
  let cmphl ← settle 0
  if cmphl = 3 then
    setActiveChannel ch
    return -1
  else
    let cmphl ← settle 255
    if cmphl = 0 then
      setActiveChannel ch
      return -1
    else
      let first ← searchHalf 0
      let second ← searchHalf 1
      writeCSW (joined first second)
      let cmphl ← getBits ⟨0x0123, 13, 12⟩ true
      setActiveChannel ch
      return if cmphl = 2 then 0 else -1

/-- The VCO and its comparator are switched on: nothing, or what the call gives back. -/
def powerUp : LmsM (Option Int) := do
  let _ ← getBits ICT_VCO false
  let status ← modifyBits ⟨0x011C, 2, 1⟩ 0
  if status ≠ 0 then return some 1
  else
    let down ← getBits ⟨0x011C, 2, 1⟩ false
    return if down ≠ 0 then some (-1) else none

/-- `TuneVCO` of a synthesizer in this register space. -/
def tuneSX (space : UInt16) : LmsM Int := do
  let ch ← getActiveChannel true
  setActiveChannel space
  let failed ← powerUp
  match failed with
  | some status => return status
  | none => tuneInRange ch

def tuneVCO : VCO_Module → LmsM Int
  | .VCO_CGEN => tuneCGENVCO
  | .VCO_SXR => tuneSX ChSXR
  | .VCO_SXT => tuneSX ChSXT

def gCGEN_VCO_frequencies : Rat × Rat := (1930000000, 2940000000)

def iHdiv (freq : Rat) : Nat :=
  let iHdiv_high := toUInt16 (gCGEN_VCO_frequencies.2 / 2 / freq - 1)
  let iHdiv_low := toUInt16 (gCGEN_VCO_frequencies.1 / 2 / freq)
  let iHdiv := (iHdiv_low.toNat + iHdiv_high.toNat) / 2
  if 255 < iHdiv then 255 else iHdiv

def dFvcoCGEN (freq : Rat) : Rat := 2 * (iHdiv freq + 1) * freq

def OutOfRangeCGEN (freq : Rat) : Prop :=
  dFvcoCGEN freq ≤ gCGEN_VCO_frequencies.1 ∨ gCGEN_VCO_frequencies.2 ≤ dFvcoCGEN freq

instance (freq : Rat) : Decidable (OutOfRangeCGEN freq) := inferInstanceAs (Decidable (_ ∨ _))

def gINTCGEN (refClk freq : Rat) : UInt16 := toUInt16 (dFvcoCGEN freq / refClk - 1)

def gFRACCGEN (refClk freq : Rat) : UInt32 :=
  let dFrac := dFvcoCGEN freq / refClk - (toUInt32 (dFvcoCGEN freq / refClk)).toNat
  toUInt32 (dFrac * 1048576)

/-- The frequencies of all NCOs of the channel, unless they have phases instead. -/
def getNCOs (tx modeNCO : Bool) : LmsM (List Rat) :=
  if modeNCO then return []
  else (List.range 16).mapM fun i => getNCOFrequency tx (UInt8.ofNat i) false

def setNCOs (tx modeNCO : Bool) (freqs : List Rat) : LmsM Unit :=
  if modeNCO then return ()
  else (List.range 16).forM fun i => do
    let _ ← setNCOFrequency tx (UInt8.ofNat i) (freqs.getD i 0)

/-- What is remembered of the NCOs: whether they have phases, and the frequencies of both
channels. -/
structure NCODetails where
  rxModeNCO : Bool
  txModeNCO : Bool
  rxNCO : List Rat × List Rat
  txNCO : List Rat × List Rat

def allNCOs : LmsM NCODetails := do
  let rxMode ← getBits MODE_RX true
  let txMode ← getBits MODE_TX true
  let rxModeNCO := decide (rxMode ≠ 0)
  let txModeNCO := decide (txMode ≠ 0)
  setActiveChannel ChA
  let rxA ← getNCOs false rxModeNCO
  let txA ← getNCOs true txModeNCO
  setActiveChannel ChB
  let rxB ← getNCOs false rxModeNCO
  let txB ← getNCOs true txModeNCO
  return ⟨rxModeNCO, txModeNCO, (rxA, rxB), (txA, txB)⟩

def setAllNCOs (nco : NCODetails) : LmsM Unit := do
  setActiveChannel ChA
  setNCOs false nco.rxModeNCO nco.rxNCO.1
  setNCOs true nco.txModeNCO nco.txNCO.1
  setActiveChannel ChB
  setNCOs false nco.rxModeNCO nco.rxNCO.2
  setNCOs true nco.txModeNCO nco.txNCO.2

def rememberNCOs (retainNCOfrequencies : Bool) : LmsM NCODetails :=
  if retainNCOfrequencies then allNCOs else return ⟨false, false, ([], []), ([], [])⟩

def recalculateNCOs (retainNCOfrequencies : Bool) (nco : NCODetails) : LmsM Unit :=
  if retainNCOfrequencies then setAllNCOs nco else return ()

/-- The registers of the clock generator. -/
def writeCGEN (freq : Rat) : LmsM Unit := do
  let refClk ← getReferenceClkSX
  let _ ← modifyBits INT_SDM_CGEN (gINTCGEN refClk freq)
  let _ ← modifyBits ⟨0x0087, 15, 0⟩ (gFRACCGEN refClk freq &&& 0xFFFF).toUInt16
  let _ ← modifyBits ⟨0x0088, 3, 0⟩ (gFRACCGEN refClk freq >>> 16).toUInt16
  let _ ← modifyBits DIV_OUTCH_CGEN (UInt16.ofNat (iHdiv freq))

def readCSW (output : Bool) : LmsM UInt16 :=
  if output then getBits CSW_VCO_CGEN false else return 0

/-- The end of `SetFrequencyCGEN`. -/
def finishCGEN (output : Bool) : LmsM Int := do
  let tuned ← tuneVCO .VCO_CGEN
  let _ ← readCSW output
  return if tuned ≠ 0 then -1 else 0

/-- `output` says whether it is there. -/
def setFrequencyCGEN (freq : Rat) (retainNCOfrequencies output : Bool) : LmsM Int := do
  let chBck ← getActiveChannel true
  let nco ← rememberNCOs retainNCOfrequencies
  if OutOfRangeCGEN freq then return ERANGE
  else
    writeCGEN freq
    recalculateNCOs retainNCOfrequencies nco
    setActiveChannel chBck
    finishCGEN output

def space (tx : Bool) : UInt16 := if tx then ChSXT else ChSXR

def gVCO_frequency_table : Rat × Rat := (3800000000, 7714000000)

def div_loch (freq : Rat) : Option Nat :=
  [6, 5, 4, 3, 2, 1, 0].find? fun (div : Nat) =>
    decide (gVCO_frequency_table.1 ≤ 2 ^ (div + 1) * freq ∧
      2 ^ (div + 1) * freq ≤ gVCO_frequency_table.2)

def m_dThrF : Rat := 5500000000

def dividerSX (refClk vcoFreq : Rat) : Rat :=
  vcoFreq / (refClk * (1 + if m_dThrF < vcoFreq then 1 else 0))

def integerPart (refClk vcoFreq : Rat) : UInt16 := toUInt16 (dividerSX refClk vcoFreq - 4)

def fractionalPart (refClk vcoFreq : Rat) : UInt32 :=
  toUInt32 ((dividerSX refClk vcoFreq - (toUInt32 (dividerSX refClk vcoFreq)).toNat) * 1048576)

def writeSX (div : Nat) (vcoFreq : Rat) : LmsM Unit := do
  let refClk ← getReferenceClkSX
  let _ ← modifyBits EN_INTONLY_SDM 0
  let _ ← modifyBits INT_SDM (integerPart refClk vcoFreq)
  let _ ← modifyBits ⟨0x011D, 15, 0⟩ (fractionalPart refClk vcoFreq &&& 0xFFFF).toUInt16
  let _ ← modifyBits ⟨0x011E, 3, 0⟩ (fractionalPart refClk vcoFreq >>> 16).toUInt16
  let _ ← modifyBits DIV_LOCH (UInt16.ofNat div)
  let _ ← modifyBits EN_DIV2_DIVPROG (if m_dThrF < vcoFreq then 1 else 0)
  let _ ← modifyBits PD_VCO 0
  let _ ← modifyBits PD_VCO_COMP 0

/-- What earlier tuning found, if it still holds. -/
def fastTune (freq : Rat) : LmsM Bool := fun b =>
  match if b.lms.useCache then b.tuning_cache freq else none with
  | none => (false, b)
  | some (sel_vco, csw_value) => (do
      let _ ← modifyBits SEL_VCO sel_vco
      let _ ← modifyBits CSW_VCO (UInt16.ofInt csw_value)
      let cmphl ← getBits ⟨0x0123, 13, 12⟩ true
      return decide (cmphl = 2) : LmsM Bool) b

def tuneWith (tx : Bool) (tuneScore : UInt16 → Option Int) (sel_vco : UInt16) :
    LmsM (UInt16 → Option Int) := do
  let _ ← modifyBits SEL_VCO sel_vco
  let status ← tuneVCO (if tx then .VCO_SXT else .VCO_SXR)
  if status = 0 then
    let csw ← getBits CSW_VCO true
    return Function.update tuneScore sel_vco (some (-128 + csw.toNat))
  else return tuneScore

def attempts (tx : Bool) : Nat → (UInt16 → Option Int) → LmsM (UInt16 → Option Int)
  | 0, tuneScore => return tuneScore
  | more + 1, tuneScore => do
    let tuneScore ← [0, 1, 2].foldlM (tuneWith tx) tuneScore
    if tuneScore 0 ≠ none ∨ tuneScore 1 ≠ none ∨ tuneScore 2 ≠ none then return tuneScore
    else
      let bias ← getBits ICT_VCO false
      if bias = 255 then return tuneScore
      else
        let _ ← modifyBits ICT_VCO (if 255 < bias + 32 then 255 else bias + 32)
        attempts tx more tuneScore

def selectVCO (tuneScore : UInt16 → Option Int) : UInt16 :=
  let score := fun i => ((tuneScore i).getD (-128)).natAbs
  if score 0 < score 1 then if score 0 < score 2 then 0 else 2
  else if score 1 < score 2 then 1 else 2

def fullTune (tx : Bool) (freq : Rat) : LmsM Bool := do
  let tuneScore ← attempts tx 5 fun _ => none
  let canDeliverFrequency := decide (tuneScore 0 ≠ none ∨ tuneScore 1 ≠ none ∨ tuneScore 2 ≠ none)
  let sel_vco := selectVCO tuneScore
  let csw_value := (tuneScore sel_vco).getD (-128) + 128
  let _ ← modifyBits SEL_VCO sel_vco
  let _ ← modifyBits CSW_VCO (UInt16.ofInt csw_value)
  modify fun b =>
    if b.lms.useCache ∧ canDeliverFrequency then
      { b with tuning_cache := Function.update b.tuning_cache freq (some (sel_vco, csw_value)) }
    else b
  return canDeliverFrequency

def tune (tx : Bool) (freq : Rat) : LmsM Bool := do
  let fast ← fastTune freq
  if fast then return true
  else fullTune tx freq

/-- `output` is left out, as no read is made for it. -/
def setFrequencySX (tx : Bool) (freq : Rat) : LmsM Int := do
  match div_loch freq with
  | none => return ERANGE
  | some div =>
    let ch ← getActiveChannel true
    setActiveChannel (space tx)
    writeSX div (2 ^ (div + 1) * freq)
    let delivers ← tune tx freq
    setActiveChannel ch
    return if delivers then 0 else -1

def sxFrequency (refClk : Rat) (gINT low div div2 : UInt16) : Rat :=
  let gFRAC : UInt32 := ((gINT &&& 0xF).toUInt32 * 65536) ||| low.toUInt32
  refClk / 2 ^ (div.toNat + 1) * ((gINT >>> 4).toNat + 4 + gFRAC.toNat / 1048576) *
    (div2.toNat + 1)

def getFrequencySX (tx : Bool) : LmsM Rat := do
  let ch ← getActiveChannel true
  setActiveChannel (space tx)
  let gINT ← getBits ⟨0x011E, 13, 0⟩ false
  let low ← getBits ⟨0x011D, 15, 0⟩ false
  let refClk ← getReferenceClkSX
  let div ← getBits DIV_LOCH false
  let div2 ← getBits EN_DIV2_DIVPROG false
  setActiveChannel ch
  return sxFrequency refClk gINT low div div2

def getSampleRate (tx : Bool) (ch : UInt16) : LmsM Rat := do
  let chBck ← getActiveChannel true
  setActiveChannel ch
  let ratio ← getBits (if tx then HBI_OVR_TXTSP else HBD_OVR_RXTSP) true
  let interface ← getReferenceClkTSP tx
  setActiveChannel chBck
  return (if ratio ≠ 7 then interface / 2 ^ ratio.toNat else interface) / 2

end Soapy.Lime.Session
