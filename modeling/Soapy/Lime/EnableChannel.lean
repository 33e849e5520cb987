import Soapy.Lime.Session

/-! # Switching a channel on and off

One routine sets the power of everything a channel needs. The bits of the digital interface are in
the register that also chooses the channel.
-/

namespace Soapy.Lime.Session

open Lib

def TXEN_A : Parameter := ⟨0x0020, 2, 2⟩
def RXEN_A : Parameter := ⟨0x0020, 4, 4⟩
def TXEN_B : Parameter := ⟨0x0020, 3, 3⟩
def RXEN_B : Parameter := ⟨0x0020, 5, 5⟩
def EN_DIR_AFE : Parameter := ⟨0x0081, 0, 0⟩
def PD_TX_AFE1 : Parameter := ⟨0x0082, 2, 2⟩
def PD_RX_AFE1 : Parameter := ⟨0x0082, 4, 4⟩
def PD_TX_AFE2 : Parameter := ⟨0x0082, 1, 1⟩
def PD_RX_AFE2 : Parameter := ⟨0x0082, 3, 3⟩
def PD_AFE : Parameter := ⟨0x0082, 5, 5⟩
def EN_G_AFE : Parameter := ⟨0x0082, 0, 0⟩
def EN_TXTSP : Parameter := ⟨0x0200, 0, 0⟩
def ISINC_BYP_TXTSP : Parameter := ⟨0x0208, 7, 7⟩
def GFIR3_BYP_TXTSP : Parameter := ⟨0x0208, 6, 6⟩
def GFIR2_BYP_TXTSP : Parameter := ⟨0x0208, 5, 5⟩
def GFIR1_BYP_TXTSP : Parameter := ⟨0x0208, 4, 4⟩
def CMIX_BYP_TXTSP : Parameter := ⟨0x0208, 8, 8⟩
def DC_BYP_TXTSP : Parameter := ⟨0x0208, 3, 3⟩
def GC_BYP_TXTSP : Parameter := ⟨0x0208, 1, 1⟩
def PH_BYP_TXTSP : Parameter := ⟨0x0208, 0, 0⟩
def EN_RXTSP : Parameter := ⟨0x0400, 0, 0⟩
def DC_BYP_RXTSP : Parameter := ⟨0x040C, 2, 2⟩
def DCLOOP_STOP : Parameter := ⟨0x040C, 8, 8⟩
def AGC_MODE_RXTSP : Parameter := ⟨0x040A, 13, 12⟩
def AGC_BYP_RXTSP : Parameter := ⟨0x040C, 6, 6⟩
def GFIR3_BYP_RXTSP : Parameter := ⟨0x040C, 5, 5⟩
def GFIR2_BYP_RXTSP : Parameter := ⟨0x040C, 4, 4⟩
def GFIR1_BYP_RXTSP : Parameter := ⟨0x040C, 3, 3⟩
def CMIX_BYP_RXTSP : Parameter := ⟨0x040C, 7, 7⟩
def GC_BYP_RXTSP : Parameter := ⟨0x040C, 1, 1⟩
def PH_BYP_RXTSP : Parameter := ⟨0x040C, 0, 0⟩
def EN_DIR_TBB : Parameter := ⟨0x0124, 1, 1⟩
def EN_G_TBB : Parameter := ⟨0x0105, 0, 0⟩
def PD_LPFIAMP_TBB : Parameter := ⟨0x0105, 3, 3⟩
def EN_DIR_RBB : Parameter := ⟨0x0124, 3, 3⟩
def EN_G_RBB : Parameter := ⟨0x0115, 0, 0⟩
def PD_PGA_RBB : Parameter := ⟨0x0115, 1, 1⟩
def PD_LPFL_RBB : Parameter := ⟨0x0115, 2, 2⟩
def EN_DIR_TRF : Parameter := ⟨0x0124, 0, 0⟩
def EN_G_TRF : Parameter := ⟨0x0100, 0, 0⟩
def PD_TLOBUF_TRF : Parameter := ⟨0x0100, 2, 2⟩
def PD_TXPAD_TRF : Parameter := ⟨0x0100, 1, 1⟩
def EN_NEXTTX_TRF : Parameter := ⟨0x0100, 14, 14⟩
def EN_DIR_RFE : Parameter := ⟨0x0124, 2, 2⟩
def EN_G_RFE : Parameter := ⟨0x010C, 0, 0⟩
def PD_MXLOBUF_RFE : Parameter := ⟨0x010C, 4, 4⟩
def PD_QGEN_RFE : Parameter := ⟨0x010C, 3, 3⟩
def PD_TIA_RFE : Parameter := ⟨0x010C, 1, 1⟩
def PD_LNA_RFE : Parameter := ⟨0x010C, 7, 7⟩
def EN_NEXTRX_RFE : Parameter := ⟨0x010D, 0, 0⟩
def EN_DIR_SXRSXT : Parameter := ⟨0x0124, 4, 4⟩
def EN_G : Parameter := ⟨0x011C, 0, 0⟩

def modifyAll (values : List (Parameter × UInt16)) : LmsM Unit :=
  values.forM fun (p, value) => do
    let _ ← modifyBits p value

def bit (b : Bool) : UInt16 := if b then 1 else 0

def powerConverter (ch : UInt16) (isTx enable : Bool) : LmsM Unit := do
  if enable then modifyAll [(if isTx then PD_TX_AFE1 else PD_RX_AFE1, 0)]
  else
    let other ← getBits (if ch = ChA then (if isTx then TXEN_B else RXEN_B)
      else if isTx then TXEN_A else RXEN_A) false
    modifyAll [(if isTx then PD_TX_AFE1 else PD_RX_AFE1, bit (other == 0))]

/-- The interface and the converters: which of them are switched off. -/
def enableConverters (ch : UInt16) (isTx enable : Bool) : LmsM UInt16 := do
  modifyAll [(if ch = ChA then (if isTx then TXEN_A else RXEN_A)
    else if isTx then TXEN_B else RXEN_B, bit enable), (EN_DIR_AFE, 1)]
  powerConverter ch isTx enable
  modifyAll (if ch = ChB then [(if isTx then PD_TX_AFE2 else PD_RX_AFE2, bit !enable)] else [])
  let off ← getBits ⟨PD_AFE.address, 4, 1⟩ false
  let disabledChannels := off &&& 0xF
  modifyAll [(EN_G_AFE, bit (disabledChannels != 0xF)), (PD_AFE, bit (disabledChannels == 0xF))]
  return disabledChannels

def digital (isTx enable : Bool) : List (Parameter × UInt16) :=
  if isTx then
    [(EN_TXTSP, bit enable), (ISINC_BYP_TXTSP, bit !enable), (GFIR3_BYP_TXTSP, 1),
      (GFIR2_BYP_TXTSP, 1), (GFIR1_BYP_TXTSP, 1)] ++
    if enable then []
    else [(CMIX_BYP_TXTSP, 1), (DC_BYP_TXTSP, 1), (GC_BYP_TXTSP, 1), (PH_BYP_TXTSP, 1)]
  else
    [(EN_RXTSP, bit enable), (DC_BYP_RXTSP, bit !enable), (DCLOOP_STOP, bit !enable),
      (AGC_MODE_RXTSP, 2), (AGC_BYP_RXTSP, 1), (GFIR3_BYP_RXTSP, 1), (GFIR2_BYP_RXTSP, 1),
      (GFIR1_BYP_RXTSP, 1)] ++
    if enable then [] else [(CMIX_BYP_RXTSP, 1), (GC_BYP_RXTSP, 1), (PH_BYP_RXTSP, 1)]

def baseband (isTx enable : Bool) : List (Parameter × UInt16) :=
  if isTx then [(EN_DIR_TBB, 1), (EN_G_TBB, bit enable), (PD_LPFIAMP_TBB, bit !enable)]
  else [(EN_DIR_RBB, 1), (EN_G_RBB, bit enable), (PD_PGA_RBB, bit !enable),
    (PD_LPFL_RBB, bit !enable)]

def frontend (isTx enable : Bool) : List (Parameter × UInt16) :=
  if isTx then [(EN_DIR_TRF, 1), (EN_G_TRF, bit enable), (PD_TLOBUF_TRF, bit !enable),
    (PD_TXPAD_TRF, bit !enable)]
  else [(EN_DIR_RFE, 1), (EN_G_RFE, bit enable), (PD_MXLOBUF_RFE, bit !enable),
    (PD_QGEN_RFE, bit !enable), (PD_TIA_RFE, bit !enable), (PD_LNA_RFE, bit !enable)]

def enableSynthesizer (ch : UInt16) (isTx enable : Bool) (disabledChannels : UInt16) :
    LmsM Unit := do
  setActiveChannel (if isTx then ChSXT else ChSXR)
  modifyAll [(EN_DIR_SXRSXT, 1),
    (EN_G, bit (if isTx then disabledChannels &&& 3 != 3 else disabledChannels &&& 0xC != 0xC))]
  if ch = ChB then
    setActiveChannel ChA
    modifyAll [(if isTx then EN_NEXTTX_TRF else EN_NEXTRX_RFE, bit enable)]

def enableChannel (isTx enable : Bool) : LmsM Int := do
  let ch ← getActiveChannel true
  let disabledChannels ← enableConverters ch isTx enable
  modifyAll (digital isTx enable ++ baseband isTx enable ++ frontend isTx enable)
  enableSynthesizer ch isTx enable disabledChannels
  setActiveChannel ch
  return 0

end Soapy.Lime.Session
