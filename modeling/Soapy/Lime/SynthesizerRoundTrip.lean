import Soapy.Lime.ChannelKept
import Soapy.Lime.HeldRegisters
import Soapy.Lime.SynthesizerValues

/-! # The frequency of a synthesizer is read as it was set

The registers with the dividers are written before the tuning, which writes other registers, or
bits that are zero already.
-/

namespace Soapy.Lime.Session

open Lib LMS7002M

variable {K : Set Cell} {v : Cell → UInt16} {refClk freq : Rat} {b : Session}

theorem getReferenceClkSX_keeps : Moves (Keeps K v refClk) getReferenceClkSX := fun _ => id

theorem getReferenceClkSX_run (holds : Holds K v refClk b) : getReferenceClkSX b = (refClk, b) :=
  congrArg (·, b) holds.clock

theorem ncoAddress_toNat (tx : Bool) (index : UInt8) {k : UInt16} (small : k.toNat ≤ 3) :
    (ncoAddress tx + k + index.toUInt16 * 2).toNat =
      (if tx then 0x0240 else 0x0440) + k.toNat + index.toNat * 2 := by
  have bound := index.toNat_lt
  have base : (ncoAddress tx).toNat = if tx then 0x0240 else 0x0440 := by
    cases tx with
    | true => rfl
    | false => rfl
  rw [UInt16.toNat_add, UInt16.toNat_add, UInt16.toNat_mul, UInt8.toNat_toUInt16, base,
    show (2 : UInt16).toNat = 2 from rfl]
  split <;> omega

/-- The registers with the dividers, which exist in one bank. -/
def cgenCells : List Cell := [(.a, 0x0087), (.a, 0x0088), (.a, 0x0089)]

theorem cgen_low {c : Cell} (member : c ∈ cgenCells) : c.1 = .a ∧ c.2 < 0x0100 := by
  have all : ∀ c ∈ cgenCells, c.1 = .a ∧ c.2 < 0x0100 := by decide
  exact all c member

theorem cgen_meant {c : Cell} (member : c ∈ listed cgenCells) : Meant K v c := .inl (cgen_low member)

theorem nco_outside (tx : Bool) (index : UInt8) {k : UInt16} (small : k.toNat ≤ 3) :
    Outside (listed cgenCells) (ncoAddress tx + k + index.toUInt16 * 2) := by
  have value := ncoAddress_toNat tx index small
  have bound := index.toNat_lt
  constructor
  · intro c member same
    have low : ∀ c ∈ cgenCells, c.2.toNat < 0x0100 := by decide
    have here := low c member
    rw [same, value] at here
    split at here <;> omega
  · rw [UInt16.lt_iff_toNat_lt, value]
    split <;> change _ < 32768 <;> omega

variable {address : UInt16}

theorem cgenOther (apart : cgenCells.all (fun c => c.2 != address) = true)
    (small : address < 0x8000) : Outside (listed cgenCells) address :=
  outside_listed apart small

theorem getReferenceClkTSP_keepsCGEN (tx : Bool) :
    Moves (Keeps (listed cgenCells) v refClk) (getReferenceClkTSP tx) := by
  refine getReferenceClkTSP_moves getReferenceClkSX_keeps (fun address member => ?_) tx
  have known (c : Cell) (inside : c ∈ listed cgenCells) :
      Moves (Keeps (listed cgenCells) v refClk) (spiRead c.2 true) :=
    fun _ holds => (holds.spiRead inside (cgen_meant inside) true).2
  simp only [List.mem_cons, List.not_mem_nil, or_false] at member
  obtain rfl | rfl | rfl | rfl := member
  · exact spiRead_keeps (cgenOther rfl (by decide)) true
  · exact known (.a, 0x0087) (by decide)
  · exact known (.a, 0x0088) (by decide)
  · exact known (.a, 0x0089) (by decide)

theorem allNCOs_keepsCGEN : Moves (Keeps (listed cgenCells) v refClk) allNCOs := by
  have mode {p : Parameter} (apart : cgenCells.all (fun c => c.2 != p.address) = true)
      (small : p.address < 0x8000) : Moves (Keeps (listed cgenCells) v refClk) (getBits p true) :=
    getBits_keeps (cgenOther apart small) true
  have select (ch : UInt16) : Moves (Keeps (listed cgenCells) v refClk) (setActiveChannel ch) :=
    setActiveChannel_keeps (cgenOther rfl (by decide)) ch
  have get (tx modeNCO : Bool) : Moves (Keeps (listed cgenCells) v refClk) (getNCOs tx modeNCO) :=
    getNCOs_moves (getReferenceClkTSP_keepsCGEN tx) modeNCO fun index k small =>
      spiRead_keeps (nco_outside tx index small) false
  exact (mode rfl (by decide)).bind fun _ => (mode rfl (by decide)).bind fun _ =>
    (select _).bind fun _ => (get _ _).bind fun _ => (get _ _).bind fun _ =>
      (select _).bind fun _ => (get _ _).bind fun _ => (get _ _).bind fun _ => .pure _

theorem setAllNCOs_keepsCGEN (nco : NCODetails) :
    Moves (Keeps (listed cgenCells) v refClk) (setAllNCOs nco) := by
  have select (ch : UInt16) : Moves (Keeps (listed cgenCells) v refClk) (setActiveChannel ch) :=
    setActiveChannel_keeps (cgenOther rfl (by decide)) ch
  have set (tx modeNCO : Bool) (freqs : List Rat) :
      Moves (Keeps (listed cgenCells) v refClk) (setNCOs tx modeNCO freqs) :=
    setNCOs_moves (getReferenceClkTSP_keepsCGEN tx) modeNCO freqs fun index k small =>
      spiWrite_keeps (nco_outside tx index small)
  exact (select _).bind fun _ => (set _ _ _).bind fun _ => (set _ _ _).bind fun _ =>
    (select _).bind fun _ => (set _ _ _).bind fun _ => set _ _ _

variable (output : Bool)

theorem finishCGEN_keeps :
    Moves (Keeps (listed cgenCells) v refClk) (finishCGEN output) :=
  finishCGEN_moves (modifyBits_keeps (cgenOther rfl (by decide)) _)
    (modifyBits_keeps (cgenOther rfl (by decide))) (getBits_keeps (cgenOther rfl (by decide)) _)
    (getBits_keeps (cgenOther rfl (by decide)) _) output

/-- The values of the registers once they are written. -/
def writtenCGEN (v : Cell → UInt16) (refClk freq : Rat) : Cell → UInt16 := fun c =>
  if c = (.a, 0x0087) then replaceBits (v c) 15 0 (gFRACCGEN refClk freq &&& 0xFFFF).toUInt16
  else if c = (.a, 0x0088) then
    replaceBits (replaceBits (v c) 13 4 (gINTCGEN refClk freq)) 3 0
      (gFRACCGEN refClk freq >>> 16).toUInt16
  else if c = (.a, 0x0089) then replaceBits (v c) 10 3 (UInt16.ofNat (iHdiv freq))
  else v c

theorem Holds.congr {v' : Cell → UInt16} (holds : Holds K v refClk b) (same : ∀ c ∈ K, v c = v' c) :
    Holds K v' refClk b where
  clock := holds.clock
  stores := holds.stores
  small := holds.small
  knows := ⟨fun c member => (holds.knows.chip c member).trans (same c member),
    fun cached c member => (holds.knows.map cached c member).trans (same c member)⟩

def modifying (v : Cell → UInt16) (c : Cell) (msb lsb : UInt8) (value : UInt16) : Cell → UInt16 :=
  Function.update v c (replaceBits (v c) msb lsb value)

theorem writtenCGEN_eq (c : Cell) :
    modifying (modifying (modifying (modifying v
      (.a, 0x0088) 13 4 (gINTCGEN refClk freq))
      (.a, 0x0087) 15 0 (gFRACCGEN refClk freq &&& 0xFFFF).toUInt16)
      (.a, 0x0088) 3 0 (gFRACCGEN refClk freq >>> 16).toUInt16)
      (.a, 0x0089) 10 3 (UInt16.ofNat (iHdiv freq)) c = writtenCGEN v refClk freq c := by
  simp only [modifying, Function.update_apply, writtenCGEN]
  grind

theorem writeCGEN_holds (holds : Holds K v refClk b) (inside : ∀ c ∈ cgenCells, c ∈ K)
    (freq : Rat) : Holds K (writtenCGEN v refClk freq) refClk (writeCGEN freq b).2 := by
  have modified {v : Cell → UInt16} {b : Session} (holds : Holds K v refClk b) (address : UInt16)
      (member : ((.a, address) : Cell) ∈ cgenCells) (msb lsb : UInt8) (value : UInt16) :
      Holds K (modifying v (.a, address) msb lsb value) refClk
        (modifyBits ⟨address, msb, lsb⟩ value b).2 :=
    holds.modifyBits (inside _ member) (.inl (cgen_low member)) msb lsb value
  have first := modified holds 0x0088 (by decide) 13 4 (gINTCGEN refClk freq)
  have second := modified first 0x0087 (by decide) 15 0
    (gFRACCGEN refClk freq &&& 0xFFFF).toUInt16
  have third := modified second 0x0088 (by decide) 3 0 (gFRACCGEN refClk freq >>> 16).toUInt16
  have fourth := modified third 0x0089 (by decide) 10 3 (UInt16.ofNat (iHdiv freq))
  have written := fourth.congr fun c _ => writtenCGEN_eq c
  simp only [writeCGEN, bind_run, pure_run, getReferenceClkSX_run holds]
  exact written

theorem getFrequencyCGEN_value (holds : Holds (listed cgenCells) v refClk b) :
    (getFrequencyCGEN b).1 = cgenFrequency refClk (bitsOf (v (.a, 0x0089)) 10 3)
      (bitsOf (v (.a, 0x0088)) 13 0) (bitsOf (v (.a, 0x0087)) 15 0) := by
  obtain ⟨div, first⟩ :=
    holds.getBits (c := (.a, 0x0089)) (by decide) (cgen_meant (by decide)) 10 3 true
  obtain ⟨gINT, second⟩ :=
    first.getBits (c := (.a, 0x0088)) (by decide) (cgen_meant (by decide)) 13 0 true
  obtain ⟨low, _⟩ :=
    second.getBits (c := (.a, 0x0087)) (by decide) (cgen_meant (by decide)) 15 0 true
  rw [getFrequencyCGEN, bind_run, getReferenceClkSX_run holds, ← div, ← gINT, ← low]
  rfl

theorem divider_value (holds : Holds (listed cgenCells) v refClk b) :
    (getBits DIV_OUTCH_CGEN true b).1 = bitsOf (v (.a, 0x0089)) 10 3 :=
  (holds.getBits (c := (.a, 0x0089)) (by decide) (cgen_meant (by decide)) 10 3 true).1

theorem finishCGEN_status (b : Session) : (finishCGEN output b).1 ≠ ERANGE := by
  change (if (tuneVCO .VCO_CGEN b).1 ≠ 0 then -1 else 0 : Int) ≠ ERANGE
  split
  · decide
  · decide

theorem setFrequencyCGEN_refuses (retain output : Bool) (b : Session) :
    (setFrequencyCGEN freq retain output b).1 = ERANGE ↔ OutOfRangeCGEN freq := by
  unfold setFrequencyCGEN
  by_cases refused : OutOfRangeCGEN freq
  · simp only [if_pos refused]
    exact ⟨fun _ => refused, fun _ => rfl⟩
  · simp only [if_neg refused]
    exact ⟨fun range => absurd range (finishCGEN_status output _), fun out => absurd out refused⟩

theorem setFrequencyCGEN_holds (holds : Holds (listed cgenCells) v refClk b)
    (inRange : ¬ OutOfRangeCGEN freq) (retain output : Bool) :
    Holds (listed cgenCells) (writtenCGEN v refClk freq) refClk
      (setFrequencyCGEN freq retain output b).2 := by
  have other : Outside (listed cgenCells) macAddress := cgenOther rfl (by decide)
  have asked := getBits_keeps (p := MAC) other true b holds
  have remembered : Moves (Keeps (listed cgenCells) v refClk) (rememberNCOs retain) :=
    .ite allNCOs_keepsCGEN (.pure _)
  have written := writeCGEN_holds (remembered _ asked) (fun _ => id) freq
  have recalculated (nco : NCODetails) :
      Moves (Keeps (listed cgenCells) (writtenCGEN v refClk freq) refClk)
        (recalculateNCOs retain nco) :=
    .ite (setAllNCOs_keepsCGEN nco) (.pure _)
  unfold setFrequencyCGEN
  simp only [if_neg inRange]
  exact finishCGEN_keeps output _ (setActiveChannel_keeps other _ _ (recalculated _ _ written))

def sxBank (tx : Bool) : Bank := if tx then .b else .a

/-- The register with the prescaler and the registers with the dividers. -/
def sxAddresses : List UInt16 := [0x011C, 0x011D, 0x011E, 0x011F]

theorem sxAddresses_plain (member : address ∈ sxAddresses) :
    Lime.Plain address ∧ ¬ address < 0x0100 ∧ address ≠ macAddress := by
  have all : sxAddresses.all (fun a =>
      decide (Lime.Plain a ∧ ¬ a < 0x0100 ∧ a ≠ macAddress)) = true := by decide
  exact of_decide_eq_true (List.all_eq_true.mp all address member)

def sxCells (tx : Bool) : List Cell := macCell :: sxAddresses.map (sxBank tx, ·)

section SX

variable {tx : Bool}

theorem mac_listed : macCell ∈ listed (sxCells tx) := List.mem_cons_self

theorem sx_listed (member : address ∈ sxAddresses) :
    (sxBank tx, address) ∈ listed (sxCells tx) :=
  List.mem_cons_of_mem macCell (List.mem_map_of_mem (f := fun a => (sxBank tx, a)) member)

theorem sx_meant (selected : v macCell &&& 0x0003 = space tx)
    (high : ¬ address < 0x0100) : Meant (listed (sxCells tx)) v (sxBank tx, address) := by
  refine .inr ⟨mac_listed, ?_⟩
  cases tx with
  | false => exact .inl ⟨rfl, selected⟩
  | true => exact .inr ⟨rfl, high, selected⟩

theorem sxOther
    (apart : address ∉ macAddress :: sxAddresses)
    (small : address < 0x8000) : Outside (listed (sxCells tx)) address := by
  refine ⟨fun c member same => apart ?_, small⟩
  subst same
  exact List.mem_map_of_mem (f := Prod.snd) member

theorem space_small (tx : Bool) : (space tx).toNat < 4 := by
  cases tx with
  | false => decide
  | true => decide

/-- The values of the registers once they are written. -/
def writtenSX (v : Cell → UInt16) (tx : Bool) (div : Nat) (refClk vcoFreq : Rat) : Cell → UInt16 :=
  fun c =>
    if c = (sxBank tx, 0x011C) then prescaled (v c) (if m_dThrF < vcoFreq then 1 else 0)
    else if c = (sxBank tx, 0x011D) then
      replaceBits (v c) 15 0 (fractionalPart refClk vcoFreq &&& 0xFFFF).toUInt16
    else if c = (sxBank tx, 0x011E) then
      replaceBits (replaceBits (v c) 13 4 (integerPart refClk vcoFreq)) 3 0
        (fractionalPart refClk vcoFreq >>> 16).toUInt16
    else if c = (sxBank tx, 0x011F) then replaceBits (v c) 8 6 (UInt16.ofNat div)
    else v c

theorem writtenSX_mac (div : Nat) (vcoFreq : Rat) :
    writtenSX v tx div refClk vcoFreq macCell = v macCell := by
  cases tx with
  | false => rfl
  | true => rfl

theorem modifySX_holds (address : UInt16) (holds : Holds (listed (sxCells tx)) v refClk b)
    (selected : v macCell &&& 0x0003 = space tx) (member : address ∈ sxAddresses) (msb lsb : UInt8)
    (value : UInt16) :
    Holds (listed (sxCells tx)) (modifying v (sxBank tx, address) msb lsb value) refClk
        (modifyBits ⟨address, msb, lsb⟩ value b).2 ∧
      modifying v (sxBank tx, address) msb lsb value macCell &&& 0x0003 = space tx := by
  obtain ⟨_, above, other⟩ := sxAddresses_plain member
  have apart : macCell ≠ (sxBank tx, address) := fun same => other (congrArg Prod.snd same).symm
  refine ⟨holds.modifyBits (sx_listed member) (sx_meant selected above) msb lsb value, ?_⟩
  rwa [modifying, Function.update_of_ne apart]

section

variable (div : Nat) (vcoFreq : Rat)

theorem writtenSX_fraction : writtenSX v tx div refClk vcoFreq (sxBank tx, 0x011D) =
    replaceBits (v (sxBank tx, 0x011D)) 15 0
      (fractionalPart refClk vcoFreq &&& 0xFFFF).toUInt16 := by
  cases tx with
  | false => rfl
  | true => rfl

theorem writtenSX_integer : writtenSX v tx div refClk vcoFreq (sxBank tx, 0x011E) =
    replaceBits (replaceBits (v (sxBank tx, 0x011E)) 13 4 (integerPart refClk vcoFreq)) 3 0
      (fractionalPart refClk vcoFreq >>> 16).toUInt16 := by
  cases tx with
  | false => rfl
  | true => rfl

theorem writtenSX_divider : writtenSX v tx div refClk vcoFreq (sxBank tx, 0x011F) =
    replaceBits (v (sxBank tx, 0x011F)) 8 6 (UInt16.ofNat div) := by
  cases tx with
  | false => rfl
  | true => rfl

end

theorem writtenSX_eq (c : Cell) (div : Nat) (vcoFreq : Rat) :
    modifying (modifying (modifying (modifying (modifying (modifying (modifying (modifying v
      (sxBank tx, 0x011C) 9 9 0)
      (sxBank tx, 0x011E) 13 4 (integerPart refClk vcoFreq))
      (sxBank tx, 0x011D) 15 0 (fractionalPart refClk vcoFreq &&& 0xFFFF).toUInt16)
      (sxBank tx, 0x011E) 3 0 (fractionalPart refClk vcoFreq >>> 16).toUInt16)
      (sxBank tx, 0x011F) 8 6 (UInt16.ofNat div))
      (sxBank tx, 0x011C) 10 10 (if m_dThrF < vcoFreq then 1 else 0))
      (sxBank tx, 0x011C) 1 1 0)
      (sxBank tx, 0x011C) 2 2 0 c = writtenSX v tx div refClk vcoFreq c := by
  obtain ⟨bank, address⟩ := c
  by_cases own : bank = sxBank tx
  · subst own
    simp only [modifying, Function.update_apply, writtenSX, Prod.mk.injEq, true_and]
    grind [prescaled]
  · simp [modifying, writtenSX, own]

theorem writeSX_holds (holds : Holds (listed (sxCells tx)) v refClk b)
    (selected : v macCell &&& 0x0003 = space tx) (div : Nat) (vcoFreq : Rat) :
    Holds (listed (sxCells tx)) (writtenSX v tx div refClk vcoFreq) refClk
      (writeSX div vcoFreq b).2 := by
  have first := modifySX_holds 0x011C holds selected (by decide) 9 9 0
  have second := modifySX_holds 0x011E first.1 first.2 (by decide) 13 4
    (integerPart refClk vcoFreq)
  have third := modifySX_holds 0x011D second.1 second.2 (by decide) 15 0
    (fractionalPart refClk vcoFreq &&& 0xFFFF).toUInt16
  have fourth := modifySX_holds 0x011E third.1 third.2 (by decide) 3 0
    (fractionalPart refClk vcoFreq >>> 16).toUInt16
  have fifth := modifySX_holds 0x011F fourth.1 fourth.2 (by decide) 8 6
    (UInt16.ofNat div)
  have sixth := modifySX_holds 0x011C fifth.1 fifth.2 (by decide) 10 10
    (if m_dThrF < vcoFreq then 1 else 0)
  have seventh := modifySX_holds 0x011C sixth.1 sixth.2 (by decide) 1 1 0
  have eighth := modifySX_holds 0x011C seventh.1 seventh.2 (by decide) 2 2 0
  have written := eighth.1.congr fun c _ => writtenSX_eq c div vcoFreq
  simp only [writeSX, bind_run, pure_run, getReferenceClkSX_run holds]
  exact written

theorem sxOther_modify {p : Parameter} (apart : p.address ∉ macAddress :: sxAddresses)
    (small : p.address < 0x8000) (value : UInt16) :
    Moves (Keeps (listed (sxCells tx)) v refClk) (modifyBits p value) :=
  modifyBits_keeps (sxOther apart small) value

theorem sxOther_get {p : Parameter} (apart : p.address ∉ macAddress :: sxAddresses)
    (small : p.address < 0x8000) (fromChip : Bool) :
    Moves (Keeps (listed (sxCells tx)) v refClk) (getBits p fromChip) :=
  getBits_keeps (sxOther apart small) fromChip

structure Tunable (tx : Bool) (v : Cell → UInt16) : Prop where
  selected : v macCell &&& 0x0003 = space tx
  powered : replaceBits (v (sxBank tx, 0x011C)) 2 1 0 = v (sxBank tx, 0x011C)

theorem powerUp_keeps (tunable : Tunable tx v) :
    Moves (Keeps (listed (sxCells tx)) v refClk) powerUp := by
  have meant := sx_meant tunable.selected (show ¬ (0x011C : UInt16) < 0x0100 by decide)
  refine powerUp_moves (sxOther_get (by decide) (by decide) false) ?_
    (getBits_keeps_known (sx_listed (by decide)) meant 2 1 false)
  intro b holds
  have after := holds.modifyBits (sx_listed (by decide)) meant 2 1 0
  rwa [tunable.powered, Function.update_eq_self] at after

theorem tuneSX_keeps (tunable : Tunable tx v) :
    Moves (Keeps (listed (sxCells tx)) v refClk) (tuneSX (space tx)) := by
  intro b holds
  obtain ⟨active, asked⟩ := holds.getActiveChannel mac_listed true
  have select : Moves (Keeps (listed (sxCells tx)) v refClk) (setActiveChannel (space tx)) :=
    setActiveChannel_same mac_listed tunable.selected
  have rest : Moves (Keeps (listed (sxCells tx)) v refClk) (tuneInRange (space tx)) :=
    tuneInRange_moves (sxOther_modify (by decide) (by decide))
      (sxOther_get (by decide) (by decide) true) select
  rw [tunable.selected] at active
  rw [tuneSX, bind_run, active]
  refine select.bind (fun _ => (powerUp_keeps tunable).bind fun failed => ?_) _ asked
  cases failed with
  | none => exact rest
  | some status => exact .pure status

theorem tuneVCO_keeps (tunable : Tunable tx v) : Moves (Keeps (listed (sxCells tx)) v refClk)
    (tuneVCO (if tx then .VCO_SXT else .VCO_SXR)) := by
  cases tx with
  | false => exact tuneSX_keeps tunable
  | true => exact tuneSX_keeps tunable

theorem tune_keeps (tunable : Tunable tx v) (freq : Rat) :
    Moves (Keeps (listed (sxCells tx)) v refClk) (tune tx freq) := by
  have select : ∀ value, Moves (Keeps (listed (sxCells tx)) v refClk) (modifyBits SEL_VCO value) :=
    sxOther_modify (by decide) (by decide)
  have csw : ∀ value, Moves (Keeps (listed (sxCells tx)) v refClk) (modifyBits CSW_VCO value) :=
    sxOther_modify (by decide) (by decide)
  have fast := fastTune_moves freq select csw (sxOther_get (by decide) (by decide) true)
  refine fast.bind fun _ => .ite (.pure _) (fullTune_moves select csw ?_ freq fun tuneScore => ?_)
  · intro f same b holds
    obtain ⟨lms, answers, clock⟩ := same b
    have stores : (f b).StoresAt (listed (sxCells tx)) := fun n => answers ▸ holds.stores n
    exact ⟨clock.trans holds.clock, stores, holds.small, lms ▸ holds.knows⟩
  · exact attempts_moves 5 tuneScore select (tuneVCO_keeps tunable)
      (sxOther_get (by decide) (by decide) true) (sxOther_get (by decide) (by decide) false)
      (sxOther_modify (by decide) (by decide))

theorem Holds.selectSX (holds : Holds (listed (sxCells tx)) v refClk b) (ch : UInt16) :
    Holds (listed (sxCells tx)) (selecting v ch) refClk
      (Session.setActiveChannel ch b).2 :=
  holds.setActiveChannel mac_listed ch

theorem writtenSX_tunable (selected : v macCell &&& 0x0003 = space tx) (div : Nat) (vcoFreq : Rat) :
    Tunable tx (writtenSX v tx div refClk vcoFreq) where
  selected := by rwa [writtenSX_mac]
  powered := by
    rw [writtenSX, if_pos rfl]
    exact prescaled_powered _ _

theorem setFrequencySX_holds (holds : Holds (listed (sxCells tx)) v refClk b) {div : Nat}
    (found : div_loch freq = some div) :
    ∃ v', (∀ address ≠ macAddress, v' (sxBank tx, address) =
        writtenSX v tx div refClk (2 ^ (div + 1) * freq) (sxBank tx, address)) ∧
      Holds (listed (sxCells tx)) v' refClk (setFrequencySX tx freq b).2 := by
  obtain ⟨_, asked⟩ := holds.getActiveChannel mac_listed true
  have mac := selecting_mac (space_small tx) v
  have written := writeSX_holds (asked.selectSX (space tx)) mac div (2 ^ (div + 1) * freq)
  have tuned := tune_keeps (writtenSX_tunable mac div (2 ^ (div + 1) * freq)) freq _ written
  have back := tuned.selectSX (getActiveChannel true b).1
  have run : (setFrequencySX tx freq b).2 = (setActiveChannel (getActiveChannel true b).1
      (tune tx freq (writeSX div (2 ^ (div + 1) * freq) (setActiveChannel (space tx)
        (getActiveChannel true b).2).2).2).2).2 := by
    simp only [setFrequencySX, found, bind_run, pure_run]
  rw [run]
  refine ⟨_, fun address other => ?_, back⟩
  rw [selecting_other other]
  simp only [writtenSX, selecting_other other]

theorem getFrequencySX_value (holds : Holds (listed (sxCells tx)) v refClk b) :
    (getFrequencySX tx b).1 = sxFrequency refClk (bitsOf (v (sxBank tx, 0x011E)) 13 0)
      (bitsOf (v (sxBank tx, 0x011D)) 15 0) (bitsOf (v (sxBank tx, 0x011F)) 8 6)
      (bitsOf (v (sxBank tx, 0x011C)) 10 10) := by
  obtain ⟨_, asked⟩ := holds.getActiveChannel mac_listed true
  have mac := selecting_mac (space_small tx) v
  have chosen := asked.selectSX (space tx)
  have meant {address : UInt16} (high : ¬ address < 0x0100) := sx_meant mac high
  obtain ⟨gINT, first⟩ := chosen.getBits (sx_listed (by decide)) (meant (by decide)) 13 0 false
    (c := (sxBank tx, 0x011E))
  obtain ⟨low, second⟩ := first.getBits (sx_listed (by decide)) (meant (by decide)) 15 0 false
    (c := (sxBank tx, 0x011D))
  obtain ⟨div, third⟩ := second.getBits (sx_listed (by decide)) (meant (by decide)) 8 6 false
    (c := (sxBank tx, 0x011F))
  obtain ⟨div2, _⟩ := third.getBits (sx_listed (by decide)) (meant (by decide)) 10 10 false
    (c := (sxBank tx, 0x011C))
  rw [selecting_other (by decide)] at gINT low div div2
  rw [← gINT, ← low, ← div, ← div2]
  simp only [getFrequencySX, bind_run, getReferenceClkSX_run second]
  rfl

end SX

/-- Registers keep what is written to them, and so does the map while it is used. -/
structure StoresWritten (b : Session) : Prop where
  stores : b.Stores
  coherent : b.lms.useCache = true → b.lms.Coherent

theorem StoresWritten.holds (faithful : StoresWritten b) (plain : ∀ c ∈ K, Cell.Plain c) :
    Holds K b.lms.chip.cell b._cachedRefClockRate b where
  clock := rfl
  stores := faithful.stores.at fun c member => (plain c member).1.2.1
  small c member := (plain c member).1.1
  knows := ⟨fun _ _ => rfl, fun cached c member =>
    faithful.coherent cached c (plain c member) (Set.notMem_empty c)⟩

theorem cgen_plain : ∀ c ∈ listed cgenCells, Cell.Plain c := by
  have all : ∀ c ∈ cgenCells, c.1 = .a ∧ Lime.Plain c.2 := by decide
  intro c member
  obtain ⟨bank, plain⟩ := all c member
  exact ⟨plain, fun other => by rw [bank] at other; cases other⟩

theorem sx_plain (tx : Bool) : ∀ c ∈ listed (sxCells tx), Cell.Plain c := by
  intro c member
  cases (show c ∈ sxCells tx from member) with
  | head => exact ⟨plain_mac, fun other => by cases other⟩
  | tail _ member =>
    obtain ⟨a, inside, same⟩ :=
      List.mem_map.mp (show c ∈ sxAddresses.map (sxBank tx, ·) from member)
    subst same
    obtain ⟨plain, high, _⟩ := sxAddresses_plain inside
    exact ⟨plain, fun _ => high⟩

theorem setFrequencySX_refuses (tx : Bool) (freq : Rat) (b : Session) :
    (setFrequencySX tx freq b).1 = ERANGE ↔ div_loch freq = none := by
  cases found : div_loch freq with
  | none => simp only [setFrequencySX, found, pure_run]
  | some div =>
    have status : (setFrequencySX tx freq b).1 = 0 ∨ (setFrequencySX tx freq b).1 = -1 := by
      simp only [setFrequencySX, found, bind_run, pure_run]
      split
      · exact .inl rfl
      · exact .inr rfl
    constructor
    · intro range
      cases status with
      | inl done => exact absurd (done.symm.trans range) (by decide)
      | inr failed => exact absurd (failed.symm.trans range) (by decide)
    · intro none
      cases none

/-- What `SetFrequencyCGEN` programs is what `GetFrequencyCGEN` reads, less than one unit of the
fraction below, and is refused exactly when no divider fits. -/
def ReadsBackCGEN (freq : Rat) (retain output : Bool) (b : Session) : Prop :=
  let r := b._cachedRefClockRate
  let set := setFrequencyCGEN freq retain output b
  let g := (getFrequencyCGEN set.2).1
  (set.1 = ERANGE ↔ ¬ ∃ d ≤ 255, DividesCGEN freq d) ∧
    ((∃ d ≤ 255, DividesCGEN freq d) → 1 ≤ dFvcoCGEN freq / r → dFvcoCGEN freq / r < 1025 →
      ∃ d ≤ 255, DividesCGEN freq d ∧ (getBits DIV_OUTCH_CGEN true set.2).1.toNat = d ∧
        0 ≤ freq - g ∧ freq - g < r / (2 ^ 21 * (d + 1)))

theorem readsBackCGEN (faithful : StoresWritten b) (positive : 0 < freq)
    (clock : 0 < b._cachedRefClockRate) (retain output : Bool) :
    ReadsBackCGEN freq retain output b := by
  have range := outOfRangeCGEN_iff positive
  refine ⟨(setFrequencyCGEN_refuses retain output b).trans range, fun found low high => ?_⟩
  have inRange : ¬ OutOfRangeCGEN freq := fun refused => range.mp refused found
  obtain ⟨d, small, divides⟩ := found
  have after := setFrequencyCGEN_holds (faithful.holds cgen_plain) inRange retain output
  have written := cgenFrequency_written clock low high (b.lms.chip.cell (.a, 0x0088))
    (b.lms.chip.cell (.a, 0x0087)) (b.lms.chip.cell (.a, 0x0089))
  rw [getFrequencyCGEN_value after, divider_value after]
  exact ⟨iHdiv freq, iHdiv_le freq, iHdiv_divides positive small divides, written⟩

def ReadsBackSX (freq : Rat) (tx : Bool) (b : Session) : Prop :=
  let r := b._cachedRefClockRate
  let set := setFrequencySX tx freq b
  let register := fun address => set.2.lms.chip.cell (sxBank tx, address)
  let div2 := bitsOf (register EN_DIV2_DIVPROG.address) 10 10
  let g := (getFrequencySX tx set.2).1
  (set.1 = ERANGE ↔ ¬ ∃ k ≤ 6, DividesSX freq k) ∧
    ((∃ k ≤ 6, DividesSX freq k) → ∃ k ≤ 6, div_loch freq = some k ∧ DividesSX freq k ∧
      (4 ≤ dividerSX r (2 ^ (k + 1) * freq) → dividerSX r (2 ^ (k + 1) * freq) < 1028 →
        (bitsOf (register DIV_LOCH.address) 8 6).toNat = k ∧
          (div2 = if 5500000000 < 2 ^ (k + 1) * freq then 1 else 0) ∧
          0 ≤ freq - g ∧ freq - g < (1 + div2.toNat) * r / 2 ^ (k + 21)))

theorem readsBackSX (faithful : StoresWritten b) (clock : 0 < b._cachedRefClockRate) (tx : Bool)
    (freq : Rat) : ReadsBackSX freq tx b := by
  refine ⟨(setFrequencySX_refuses tx freq b).trans div_loch_none, fun some => ?_⟩
  obtain ⟨k, found⟩ := Option.ne_none_iff_exists'.mp fun none => div_loch_none.mp none some
  obtain ⟨small, divides⟩ := div_loch_some found
  refine ⟨k, small, found, divides, fun low high => ?_⟩
  obtain ⟨v, values, after⟩ := setFrequencySX_holds (faithful.holds (sx_plain tx)) found
  have first := (values 0x011C (by decide)).trans (if_pos rfl)
  have second := (values 0x011D (by decide)).trans (writtenSX_fraction k _)
  have third := (values 0x011E (by decide)).trans (writtenSX_integer k _)
  have fourth := (values 0x011F (by decide)).trans (writtenSX_divider k _)
  have prescaler := (after.knows.chip (sxBank tx, 0x011C) (sx_listed (by decide))).trans first
  have divider := (after.knows.chip (sxBank tx, 0x011F) (sx_listed (by decide))).trans fourth
  simp only [EN_DIV2_DIVPROG, DIV_LOCH, prescaler, divider]
  rw [getFrequencySX_value after, first, second, third, fourth]
  exact sxFrequency_written clock small low high _ _ _ _

/-- Whatever frequency is set. -/
theorem frequencies_read_back (b : Session) (faithful : StoresWritten b)
    (clock : 0 < b._cachedRefClockRate) (freq : Rat) (positive : 0 < freq) :
    (∀ retain output, ReadsBackCGEN freq retain output b) ∧ ∀ tx, ReadsBackSX freq tx b :=
  ⟨readsBackCGEN faithful positive clock, fun tx => readsBackSX faithful clock tx freq⟩

theorem frequencies_read_back_100MHz :
    (∀ retain output, ReadsBackCGEN 100000000 retain output sessionA) ∧
      ∀ tx, ReadsBackSX 100000000 tx sessionA :=
  frequencies_read_back sessionA ⟨fun _ _ => ⟨rfl, fun _ _ => rfl⟩, fun cached => by cases cached⟩
    (by decide) 100000000 (by decide)

end Soapy.Lime.Session
