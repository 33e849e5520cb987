import Soapy.Lime.BulkWrites
import Soapy.Lime.DoneTransfers
import Soapy.Lime.RegisterBits

/-! # Registers that hold what was written

Some registers of the chip have known values, which the map has as well while it is used as a cache.
A call that means one of these registers reads or changes its value; any other call leaves all of
them alone. The chip changes by itself only the registers that the driver never takes from the cache.
-/

namespace Soapy.Lime

open Lib

variable {K : Set Cell} {v : Cell → UInt16} {c : Cell} {address : UInt16}

/-- An access to its address means this cell alone, as far as the MAC bits are known. -/
def Meant (K : Set Cell) (v : Cell → UInt16) (c : Cell) : Prop :=
  (c.1 = .a ∧ c.2 < 0x0100) ∨ macCell ∈ K ∧
    ((c.1 = .a ∧ v macCell &&& 0x0003 = 1) ∨
      (c.1 = .b ∧ ¬ c.2 < 0x0100 ∧ v macCell &&& 0x0003 = 2))

theorem macCell_meant (K : Set Cell) (v : Cell → UInt16) : Meant K v macCell :=
  .inl ⟨rfl, by decide⟩

theorem Meant.selected_iff {mac : UInt16} (meant : Meant K v c)
    (known : macCell ∈ K → mac = v macCell &&& 0x0003) (d : Cell) :
    d ∈ selected mac c.2 ↔ d = c := by
  obtain ⟨bank, address⟩ := c
  cases meant with
  | inl low =>
    obtain ⟨rfl, low⟩ := low
    rw [selected_low low]
    exact Iff.rfl
  | inr high =>
    have apart : (1 : UInt16) &&& 2 = 0 ∧ (2 : UInt16) &&& 1 = 0 := by decide
    obtain ⟨bank', address'⟩ := d
    cases high.2 with
    | inl channelA =>
      obtain ⟨rfl, mac'⟩ := channelA
      cases bank' with
      | a => simp [selected, selectsA, known high.1, mac']
      | b => simp [selected, selectsB, known high.1, mac', apart.1]
    | inr channelB =>
      obtain ⟨rfl, above, mac'⟩ := channelB
      cases bank' with
      | a => simp [selected, selectsA, known high.1, mac', apart.2, above]
      | b => simp [selected, selectsB, known high.1, mac', above]

theorem Meant.read_eq {chip : Chip} (meant : Meant K v c)
    (known : macCell ∈ K → chip.mac = v macCell &&& 0x0003) : chip.read c.2 = chip.cell c := by
  obtain ⟨bank, address⟩ := c
  cases meant with
  | inl low =>
    obtain ⟨rfl, low⟩ := low
    exact if_neg fun high => high.1 low
  | inr high =>
    cases high.2 with
    | inl channelA =>
      obtain ⟨rfl, mac⟩ := channelA
      have other : (1 : UInt16) ≠ 2 := by decide
      exact if_neg fun high' => other ((mac.symm.trans (known high.1).symm).trans high'.2)
    | inr channelB =>
      obtain ⟨rfl, above, mac⟩ := channelB
      exact if_pos ⟨above, (known high.1).trans mac⟩

namespace LMS7002M

variable {s : LMS7002M}

structure Knows (K : Set Cell) (v : Cell → UInt16) (s : LMS7002M) : Prop where
  chip : ∀ c ∈ K, s.chip.cell c = v c
  map : s.useCache = true → ∀ c ∈ K, s.mRegistersMap.cell c = v c

section

variable (knows : Knows K v s)
include knows

theorem Knows.chip_mac (member : macCell ∈ K) :
    s.chip.mac = v macCell &&& 0x0003 :=
  congrArg (· &&& 0x0003) (knows.chip macCell member)

theorem Knows.map_mac (cached : s.useCache = true) (member : macCell ∈ K) :
    s.mRegistersMap.mac = v macCell &&& 0x0003 :=
  congrArg (· &&& 0x0003) (knows.map cached macCell member)

omit knows in
theorem cached_eq (s : LMS7002M) (address : UInt16) :
    s.cached address = s.mRegistersMap.asChip.read address := by
  have mac : s.mRegistersMap.asChip.mac = s.mRegistersMap.mac := rfl
  rw [cached, Chip.read, mac]
  by_cases other : ¬ address < 0x0100 ∧ s.mRegistersMap.mac = 2
  · simp only [if_pos other]
    rfl
  · simp only [if_neg other]
    rfl

omit knows in
theorem cached_of_not_asks {fromChip : Bool} (asks : ¬ s.asksChip address fromChip = true) :
    s.useCache = true := by
  cases cache : s.useCache with
  | true => rfl
  | false =>
    exfalso
    apply asks
    rw [asksChip, cache, Bool.not_false, Bool.or_true, Bool.true_or]

theorem Knows.spiRead_value (member : c ∈ K) (meant : Meant K v c)
    (small : c.2 < 0x8000) (fromChip : Bool) : (s.spiRead c.2 fromChip 0).1 = v c := by
  by_cases asks : s.asksChip c.2 fromChip = true
  · rw [(spiRead_chip small asks).1, meant.read_eq knows.chip_mac, knows.chip c member]
  · have cached := cached_of_not_asks asks
    have here := meant.read_eq (show macCell ∈ K → s.mRegistersMap.asChip.mac = _ from
      knows.map_mac cached)
    rw [spiRead_cached asks, cached_eq, here, RegistersMap.asChip_cell, knows.map cached c member]

theorem Knows.read (small : address < 0x8000) (fromChip : Bool)
    (here : s.useCache = true → ∀ d ∈ K, d ∈ selected s.mRegistersMap.mac address →
      s.chip.read address = v d) : Knows K v (s.spiRead address fromChip 0).2.2 := by
  by_cases asks : s.asksChip address fromChip = true
  · obtain ⟨_, chip, useCache, cells⟩ := spiRead_chip small asks
    constructor
    · intro d member
      rw [chip, knows.chip d member]
    · intro cached d member
      rw [useCache] at cached
      rw [cells]
      split
      · rename_i means
        exact here cached d member means
      · exact knows.map cached d member
  · rw [spiRead_cached asks]
    exact knows

theorem Knows.spiRead (member : c ∈ K) (meant : Meant K v c)
    (small : c.2 < 0x8000) (fromChip : Bool) : Knows K v (s.spiRead c.2 fromChip 0).2.2 := by
  apply knows.read small
  intro cached d _ means
  rw [meant.selected_iff (knows.map_mac cached)] at means
  rw [means, meant.read_eq knows.chip_mac, knows.chip c member]

theorem Knows.spiRead_other (outside : ∀ d ∈ K, d.2 ≠ address)
    (small : address < 0x8000) (fromChip : Bool) :
    Knows K v (s.spiRead address fromChip 0).2.2 := by
  apply knows.read small
  intro _ d member means
  exact absurd means.1 (outside d member)

omit knows in
theorem spiWrite_sent (small : address < 0x8000) (value : UInt16) :
    (s.spiWrite address value false 0).2.chip = s.chip.write address value ∨
      (s.spiWrite address value false 0).2.chip = s.chip ∧ s.useCache = true ∧
        ∀ d ∈ selected s.mRegistersMap.mac address, s.mRegistersMap.cell d = value := by
  cases cache : s.useCache with
  | false => exact .inl (spiWrite_chip small (.inl (by rw [cache]; rfl)))
  | true =>
    by_cases differs : ∃ d ∈ selected s.mRegistersMap.mac address, s.mRegistersMap.cell d ≠ value
    · exact .inl (spiWrite_chip small (.inr differs))
    · have values : ∀ d ∈ selected s.mRegistersMap.mac address,
          s.mRegistersMap.cell d = value := by
        intro d member
        by_contra other
        exact differs ⟨d, member, other⟩
      exact .inr ⟨spiWrite_kept (by rw [cache]; rfl) values, rfl, values⟩

theorem Knows.spiWrite (member : c ∈ K) (meant : Meant K v c)
    (small : c.2 < 0x8000) (value : UInt16) :
    Knows K (Function.update v c value) (s.spiWrite c.2 value false 0).2 := by
  constructor
  · intro d inside
    rw [Function.update_apply]
    cases spiWrite_sent small value with
    | inl sent =>
      rw [sent, Chip.write_cell]
      by_cases same : d = c
      · rw [if_pos ((meant.selected_iff knows.chip_mac d).mpr same), if_pos same]
      · rw [if_neg fun means => same ((meant.selected_iff knows.chip_mac d).mp means),
          if_neg same, knows.chip d inside]
    | inr kept =>
      obtain ⟨chip, cached, values⟩ := kept
      rw [chip, knows.chip d inside]
      by_cases same : d = c
      · subst same
        have here := values d ((meant.selected_iff (knows.map_mac cached) d).mpr rfl)
        rw [if_pos rfl, ← here, knows.map cached d inside]
      · rw [if_neg same]
  · intro cached d inside
    rw [spiWrite_useCache] at cached
    rw [spiWrite_map, Function.update_apply]
    by_cases same : d = c
    · rw [if_pos ((meant.selected_iff (knows.map_mac cached) d).mpr same), if_pos same]
    · rw [if_neg fun means => same ((meant.selected_iff (knows.map_mac cached) d).mp means),
        if_neg same, knows.map cached d inside]

theorem Knows.spiWrite_other (outside : ∀ d ∈ K, d.2 ≠ address)
    (small : address < 0x8000) (value : UInt16) :
    Knows K v (s.spiWrite address value false 0).2 := by
  constructor
  · intro d inside
    cases spiWrite_sent (s := s) small value with
    | inl sent =>
      rw [sent, Chip.write_cell, if_neg fun means => outside d inside means.1, knows.chip d inside]
    | inr kept => rw [kept.1, knows.chip d inside]
  · intro cached d inside
    rw [spiWrite_useCache] at cached
    rw [spiWrite_map, if_neg fun means => outside d inside means.1, knows.map cached d inside]

end

end LMS7002M

namespace Session

open LMS7002M

variable {b : Session} {refClk : Rat} {α : Type}

/-- Every transfer is done, and only registers that the driver always asks for change by
themselves. -/
def Stores (b : Session) : Prop := ∀ n chip, (b.answers n chip).2 = 0 ∧
  ∀ c : Cell, c.2 ∉ readOnlyRegs → (b.answers n chip).1.cell c = chip.cell c

/-- Every transfer is done, and these registers change only when they are written. -/
def StoresAt (K : Set Cell) (b : Session) : Prop := ∀ n chip, (b.answers n chip).2 = 0 ∧
  ∀ c ∈ K, (b.answers n chip).1.cell c = chip.cell c

theorem Stores.at (stores : b.Stores) (plain : ∀ c ∈ K, c.2 ∉ readOnlyRegs) : b.StoresAt K :=
  fun n chip => ⟨(stores n chip).1, fun c member => (stores n chip).2 c (plain c member)⟩

structure Holds (K : Set Cell) (v : Cell → UInt16) (refClk : Rat) (b : Session) : Prop where
  clock : b._cachedRefClockRate = refClk
  stores : b.StoresAt K
  small : ∀ c ∈ K, c.2 < 0x8000
  knows : Knows K v b.lms

theorem Holds.transfer {v' : Cell → UInt16} {call : LMS7002M → Int → α × LMS7002M}
    (holds : Holds K v refClk b) {P : α → Prop}
    (does : ∀ s, Knows K v s → P (call s 0).1 ∧ Knows K v' (call s 0).2) :
    P (transfer call b).1 ∧ Holds K v' refClk (transfer call b).2 := by
  obtain ⟨done, same⟩ := holds.stores 0 b.lms.chip
  let s : LMS7002M := { b.lms with chip := (b.answers 0 b.lms.chip).1 }
  have knows : Knows K v s :=
    ⟨fun c member => (same c member).trans (holds.knows.chip c member), holds.knows.map⟩
  have run : Lime.transfer call b = ((call s 0).1,
      { b with lms := (call s 0).2, answers := fun n => b.answers (n + 1) }) := by
    rw [← done]
    rfl
  obtain ⟨value, after⟩ := does s knows
  rw [run]
  exact ⟨value, holds.clock, fun n => holds.stores (n + 1), holds.small, after⟩

section Known

variable (holds : Holds K v refClk b) (member : c ∈ K) (meant : Meant K v c)

include holds member meant

theorem Holds.spiRead (fromChip : Bool) :
    (spiRead c.2 fromChip b).1 = v c ∧ Holds K v refClk (spiRead c.2 fromChip b).2 :=
  have small := holds.small c member
  holds.transfer (P := (· = v c)) fun _ knows =>
    ⟨knows.spiRead_value member meant small fromChip, knows.spiRead member meant small fromChip⟩

theorem Holds.spiWrite (data : UInt16) :
    Holds K (Function.update v c data) refClk (spiWrite c.2 data b).2 :=
  have small := holds.small c member
  (holds.transfer (P := fun _ => True) fun _ knows =>
    ⟨trivial, knows.spiWrite member meant small data⟩).2

theorem Holds.getBits (msb lsb : UInt8) (fromChip : Bool) :
    (getBits ⟨c.2, msb, lsb⟩ fromChip b).1 = bitsOf (v c) msb lsb ∧
      Holds K v refClk (getBits ⟨c.2, msb, lsb⟩ fromChip b).2 := by
  obtain ⟨value, after⟩ := holds.spiRead member meant fromChip
  exact ⟨congrArg (bitsOf · msb lsb) value, after⟩

theorem Holds.modifyBits (msb lsb : UInt8) (value : UInt16) :
    Holds K (Function.update v c (replaceBits (v c) msb lsb value)) refClk
      (modifyBits ⟨c.2, msb, lsb⟩ value b).2 := by
  obtain ⟨register, after⟩ := holds.spiRead member meant false
  rw [← register]
  exact after.spiWrite member meant _

end Known

/-- What is known stays so. -/
def Keeps (K : Set Cell) (v : Cell → UInt16) (refClk : Rat) (b b' : Session) : Prop :=
  Holds K v refClk b → Holds K v refClk b'

instance : IsPreorder Session (Keeps K v refClk) where
  refl _ := id
  trans _ _ _ first second := second ∘ first

def Outside (K : Set Cell) (address : UInt16) : Prop := (∀ c ∈ K, c.2 ≠ address) ∧ address < 0x8000

theorem spiRead_keeps (outside : Outside K address) (fromChip : Bool) :
    Moves (Keeps K v refClk) (spiRead address fromChip) :=
  fun _ holds => (holds.transfer (P := fun _ => True) fun _ knows =>
    ⟨trivial, knows.spiRead_other outside.1 outside.2 fromChip⟩).2

theorem spiWrite_keeps (outside : Outside K address) (data : UInt16) :
    Moves (Keeps K v refClk) (spiWrite address data) :=
  fun _ holds => (holds.transfer (P := fun _ => True) fun _ knows =>
    ⟨trivial, knows.spiWrite_other outside.1 outside.2 data⟩).2

theorem getBits_keeps {p : Parameter} (outside : Outside K p.address) (fromChip : Bool) :
    Moves (Keeps K v refClk) (getBits p fromChip) :=
  (spiRead_keeps outside _).bind fun _ => .pure _

theorem modifyBits_keeps {p : Parameter} (outside : Outside K p.address) (value : UInt16) :
    Moves (Keeps K v refClk) (modifyBits p value) :=
  (spiRead_keeps outside _).bind fun _ => spiWrite_keeps outside _

theorem setActiveChannel_keeps (outside : Outside K macAddress) (ch : UInt16) :
    Moves (Keeps K v refClk) (setActiveChannel ch) :=
  (getBits_keeps outside _).bind fun _ =>
    .ite (.pure _) ((modifyBits_keeps outside _).bind fun _ => .pure _)

theorem getBits_keeps_known (member : c ∈ K) (meant : Meant K v c) (msb lsb : UInt8)
    (fromChip : Bool) : Moves (Keeps K v refClk) (getBits ⟨c.2, msb, lsb⟩ fromChip) :=
  fun _ holds => (holds.getBits member meant msb lsb fromChip).2

def listed (cells : List Cell) : Set Cell := {c | c ∈ cells}

instance (cells : List Cell) : DecidablePred (· ∈ listed cells) :=
  fun c => inferInstanceAs (Decidable (c ∈ cells))

theorem outside_listed {cells : List Cell} (apart : cells.all (fun c => c.2 != address) = true)
    (small : address < 0x8000) : Outside (listed cells) address :=
  ⟨fun c member => bne_iff_ne.mp (List.all_eq_true.mp apart c member), small⟩

/-- The values once this channel, or space, is selected. -/
def selecting (v : Cell → UInt16) (ch : UInt16) : Cell → UInt16 :=
  Function.update v macCell (replaceBits (v macCell) 1 0 ch)

theorem selecting_mac {ch : UInt16} (small : ch.toNat < 4) (v : Cell → UInt16) :
    selecting v ch macCell &&& 0x0003 = ch := by
  rw [selecting, Function.update_self, ← macBits]
  exact bitsOf_replaceBits (by decide) (by decide) small (v macCell)

theorem selecting_other {address : UInt16} (other : address ≠ macAddress) (ch : UInt16)
    (bank : Bank) : selecting v ch (bank, address) = v (bank, address) :=
  Function.update_of_ne (fun same => other (congrArg Prod.snd same)) _ v

def channelOf : Bank → UInt16
  | .a => ChA
  | .b => ChB

theorem channelOf_active (v : Cell → UInt16) (bank : Bank) :
    selecting v (channelOf bank) macCell &&& 0x0003 = channelOf bank := by
  apply selecting_mac
  cases bank with
  | a => decide
  | b => decide

theorem Holds.getActiveChannel (holds : Holds K v refClk b) (member : macCell ∈ K) (fromChip : Bool) :
    (getActiveChannel fromChip b).1 = v macCell &&& 0x0003 ∧
      Holds K v refClk (getActiveChannel fromChip b).2 := by
  obtain ⟨value, after⟩ := holds.getBits member (macCell_meant K v) 1 0 fromChip
  exact ⟨value.trans (macBits _), after⟩

theorem Holds.setActiveChannel (holds : Holds K v refClk b) (member : macCell ∈ K) (ch : UInt16) :
    Holds K (selecting v ch) refClk (setActiveChannel ch b).2 := by
  obtain ⟨value, after⟩ := holds.getActiveChannel member false
  rw [Session.setActiveChannel, bind_run, value, selecting]
  by_cases active : ch = v macCell &&& 0x0003
  · rw [if_pos active, active, replaceBits_same, Function.update_eq_self]
    exact after
  · rw [if_neg active]
    exact after.modifyBits member (macCell_meant K v) 1 0 ch

theorem setActiveChannel_same (member : macCell ∈ K) {ch : UInt16}
    (same : v macCell &&& 0x0003 = ch) : Moves (Keeps K v refClk) (setActiveChannel ch) := by
  intro b holds
  subst same
  have selected := holds.setActiveChannel member (v macCell &&& 0x0003)
  rwa [selecting, replaceBits_same, Function.update_eq_self] at selected

end Session

end Soapy.Lime
