import Soapy.Lib.OrdMap
import Soapy.Lime.ActiveChannel

/-! # The register map between a backup and its restore

Which registers have an entry in the map, and what the calls in between keep.
-/

namespace Soapy.Lime

open Lib

instance wordOrder : LinearOrder UInt16 where
  le_refl a := UInt16.le_refl a
  le_trans a b c hab hbc := UInt16.le_trans hab hbc
  le_antisymm a b hab hba := UInt16.le_antisymm hab hba
  le_total a b := UInt16.le_total a b
  lt_iff_le_not_ge a b := by
    simp only [UInt16.lt_iff_toNat_lt, UInt16.le_iff_toNat_le]
    omega
  toDecidableLE := inferInstance
  toDecidableEq := inferInstance
  toDecidableLT := inferInstance

/-- The keys of `mChannelA` and `mChannelB`. A key that is not there counts as zero in the map. -/
structure UsedAddresses where
  mChannelA : OrdMap UInt16 Unit
  mChannelB : OrdMap UInt16 Unit

namespace UsedAddresses

def has (u : UsedAddresses) : Cell → Bool
  | (.a, address) => (u.mChannelA.find? address).isSome
  | (.b, address) => (u.mChannelB.find? address).isSome

/-- `GetUsedAddresses`. -/
def get (u : UsedAddresses) (channel : Nat) : List UInt16 :=
  if channel = 0 then u.mChannelA.entries.map Prod.fst
  else if channel = 1 then u.mChannelB.entries.map Prod.fst
  else []

/-- The keys behind a `SetValue` for each bank that is set. -/
def set (u : UsedAddresses) (wr0 wr1 : Bool) (address : UInt16) : UsedAddresses where
  mChannelA := if wr0 then u.mChannelA.insert address () else u.mChannelA
  mChannelB := if wr1 then u.mChannelB.insert address () else u.mChannelB

variable {u : UsedAddresses} {wr0 wr1 : Bool} {address : UInt16} {c : Cell}

theorem not_has_set (none : (u.set wr0 wr1 address).has c = false) :
    u.has c = false ∧ (c = (.a, address) → wr0 = false) ∧ (c = (.b, address) → wr1 = false) := by
  obtain ⟨bank, a⟩ := c
  cases bank with
  | a =>
    cases wr0 with
    | false => exact ⟨none, fun _ => rfl, nofun⟩
    | true =>
      simp only [has, set, if_true, OrdMap.find?_insert] at none
      by_cases here : a = address
      · simp [here] at none
      · simp only [if_neg here] at none
        exact ⟨none, fun same => absurd (Prod.mk.inj same).2 here, nofun⟩
  | b =>
    cases wr1 with
    | false => exact ⟨none, nofun, fun _ => rfl⟩
    | true =>
      simp only [has, set, if_true, OrdMap.find?_insert] at none
      by_cases here : a = address
      · simp [here] at none
      · simp only [if_neg here] at none
        exact ⟨none, nofun, fun same => absurd (Prod.mk.inj same).2 here⟩

def number : Bank → Nat
  | .a => 0
  | .b => 1

theorem get_sorted (u : UsedAddresses) (bank : Bank) : (u.get (number bank)).Pairwise (· < ·) := by
  cases bank with
  | a => exact List.pairwise_map.mpr u.mChannelA.sorted
  | b => exact List.pairwise_map.mpr u.mChannelB.sorted

theorem mem_get (u : UsedAddresses) (bank : Bank) (address : UInt16) :
    address ∈ u.get (number bank) ↔ u.has (bank, address) = true := by
  have keys (m : OrdMap UInt16 Unit) :
      address ∈ m.entries.map Prod.fst ↔ (m.find? address).isSome = true := by
    rw [Option.isSome_iff_exists]
    constructor
    · intro member
      obtain ⟨⟨a, v⟩, entry, rfl⟩ := List.mem_map.mp member
      exact ⟨v, (m.find?_eq_some_iff a v).mpr entry⟩
    · intro ⟨v, found⟩
      exact List.mem_map.mpr ⟨(address, v), (m.find?_eq_some_iff address v).mp found, rfl⟩
  cases bank with
  | a => exact keys u.mChannelA
  | b => exact keys u.mChannelB

end UsedAddresses

/-- The driver with the keys of its maps. -/
structure MapSession where
  lms : LMS7002M
  used : UsedAddresses

inductive MapCall where
  | spiWrite (address data : UInt16) (toChip : Bool)
  | spiRead (address : UInt16) (fromChip : Bool)
  | modifySpiRegBits (address : UInt16) (msb lsb : UInt8) (value : UInt16) (fromChip : Bool)
  | setActiveChannel (ch : UInt16)

namespace MapSession

open LMS7002M

def spiWrite (s : MapSession) (address data : UInt16) (toChip : Bool) : MapSession :=
  let m := s.lms.mRegistersMap
  let forced := toChip || !s.lms.useCache
  { lms := (s.lms.spiWrite address data toChip 0).2
    used := s.used.set (selectsA m.mac address && (forced || m.getValue 0 address != data))
      (selectsB m.mac address && (forced || m.getValue 1 address != data)) address }

def spiRead (s : MapSession) (address : UInt16) (fromChip : Bool) : MapSession :=
  let m := s.lms.mRegistersMap
  { lms := (s.lms.spiRead address fromChip 0).2.2
    used :=
      if s.lms.asksChip address fromChip then
        s.used.set (selectsA m.mac address) (selectsB m.mac address) address
      else s.used }

/-- A call with all its transfers done. The register with the MAC bits has its key from the
    constructor on. -/
def perform (s : MapSession) : MapCall → MapSession
  | .spiWrite address data toChip => s.spiWrite address data toChip
  | .spiRead address fromChip => s.spiRead address fromChip
  | .modifySpiRegBits address msb lsb value fromChip =>
    (s.spiRead address fromChip).spiWrite address
      (replaceBits (s.lms.spiRead address fromChip 0).1 msb lsb value) false
  | .setActiveChannel ch => { s with lms := s.lms.setActiveChannel ch }

def Step (s : MapSession) (call : MapCall) (s' : MapSession) : Prop := s' = s.perform call

/-- The SPI words have 15 bits for the address, and 0x0640 and 0x0641 go through the
    microcontroller. -/
def Direct (address : UInt16) : Prop :=
  address < 0x8000 ∧ address ≠ 0x0640 ∧ address ≠ 0x0641

/-- No read takes the value of one bank for both when they differ, unless the register is written in
    both right after it. -/
def Tracked (s : MapSession) : MapCall → Prop
  | .spiWrite address _ _ => Direct address
  | .spiRead address fromChip =>
    Direct address ∧ (s.lms.asksChip address fromChip → Same s.lms.chip address)
  | .modifySpiRegBits address msb lsb value fromChip =>
    Direct address ∧ (s.lms.asksChip address fromChip → Same s.lms.chip address ∨
      s.lms.useCache = false ∨
      replaceBits (s.lms.chip.read address) msb lsb value ≠ s.lms.chip.read address)
  | .setActiveChannel _ => True

/-- The map has kept track of the chip, and of what has been set since the backup. -/
structure Inv (s : MapSession) (backup : RegistersMap) : Prop where
  agrees : s.lms.Agrees absent
  mac : s.used.has macCell = true
  kept : ∀ c, s.used.has c = false → s.lms.mRegistersMap.cell c = backup.cell c
  small : ∀ c : Cell, ¬ c.2 < 0x8000 → s.lms.mRegistersMap.cell c = backup.cell c

variable {backup : RegistersMap} {s : MapSession} {address : UInt16}

theorem small_of_selected {mac : UInt16} {c : Cell} (small : address < 0x8000)
    (large : ¬ c.2 < 0x8000) : c ∉ selected mac address := by
  intro member
  rw [member.1] at large
  exact large small

theorem spiWrite_kept (mac : s.used.has macCell = true)
    (kept : ∀ c, s.used.has c = false → s.lms.mRegistersMap.cell c = backup.cell c) (data : UInt16)
    (toChip : Bool) :
    (s.spiWrite address data toChip).used.has macCell = true ∧
      ∀ c, (s.spiWrite address data toChip).used.has c = false →
        (s.spiWrite address data toChip).lms.mRegistersMap.cell c = backup.cell c := by
  constructor
  · by_contra none
    have before := (UsedAddresses.not_has_set (Bool.eq_false_iff.mpr none)).1
    rw [mac] at before
    cases before
  · intro c none
    obtain ⟨before, noneA, noneB⟩ := UsedAddresses.not_has_set none
    have stored : (s.spiWrite address data toChip).lms.mRegistersMap.cell c =
        if c ∈ selected s.lms.mRegistersMap.mac address then data
        else s.lms.mRegistersMap.cell c := spiWrite_map s.lms address data toChip c
    rw [stored, ← kept c before]
    by_cases here : c ∈ selected s.lms.mRegistersMap.mac address
    · rw [if_pos here]
      obtain ⟨bank, a⟩ := c
      obtain ⟨same, selects⟩ := here
      change a = address at same
      subst same
      cases bank with
      | a =>
        have skipped := noneA rfl
        change selectsA _ _ = true at selects
        simp only [selects, Bool.true_and, Bool.or_eq_false_iff, bne_eq_false_iff_eq] at skipped
        exact skipped.2.symm
      | b =>
        have skipped := noneB rfl
        change selectsB _ _ = true at selects
        simp only [selects, Bool.true_and, Bool.or_eq_false_iff, bne_eq_false_iff_eq] at skipped
        exact skipped.2.symm
    · rw [if_neg here]

theorem spiRead_kept (mac : s.used.has macCell = true) (small : address < 0x8000)
    (kept : ∀ c, s.used.has c = false → s.lms.mRegistersMap.cell c = backup.cell c)
    (fromChip : Bool) :
    (s.spiRead address fromChip).used.has macCell = true ∧
      ∀ c, (s.spiRead address fromChip).used.has c = false →
        (s.spiRead address fromChip).lms.mRegistersMap.cell c = backup.cell c := by
  by_cases asks : s.lms.asksChip address fromChip
  · have cells := (spiRead_chip small asks).2.2.2
    simp only [MapSession.spiRead, if_pos asks]
    constructor
    · by_contra none
      have before := (UsedAddresses.not_has_set (Bool.eq_false_iff.mpr none)).1
      rw [mac] at before
      cases before
    · intro c none
      obtain ⟨before, noneA, noneB⟩ := UsedAddresses.not_has_set none
      rw [cells, if_neg, kept c before]
      intro here
      obtain ⟨bank, a⟩ := c
      obtain ⟨same, selects⟩ := here
      change a = address at same
      subst same
      cases bank with
      | a => exact Bool.false_ne_true ((noneA rfl).symm.trans selects)
      | b => exact Bool.false_ne_true ((noneB rfl).symm.trans selects)
  · simp only [MapSession.spiRead, if_neg asks, spiRead_cached asks]
    exact ⟨mac, kept⟩

theorem Inv.spiWrite (inv : s.Inv backup) (small : address < 0x8000) (data : UInt16)
    (toChip : Bool) : (s.spiWrite address data toChip).Inv backup := by
  obtain ⟨agrees, mac, kept, untouched⟩ := inv
  obtain ⟨mac', kept'⟩ := spiWrite_kept mac kept data toChip
  refine ⟨?_, mac', kept', ?_⟩
  · obtain ⟨after, _⟩ := agrees.spiWrite macCell_exists small
      fun c member none => absurd none (not_absent_selected member)
    intro c there
    exact after c fun member => there member.1
  · intro c large
    rw [← untouched c large]
    exact (spiWrite_map s.lms address data toChip c).trans (if_neg (small_of_selected small large))

theorem spiRead_untouched (small : address < 0x8000)
    (untouched : ∀ c : Cell, ¬ c.2 < 0x8000 → s.lms.mRegistersMap.cell c = backup.cell c)
    (fromChip : Bool) (c : Cell) (large : ¬ c.2 < 0x8000) :
    (s.spiRead address fromChip).lms.mRegistersMap.cell c = backup.cell c := by
  rw [← untouched c large]
  by_cases asks : s.lms.asksChip address fromChip
  · exact ((spiRead_chip small asks).2.2.2 c).trans (if_neg (small_of_selected small large))
  · simp only [MapSession.spiRead, spiRead_cached asks]

theorem Inv.spiRead (inv : s.Inv backup) (small : address < 0x8000) {fromChip : Bool}
    (same : s.lms.asksChip address fromChip → Same s.lms.chip address) :
    (s.spiRead address fromChip).Inv backup := by
  obtain ⟨agrees, mac, kept, untouched⟩ := inv
  obtain ⟨mac', kept'⟩ := spiRead_kept mac small kept fromChip
  refine ⟨?_, mac', kept', spiRead_untouched small untouched fromChip⟩
  by_cases asks : s.lms.asksChip address fromChip
  · obtain ⟨_, chip, _, cells⟩ := spiRead_chip small asks
    intro c there
    have stored : (s.spiRead address fromChip).lms.mRegistersMap.cell c = _ := cells c
    have sameChip : (s.spiRead address fromChip).lms.chip = s.lms.chip := chip
    rw [stored, sameChip]
    by_cases here : c ∈ selected s.lms.mRegistersMap.mac address
    · rw [if_pos here]
      rw [agrees.mac_eq macCell_exists] at here
      exact (read_selected (same asks) here).symm
    · rw [if_neg here]
      exact agrees c there
  · simp only [MapSession.spiRead, spiRead_cached asks]
    exact agrees

theorem Inv.readThenWrite (inv : s.Inv backup) (small : address < 0x8000) {fromChip : Bool}
    (asks : s.lms.asksChip address fromChip) (other : ¬ Same s.lms.chip address) {data : UInt16}
    (sent : s.lms.useCache = false ∨ data ≠ s.lms.chip.read address) :
    ((s.spiRead address fromChip).spiWrite address data false).Inv backup := by
  obtain ⟨agrees, mac, kept, untouched⟩ := inv
  obtain ⟨mac₁, kept₁⟩ := spiRead_kept mac small kept fromChip
  have untouched₁ := spiRead_untouched small untouched fromChip
  obtain ⟨mac₂, kept₂⟩ := spiWrite_kept (s := s.spiRead address fromChip) mac₁ kept₁ data false
  have high : ¬ address < 0x0100 := fun low => other fun high => absurd low high
  have apart : address ≠ macAddress := by
    intro here
    exact high (here ▸ by decide)
  obtain ⟨_, chip, useCache, cells⟩ := spiRead_chip small asks
  let t := (s.spiRead address fromChip).lms
  have sameMac : t.mRegistersMap.mac = s.lms.mRegistersMap.mac := by
    rw [RegistersMap.mac_eq, RegistersMap.mac_eq]
    exact congrArg (· &&& 0x0003) ((cells macCell).trans (if_neg (not_macCell_selected apart _)))
  have read : t.Agrees (absent ∪ selected s.lms.mRegistersMap.mac address) := by
    intro c outside
    rw [Set.mem_union, not_or] at outside
    have chipCell : t.chip.cell c = s.lms.chip.cell c := congrArg (fun chip => Chip.cell chip c) chip
    rw [chipCell, ← agrees c outside.1]
    exact (cells c).trans (if_neg outside.2)
  have settled : macCell ∉ absent ∪ selected s.lms.mRegistersMap.mac address := by
    rw [Set.mem_union, not_or]
    exact ⟨macCell_exists, not_macCell_selected apart _⟩
  have sends : ∀ c ∈ selected t.mRegistersMap.mac address,
      c ∈ absent ∪ selected s.lms.mRegistersMap.mac address →
      (false || !t.useCache) = true ∨ t.mRegistersMap.cell c ≠ data := by
    intro c member _
    rw [sameMac] at member
    have value : t.mRegistersMap.cell c = s.lms.chip.read address := (cells c).trans (if_pos member)
    have cache : t.useCache = s.lms.useCache := useCache
    rw [value, cache]
    cases sent with
    | inl direct => exact .inl (by rw [direct]; rfl)
    | inr differs => exact .inr differs.symm
  obtain ⟨after, _⟩ := read.spiWrite settled small sends
  refine ⟨?_, mac₂, kept₂, ?_⟩
  · intro c there
    apply after c
    intro member
    rw [sameMac] at member
    cases member.1 with
    | inl none => exact there none
    | inr here => exact member.2 here
  · intro c large
    rw [← untouched₁ c large]
    exact (spiWrite_map t address data false c).trans (if_neg (small_of_selected small large))

theorem Inv.setActiveChannel (inv : s.Inv backup) (ch : UInt16) :
    Inv { s with lms := s.lms.setActiveChannel ch } backup := by
  obtain ⟨agrees, mac, kept, untouched⟩ := inv
  obtain ⟨only, _, right⟩ := setActiveChannel_spec s.lms ch
  refine ⟨only.agrees agrees (right (agrees macCell macCell_exists)).1, mac, ?_, ?_⟩
  · intro c none
    rw [only.map c, kept c none]
    intro here
    rw [here, mac] at none
    cases none
  · intro c large
    rw [only.map c, untouched c large]
    intro here
    rw [here] at large
    exact large (by decide)

theorem Inv.step {s' : MapSession} {call : MapCall} (inv : s.Inv backup) (tracked : s.Tracked call)
    (step : s.Step call s') : s'.Inv backup := by
  rw [step]
  cases call with
  | spiWrite address data toChip => exact inv.spiWrite tracked.1 data toChip
  | spiRead address fromChip => exact inv.spiRead tracked.1.1 tracked.2
  | setActiveChannel ch => exact inv.setActiveChannel ch
  | modifySpiRegBits address msb lsb value fromChip =>
    obtain ⟨direct, follows⟩ := tracked
    by_cases same : s.lms.asksChip address fromChip → Same s.lms.chip address
    · exact (inv.spiRead direct.1 same).spiWrite direct.1 _ false
    · obtain ⟨asks, other⟩ := Classical.not_imp.mp same
      have register := (spiRead_chip direct.1 asks).1
      apply inv.readThenWrite direct.1 asks other
      rw [register]
      exact (follows asks).resolve_left other

end MapSession

end Soapy.Lime
