import Soapy.Lime.LMS7002M

/-! # The active channel of the LMS7002M

A single write or read, and the calls that choose the bank through the register with the MAC bits,
for a map and a chip that agree but for some cells.
-/

namespace Soapy.Lime

open Lib

namespace LMS7002M

def getSpiRegBits (s : LMS7002M) (address : UInt16) (msb lsb : UInt8) (fromChip : Bool) :
    UInt16 × LMS7002M :=
  let (register, _, s) := s.spiRead address fromChip 0
  (((register.toUInt32 &&& ~~~(~~~(0 : UInt32) <<< (msb + 1).toUInt32)) >>> lsb.toUInt32).toUInt16, s)

def getActiveChannel (s : LMS7002M) (fromChip : Bool) : UInt16 × LMS7002M :=
  s.getSpiRegBits macAddress 1 0 fromChip

def setActiveChannel (s : LMS7002M) (ch : UInt16) : LMS7002M :=
  let (active, s) := s.getActiveChannel false
  if ch = active then s else (s.modifySpiRegBits macAddress 1 0 ch false 0 0).2

theorem replaceBits_mac (register ch : UInt16) :
    replaceBits register 1 0 ch &&& 0x0003 = ch &&& 0x0003 := by
  unfold replaceBits
  apply UInt16.toBitVec_inj.mp
  ext i inside
  simp
  interval_cases i <;> simp

theorem macBits (register : UInt16) :
    ((register.toUInt32 &&& ~~~(~~~(0 : UInt32) <<< ((1 : UInt8) + 1).toUInt32)) >>>
      (0 : UInt8).toUInt32).toUInt16 = register &&& 0x0003 := by
  apply UInt16.toBitVec_inj.mp
  ext i inside
  simp

end LMS7002M

def LMS7002M.Agrees (s : LMS7002M) (but : Set Cell) : Prop :=
  ∀ c, c ∉ but → s.mRegistersMap.cell c = s.chip.cell c

/-- Registers below 0x0100 do not exist in the second bank. -/
def absent : Set Cell := {c | c.1 = .b ∧ c.2 < 0x0100}

theorem not_absent_selected {mac address : UInt16} {c : Cell} (member : c ∈ selected mac address) :
    c ∉ absent := by
  obtain ⟨bank, a⟩ := c
  obtain ⟨here, selects⟩ := member
  intro none
  cases bank with
  | a => cases none.1
  | b =>
    simp only [selectsB, decide_eq_true_eq] at selects
    exact selects.2 (here ▸ none.2)

namespace LMS7002M

variable {s : LMS7002M} {but : Set Cell} {address value : UInt16} {toChip fromChip : Bool}
variable {c : Cell}

theorem spiWrite_map (s : LMS7002M) (address value : UInt16) (toChip : Bool) (c : Cell) :
    (s.spiWrite address value toChip 0).2.mRegistersMap.cell c =
      if c ∈ selected s.mRegistersMap.mac address then value else s.mRegistersMap.cell c := by
  have stored : (s.spiWrite address value toChip 0).2.mRegistersMap =
      (s.gather [(address, value)] toChip).map := by
    unfold spiWrite spiWriteBatch
    by_cases nothing : (s.gather [(address, value)] toChip).data = []
    · simp [nothing]
    · simp [nothing]
  rw [stored, gather, List.foldl_cons, List.foldl_nil, Batch.add_map]
  exact RegistersMap.store_cell _ _ _ _ c

theorem spiWrite_useCache (s : LMS7002M) (address value : UInt16) (toChip : Bool) :
    (s.spiWrite address value toChip 0).2.useCache = s.useCache := by
  unfold spiWrite spiWriteBatch
  by_cases nothing : (s.gather [(address, value)] toChip).data = []
  · simp [nothing]
  · simp [nothing]

theorem spiWrite_chip (small : address < 0x8000) (sent : (toChip || !s.useCache) = true ∨
      ∃ c ∈ selected s.mRegistersMap.mac address, s.mRegistersMap.cell c ≠ value) :
    (s.spiWrite address value toChip 0).2.chip = s.chip.write address value := by
  have gathered : (s.gather [(address, value)] toChip).data = [writeWord address value] := by
    rw [gather, List.foldl_cons, List.foldl_nil]
    cases Batch.add_data ⟨s.mRegistersMap, s.mRegistersMap.mac, []⟩ (toChip || !s.useCache)
        (address, value) with
    | inl skipped =>
      obtain ⟨unforced, values⟩ := Batch.add_skips skipped
      cases sent with
      | inl forced => exact absurd (forced.symm.trans unforced) nofun
      | inr differs =>
        obtain ⟨c, member, other⟩ := differs
        exact absurd (values c member) other
    | inr sent => exact sent
  unfold spiWrite spiWriteBatch
  simp [gathered, Chip.takeWords, wordAddress_writeWord value small, wordData_writeWord]

theorem spiWrite_kept (unforced : (toChip || !s.useCache) = false)
    (values : ∀ c ∈ selected s.mRegistersMap.mac address, s.mRegistersMap.cell c = value) :
    (s.spiWrite address value toChip 0).2.chip = s.chip := by
  have noneA : (selectsA s.mRegistersMap.mac address &&
      (s.mRegistersMap.getValue 0 address != value)) = false := by
    rw [Bool.and_eq_false_imp]
    intro selects
    exact bne_eq_false_iff_eq.mpr (values (.a, address) ⟨rfl, selects⟩)
  have noneB : (selectsB s.mRegistersMap.mac address &&
      (s.mRegistersMap.getValue 1 address != value)) = false := by
    rw [Bool.and_eq_false_imp]
    intro selects
    exact bne_eq_false_iff_eq.mpr (values (.b, address) ⟨rfl, selects⟩)
  have gathered : (s.gather [(address, value)] toChip).data = [] := by
    simp [gather, Batch.add, unforced, noneA, noneB]
  unfold spiWrite spiWriteBatch
  simp [gathered]

theorem Agrees.mac_eq (agrees : s.Agrees but) (settled : macCell ∉ but) :
    s.mRegistersMap.mac = s.chip.mac := by
  rw [RegistersMap.mac_eq, Chip.mac_eq, agrees macCell settled]

theorem Agrees.spiWrite (agrees : s.Agrees but) (settled : macCell ∉ but) (small : address < 0x8000)
    (sends : ∀ c ∈ selected s.mRegistersMap.mac address, c ∈ but →
      (toChip || !s.useCache) = true ∨ s.mRegistersMap.cell c ≠ value) :
    (s.spiWrite address value toChip 0).2.Agrees (but \ selected s.mRegistersMap.mac address) ∧
      (s.spiWrite address value toChip 0).2.chip = s.chip.write address value := by
  have means : s.mRegistersMap.mac = s.chip.mac := agrees.mac_eq settled
  have sent : (s.spiWrite address value toChip 0).2.chip = s.chip.write address value := by
    by_cases forced : (toChip || !s.useCache) = true
    · exact spiWrite_chip small (.inl forced)
    · by_cases differs : ∃ c ∈ selected s.mRegistersMap.mac address, s.mRegistersMap.cell c ≠ value
      · exact spiWrite_chip small (.inr differs)
      · have values : ∀ c ∈ selected s.mRegistersMap.mac address,
            s.mRegistersMap.cell c = value := by
          intro c member
          by_contra other
          exact differs ⟨c, member, other⟩
        rw [spiWrite_kept (by simpa using forced) values]
        symm
        apply Chip.write_same
        intro c member
        rw [← means] at member
        have sure : c ∉ but := by
          intro doubtful
          cases sends c member doubtful with
          | inl is => exact forced is
          | inr other => exact other (values c member)
        rw [← agrees c sure]
        exact values c member
  refine ⟨?_, sent⟩
  intro c outside
  rw [sent, spiWrite_map, Chip.write_cell, ← means]
  by_cases here : c ∈ selected s.mRegistersMap.mac address
  · rw [if_pos here, if_pos here]
  · rw [if_neg here, if_neg here]
    exact agrees c fun member => outside ⟨member, here⟩

theorem spiRead_chip (small : address < 0x8000) (asks : s.asksChip address fromChip) :
    (s.spiRead address fromChip 0).1 = s.chip.read address ∧
      (s.spiRead address fromChip 0).2.2.chip = s.chip ∧
      (s.spiRead address fromChip 0).2.2.useCache = s.useCache ∧
      ∀ c, (s.spiRead address fromChip 0).2.2.mRegistersMap.cell c =
        if c ∈ selected s.mRegistersMap.mac address then s.chip.read address
        else s.mRegistersMap.cell c := by
  have received : s.received [address] = [s.chip.read address] :=
    received_eq (List.forall_mem_singleton.mpr small)
  unfold spiRead spiReadBatch
  rw [if_pos asks, received]
  refine ⟨rfl, rfl, rfl, ?_⟩
  intro c
  exact RegistersMap.store_cell _ _ _ _ c

theorem spiRead_cached (asks : ¬ s.asksChip address fromChip) :
    s.spiRead address fromChip 0 = (s.cached address, none, s) := if_neg asks

theorem macCell_exists : macCell ∉ absent := fun none => by cases none.1

structure OnlyMac (s s' : LMS7002M) : Prop where
  map : ∀ c, c ≠ macCell → s'.mRegistersMap.cell c = s.mRegistersMap.cell c
  chip : ∀ c, c ≠ macCell → s'.chip.cell c = s.chip.cell c
  useCache : s'.useCache = s.useCache

theorem OnlyMac.trans {s' s'' : LMS7002M} (first : OnlyMac s s') (second : OnlyMac s' s'') :
    OnlyMac s s'' where
  map c other := (second.map c other).trans (first.map c other)
  chip c other := (second.chip c other).trans (first.chip c other)
  useCache := second.useCache.trans first.useCache

theorem OnlyMac.agrees {s' : LMS7002M} (only : OnlyMac s s') (agrees : s.Agrees but)
    (mac : s'.mRegistersMap.cell macCell = s'.chip.cell macCell) : s'.Agrees but := by
  intro c outside
  by_cases here : c = macCell
  · rw [here, mac]
  · rw [only.map c here, only.chip c here, agrees c outside]

theorem not_selected_mac (other : c ≠ macCell) (mac : UInt16) : c ∉ selected mac macAddress := by
  rw [selected_low (by decide)]
  exact other

theorem spiRead_mac (s : LMS7002M) (fromChip : Bool) :
    OnlyMac s (s.spiRead macAddress fromChip 0).2.2 ∧
      (s.spiRead macAddress fromChip 0).2.2.chip = s.chip ∧
      (s.spiRead macAddress fromChip 0).2.2.mRegistersMap.cell macCell =
        (s.spiRead macAddress fromChip 0).1 ∧
      (s.mRegistersMap.cell macCell = s.chip.cell macCell →
        (s.spiRead macAddress fromChip 0).1 = s.mRegistersMap.cell macCell) := by
  by_cases asks : s.asksChip macAddress fromChip
  · obtain ⟨value, chip, useCache, cells⟩ := spiRead_chip (by decide) asks
    have register : s.chip.read macAddress = s.chip.cell macCell :=
      if_neg fun high => high.1 (by decide)
    refine ⟨⟨?_, fun c _ => by rw [chip], useCache⟩, chip, ?_, ?_⟩
    · intro c other
      rw [cells, if_neg (not_selected_mac other _)]
    · rw [cells, if_pos (macCell_selected _), value]
    · intro same
      rw [value, register, same]
  · rw [spiRead_cached asks]
    exact ⟨⟨fun _ _ => rfl, fun _ _ => rfl, rfl⟩, rfl, rfl, fun _ => rfl⟩

theorem getActiveChannel_eq (s : LMS7002M) (fromChip : Bool) :
    s.getActiveChannel fromChip =
      ((s.spiRead macAddress fromChip 0).1 &&& 0x0003, (s.spiRead macAddress fromChip 0).2.2) := by
  unfold getActiveChannel getSpiRegBits
  exact congrArg (fun bits => (bits, (s.spiRead macAddress fromChip 0).2.2)) (macBits _)

theorem spiWrite_mac (s : LMS7002M) (value : UInt16) :
    OnlyMac s (s.spiWrite macAddress value false 0).2 ∧
      (s.spiWrite macAddress value false 0).2.mRegistersMap.cell macCell = value ∧
      (s.mRegistersMap.cell macCell = s.chip.cell macCell →
        (s.spiWrite macAddress value false 0).2.chip.cell macCell = value) := by
  have map := spiWrite_map s macAddress value false
  have written : (s.spiWrite macAddress value false 0).2.chip = s.chip.write macAddress value ∨
      (s.spiWrite macAddress value false 0).2.chip = s.chip ∧
        s.mRegistersMap.cell macCell = value := by
    by_cases forced : (false || !s.useCache) = true
    · exact .inl (spiWrite_chip (by decide) (.inl forced))
    · by_cases differs : s.mRegistersMap.cell macCell = value
      · refine .inr ⟨spiWrite_kept (by simpa using forced) ?_, differs⟩
        intro c member
        by_cases here : c = macCell
        · rw [here, differs]
        · exact absurd member (not_selected_mac here _)
      · exact .inl (spiWrite_chip (by decide) (.inr ⟨macCell, macCell_selected _, differs⟩))
  refine ⟨⟨?_, ?_, spiWrite_useCache _ _ _ _⟩, ?_, ?_⟩
  · intro c other
    rw [map, if_neg (not_selected_mac other _)]
  · intro c other
    cases written with
    | inl sent => rw [sent, Chip.write_cell, if_neg (not_selected_mac other _)]
    | inr kept => rw [kept.1]
  · rw [map, if_pos (macCell_selected _)]
  · intro same
    cases written with
    | inl sent => rw [sent, Chip.write_cell, if_pos (macCell_selected _)]
    | inr kept => rw [kept.1, ← same, kept.2]

theorem setActiveChannel_spec (s : LMS7002M) (ch : UInt16) :
    OnlyMac s (s.setActiveChannel ch) ∧
      (s.setActiveChannel ch).mRegistersMap.mac = ch &&& 0x0003 ∧
      (s.mRegistersMap.cell macCell = s.chip.cell macCell →
        (s.setActiveChannel ch).mRegistersMap.cell macCell =
            (s.setActiveChannel ch).chip.cell macCell ∧
          (s.mRegistersMap.mac = ch → (s.setActiveChannel ch).mRegistersMap.cell macCell =
            s.mRegistersMap.cell macCell)) := by
  obtain ⟨only, chip, stored, known⟩ := spiRead_mac s false
  unfold setActiveChannel
  rw [getActiveChannel_eq]
  by_cases active : ch = (s.spiRead macAddress false 0).1 &&& 0x0003
  · simp only [if_pos active]
    refine ⟨only, ?_, ?_⟩
    · rw [RegistersMap.mac_eq, stored, active, UInt16.and_assoc, UInt16.and_self]
    · intro same
      rw [stored, known same, chip]
      exact ⟨same, fun _ => rfl⟩
  · simp only [if_neg active]
    let t := (s.spiRead macAddress false 0).2.2
    obtain ⟨only', chip', stored', known'⟩ := spiRead_mac t false
    let v := replaceBits (t.spiRead macAddress false 0).1 1 0 ch
    obtain ⟨only'', value, sent⟩ := spiWrite_mac (t.spiRead macAddress false 0).2.2 v
    refine ⟨only.trans (only'.trans only''), ?_, ?_⟩
    · exact (congrArg (· &&& 0x0003) value).trans (replaceBits_mac _ ch)
    · intro same
      have first : t.mRegistersMap.cell macCell = t.chip.cell macCell := by
        rw [stored, known same, chip]
        exact same
      have second : (t.spiRead macAddress false 0).2.2.mRegistersMap.cell macCell =
          (t.spiRead macAddress false 0).2.2.chip.cell macCell := by
        rw [stored', known' first, chip']
        exact first
      refine ⟨value.trans (sent second).symm, ?_⟩
      intro here
      exact absurd (by rw [known same, ← here, RegistersMap.mac_eq]) active

end LMS7002M

end Soapy.Lime
