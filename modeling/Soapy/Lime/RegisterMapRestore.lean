import Soapy.Lime.BulkWrites
import Soapy.Lime.RegisterMapBackup

/-! # Backup and restore of the register map

`RestoreRegisterMap` writes what the map says has changed since the backup, bank by bank. It
finds the chip as it was at the backup as long as the map has kept track of both banks.
-/

namespace Soapy.Lime

open Lib

namespace LMS7002M

def backupRegisterMap (s : LMS7002M) : RegistersMap × LMS7002M :=
  let (chBck, s) := s.getActiveChannel true
  let s := s.setActiveChannel 1
  (s.mRegistersMap, s.setActiveChannel chBck)

/-- The main map, and `restoreAddrs` with `restoreData`. -/
structure Restoring where
  map : RegistersMap
  writes : List (UInt16 × UInt16)

/-- One turn of the loop over the used addresses. -/
def Restoring.visit (backup : RegistersMap) (ch : Nat) (r : Restoring) (addr : UInt16) :
    Restoring :=
  let original := backup.getValue ch addr
  let current := r.map.getValue ch addr
  { map := r.map.setValue ch addr original
    writes :=
      if ch = 1 ∧ addr < 0x0100 then r.writes
      else if original = current then r.writes
      else r.writes ++ [(addr, original)] }

def restoreChannel (s : LMS7002M) (backup : RegistersMap) (usedAddresses : List UInt16) (ch : Nat) :
    LMS7002M :=
  let r := usedAddresses.foldl (Restoring.visit backup ch) ⟨s.mRegistersMap, []⟩
  let s := { s with mRegistersMap := r.map }
  let s := s.setActiveChannel (if ch = 0 then 1 else 2)
  (s.spiWriteBatch r.writes true 0).2

def restoreRegisterMap (s : LMS7002M) (backup : RegistersMap) (usedAddresses : Nat → List UInt16) :
    LMS7002M :=
  let (chBck, s) := s.getActiveChannel true
  let s := s.restoreChannel backup (usedAddresses 0) 0
  let s := s.restoreChannel backup (usedAddresses 1) 1
  s.setActiveChannel chBck

end LMS7002M

namespace LMS7002M

open UsedAddresses

variable {s : LMS7002M} {backup : RegistersMap} {used : List UInt16} {bank : Bank}

theorem getValue_cell (m : RegistersMap) (bank : Bank) (address : UInt16) :
    m.getValue (number bank) address = m.cell (bank, address) := by
  cases bank <;> rfl

theorem setValue_cell (m : RegistersMap) (bank : Bank) (address value : UInt16) (c : Cell) :
    (m.setValue (number bank) address value).cell c =
      if c = (bank, address) then value else m.cell c := by
  obtain ⟨bank', a⟩ := c
  cases bank <;> cases bank' <;>
    simp [number, RegistersMap.setValue, RegistersMap.cell, Function.update_apply]

def changed (backup m : RegistersMap) (bank : Bank) (address : UInt16) : Bool :=
  !(bank = .b ∧ address < 0x0100) && backup.cell (bank, address) != m.cell (bank, address)

theorem visit_eq (backup : RegistersMap) (bank : Bank) (r : Restoring) (address : UInt16) :
    r.visit backup (number bank) address =
      { map := r.map.setValue (number bank) address (backup.cell (bank, address))
        writes := r.writes ++
          if changed backup r.map bank address then [(address, backup.cell (bank, address))]
          else [] } := by
  unfold Restoring.visit changed
  rw [getValue_cell, getValue_cell]
  have second : number bank = 1 ↔ bank = .b := by cases bank <;> simp [number]
  simp only [second]
  congr 1
  by_cases low : bank = .b ∧ address < 0x0100
  · simp [low]
  · by_cases same : backup.cell (bank, address) = r.map.cell (bank, address)
    · simp [low, same]
    · simp [low, same]

theorem visitAll (backup : RegistersMap) (bank : Bank) (sorted : used.Pairwise (· < ·))
    (r : Restoring) :
    (∀ c, (used.foldl (Restoring.visit backup (number bank)) r).map.cell c =
      if c.1 = bank ∧ c.2 ∈ used then backup.cell c else r.map.cell c) ∧
    (used.foldl (Restoring.visit backup (number bank)) r).writes =
      r.writes ++ (used.filter (changed backup r.map bank)).map
        fun a => (a, backup.cell (bank, a)) := by
  induction used generalizing r with
  | nil => simp
  | cons a rest ih =>
    rw [List.pairwise_cons] at sorted
    obtain ⟨cells, writes⟩ := ih sorted.2 (r.visit backup (number bank) a)
    rw [visit_eq] at cells writes
    have later : ∀ x ∈ rest, changed backup
        (r.map.setValue (number bank) a (backup.cell (bank, a))) bank x =
          changed backup r.map bank x := by
      intro x member
      have apart : (bank, x) ≠ (bank, a) :=
        fun same => ne_of_gt (sorted.1 x member) (Prod.mk.inj same).2
      rw [changed, setValue_cell, if_neg apart, changed]
    rw [List.foldl_cons, visit_eq]
    constructor
    · intro c
      rw [cells c]
      change (if c.1 = bank ∧ c.2 ∈ rest then backup.cell c
        else (r.map.setValue (number bank) a (backup.cell (bank, a))).cell c) = _
      rw [setValue_cell]
      obtain ⟨bank', x⟩ := c
      by_cases here : bank' = bank
      · subst here
        by_cases first : x = a
        · simp [first]
        · simp [first]
      · simp [here]
    · rw [writes, List.filter_congr later, List.append_assoc, List.filter_cons]
      congr 1
      by_cases changes : changed backup r.map bank a
      · simp [changes]
      · simp [changes]

theorem restoreChannel_eq (sorted : used.Pairwise (· < ·)) (s : LMS7002M) (backup : RegistersMap)
    (bank : Bank) :
    ∃ m : RegistersMap,
      (∀ c, m.cell c =
        if c.1 = bank ∧ c.2 ∈ used then backup.cell c else s.mRegistersMap.cell c) ∧
      s.restoreChannel backup used (number bank) =
        ((({ s with mRegistersMap := m } : LMS7002M).setActiveChannel
          (if bank = .a then 1 else 2)).spiWriteBatch
            ((used.filter (changed backup s.mRegistersMap bank)).map
              fun a => (a, backup.cell (bank, a))) true 0).2 := by
  obtain ⟨cells, writes⟩ := visitAll backup bank sorted ⟨s.mRegistersMap, []⟩
  refine ⟨_, cells, ?_⟩
  unfold restoreChannel
  simp only [writes, List.nil_append]
  cases bank <;> rfl

variable {m : RegistersMap} {a : UInt16}

theorem changed_iff :
    changed backup m bank a = true ↔
      ¬ (bank = .b ∧ a < 0x0100) ∧ backup.cell (bank, a) ≠ m.cell (bank, a) := by
  simp [changed, imp_iff_not_or]

theorem visited_cell {old : RegistersMap}
    (cells : ∀ c, m.cell c = if c.1 = bank ∧ c.2 ∈ used then backup.cell c else old.cell c)
    (kept : a ∉ used → old.cell (bank, a) = backup.cell (bank, a)) :
    m.cell (bank, a) = backup.cell (bank, a) := by
  rw [cells]
  by_cases listed : a ∈ used
  · rw [if_pos ⟨rfl, listed⟩]
  · rw [if_neg fun both => listed both.2]
    exact kept listed

theorem unchanged_cell (there : ¬ (bank = .b ∧ a < 0x0100))
    (kept : a ∉ used → m.cell (bank, a) = backup.cell (bank, a))
    (out : a ∉ used.filter (changed backup m bank)) : m.cell (bank, a) = backup.cell (bank, a) := by
  by_cases listed : a ∈ used
  · by_contra other
    exact out (List.mem_filter.mpr ⟨listed, changed_iff.mpr ⟨there, Ne.symm other⟩⟩)
  · exact kept listed

theorem changed_small
    (small : ∀ a, ¬ a < 0x8000 → m.cell (bank, a) = backup.cell (bank, a)) :
    ∀ w ∈ (used.filter (changed backup m bank)).map fun a => (a, backup.cell (bank, a)),
      w.1 < 0x8000 := by
  intro w listed
  obtain ⟨a, inside, rfl⟩ := List.mem_map.mp listed
  by_contra large
  exact (changed_iff.mp (List.mem_filter.mp inside).2).2 (small a large).symm

/-- The first round restores bank A in the map and on the chip, whatever bank the chip has selected:
    the MAC bits are written before what depends on them. -/
theorem restoreFirst {s : MapSession} (inv : s.Inv backup) (mac : backup.mac = 1) (c : Cell) :
    (s.lms.restoreChannel backup (s.used.get 0) 0).mRegistersMap.cell c =
        (if c.1 = .a then backup.cell c else s.lms.mRegistersMap.cell c) ∧
      (s.lms.restoreChannel backup (s.used.get 0) 0).chip.cell c =
        if c.1 = .a then backup.cell c else s.lms.chip.cell c := by
  have sorted := s.used.get_sorted .a
  have member := s.used.mem_get .a
  change (s.used.get 0).Pairwise (· < ·) at sorted
  change ∀ a, a ∈ s.used.get 0 ↔ s.used.has (.a, a) = true at member
  obtain ⟨m, cells, restored⟩ := restoreChannel_eq sorted s.lms backup .a
  change s.lms.restoreChannel backup (s.used.get 0) 0 = _ at restored
  rw [if_pos rfl] at restored
  let D := (s.used.get 0).filter (changed backup s.lms.mRegistersMap .a)
  let t : LMS7002M := { s.lms with mRegistersMap := m }
  have kept (a : UInt16) (unused : a ∉ s.used.get 0) :
      s.lms.mRegistersMap.cell (.a, a) = backup.cell (.a, a) :=
    inv.kept _ (Bool.eq_false_iff.mpr fun has => unused ((member a).mpr has))
  have bankA (a : UInt16) : m.cell (.a, a) = backup.cell (.a, a) := visited_cell cells (kept a)
  have bankB (a : UInt16) : m.cell (.b, a) = s.lms.mRegistersMap.cell (.b, a) := by
    rw [cells, if_neg fun both => by cases both.1]
  have unchanged (a : UInt16) (out : a ∉ D) : s.lms.chip.cell (.a, a) = backup.cell (.a, a) := by
    rw [← inv.agrees (.a, a) fun none => by cases none.1]
    exact unchanged_cell (fun low => by cases low.1) (kept a) out
  obtain ⟨only, active, right⟩ := setActiveChannel_spec t 1
  -- Where the register with the MAC bits is not written again, it was right before.
  have settled (out : macAddress ∉ D) :
      (t.setActiveChannel 1).mRegistersMap.cell macCell = backup.cell macCell ∧
        (t.setActiveChannel 1).chip.cell macCell = backup.cell macCell := by
    have same : t.mRegistersMap.cell macCell = t.chip.cell macCell :=
      (bankA macAddress).trans (unchanged macAddress out).symm
    obtain ⟨both, still⟩ := right same
    have here : t.mRegistersMap.mac = 1 := by
      rw [RegistersMap.mac_eq] at mac ⊢
      exact (congrArg (· &&& 0x0003) (bankA macAddress)).trans mac
    have value := (still here).trans (bankA macAddress)
    exact ⟨value, both.symm.trans value⟩
  have small : ∀ w ∈ D.map fun a => (a, backup.cell (.a, a)), w.1 < 0x8000 :=
    changed_small fun a large => inv.small (.a, a) large
  obtain ⟨map, chip, _⟩ := spiWriteBatch_forced (t.setActiveChannel 1) small
  have sortedD : D.Pairwise (· < ·) := sorted.filter _
  have selects : macAddress ∈ D → backup.cell (.a, macAddress) &&& 0x0003 = 1 := fun _ => mac
  have mapMac : (t.setActiveChannel 1).mRegistersMap.asChip.mac = 1 := active
  have mapCell :=
    Chip.writeAll_bankA (f := fun a => backup.cell (.a, a)) sortedD selects (.inl mapMac) c
  have chipMac : (t.setActiveChannel 1).chip.mac = 1 ∨ macAddress ∈ D := by
    by_cases inside : macAddress ∈ D
    · exact .inr inside
    · refine .inl ?_
      rw [Chip.mac_eq, (settled inside).2]
      exact mac
  have chipCell := Chip.writeAll_bankA (f := fun a => backup.cell (.a, a)) sortedD selects chipMac c
  rw [restored, ← RegistersMap.asChip_cell, map, chip, mapCell, chipCell, RegistersMap.asChip_cell]
  obtain ⟨bank, a⟩ := c
  cases bank with
  | a =>
    by_cases inside : a ∈ D
    · simp [inside]
    · simp only [inside, and_false, if_false, if_true]
      by_cases here : a = macAddress
      · subst here
        exact settled inside
      · have apart : ((.a, a) : Cell) ≠ macCell := fun same => here (Prod.mk.inj same).2
        rw [only.map _ apart, only.chip _ apart]
        exact ⟨bankA a, unchanged a inside⟩
  | b =>
    have apart : ((.b, a) : Cell) ≠ macCell := nofun
    simp only [reduceCtorEq, false_and, if_false]
    rw [only.map _ apart, only.chip _ apart]
    exact ⟨bankB a, rfl⟩

theorem restoreSecond (sorted : used.Pairwise (· < ·)) (s : LMS7002M) (agrees : s.Agrees absent)
    (kept : ∀ a, a ∉ used → s.mRegistersMap.cell (.b, a) = backup.cell (.b, a))
    (small : ∀ a, ¬ a < 0x8000 → s.mRegistersMap.cell (.b, a) = backup.cell (.b, a)) :
    (s.restoreChannel backup used 1).Agrees absent ∧
      ∀ c, c ≠ macCell → c ∉ absent → (s.restoreChannel backup used 1).chip.cell c =
        if c.1 = .b then backup.cell c else s.chip.cell c := by
  obtain ⟨m, cells, restored⟩ := restoreChannel_eq sorted s backup .b
  change s.restoreChannel backup used 1 = _ at restored
  rw [if_neg (by decide)] at restored
  let D := used.filter (changed backup s.mRegistersMap .b)
  let t : LMS7002M := { s with mRegistersMap := m }
  have bankA (a : UInt16) : m.cell (.a, a) = s.mRegistersMap.cell (.a, a) := by
    rw [cells, if_neg fun both => by cases both.1]
  have bankB (a : UInt16) : m.cell (.b, a) = backup.cell (.b, a) := visited_cell cells (kept a)
  have unchanged (a : UInt16) (high : ¬ a < 0x0100) (out : a ∉ D) :
      s.chip.cell (.b, a) = backup.cell (.b, a) := by
    rw [← agrees (.b, a) fun none => high none.2]
    exact unchanged_cell (fun low => high low.2) (kept a) out
  obtain ⟨only, active, right⟩ := setActiveChannel_spec t 2
  have same : t.mRegistersMap.cell macCell = t.chip.cell macCell :=
    (bankA macAddress).trans (agrees macCell macCell_exists)
  have both := (right same).1
  have smallD : ∀ w ∈ D.map fun a => (a, backup.cell (.b, a)), w.1 < 0x8000 := changed_small small
  have high : ∀ a ∈ D, ¬ a < 0x0100 :=
    fun a inside low => (changed_iff.mp (List.mem_filter.mp inside).2).1 ⟨rfl, low⟩
  obtain ⟨map, chip, _⟩ := spiWriteBatch_forced (t.setActiveChannel 2) smallD
  have mapMac : (t.setActiveChannel 2).mRegistersMap.asChip.mac = 2 := active
  have chipMac : (t.setActiveChannel 2).chip.mac = 2 := by
    rw [Chip.mac_eq, ← both]
    exact active
  have mapCell := Chip.writeAll_bankB (f := fun a => backup.cell (.b, a)) high mapMac
  have chipCell := Chip.writeAll_bankB (f := fun a => backup.cell (.b, a)) high chipMac
  have chipBank (c : Cell) (apart : c ≠ macCell) (there : c ∉ absent) :
      (s.restoreChannel backup used 1).chip.cell c =
        if c.1 = .b then backup.cell c else s.chip.cell c := by
    rw [restored, chip, chipCell c]
    obtain ⟨bank, a⟩ := c
    cases bank with
    | a => simp [only.chip _ apart, t]
    | b =>
      by_cases inside : a ∈ D
      · simp [inside]
      · simp only [inside, and_false, if_false, if_true, only.chip _ apart]
        exact unchanged a (fun low => there ⟨rfl, low⟩) inside
  refine ⟨?_, chipBank⟩
  intro c there
  by_cases apart : c = macCell
  · have low : macAddress ∉ D := fun inside => high _ inside (by decide)
    subst apart
    rw [restored, ← RegistersMap.asChip_cell, map, chip, mapCell macCell, chipCell macCell,
      RegistersMap.asChip_cell]
    exact both
  · rw [chipBank c apart there, restored, ← RegistersMap.asChip_cell, map, mapCell c,
      RegistersMap.asChip_cell]
    obtain ⟨bank, a⟩ := c
    cases bank with
    | a =>
      simp only [reduceCtorEq, false_and, if_false, only.map _ apart]
      exact (bankA a).trans (agrees (.a, a) there)
    | b =>
      by_cases inside : a ∈ D
      · simp [inside]
      · simp only [inside, and_false, if_false, if_true, only.map _ apart]
        exact bankB a

end LMS7002M

namespace MapSession

open LMS7002M

def backup (s : MapSession) : RegistersMap × MapSession :=
  (s.lms.backupRegisterMap.1, { s with lms := s.lms.backupRegisterMap.2 })

def restore (s : MapSession) (backup : RegistersMap) : LMS7002M :=
  s.lms.restoreRegisterMap backup s.used.get

theorem getActiveChannel_spec {t : LMS7002M} (agrees : t.Agrees absent) (fromChip : Bool) :
    (t.getActiveChannel fromChip).1 = t.chip.mac ∧
      (t.getActiveChannel fromChip).2.chip = t.chip ∧
      ∀ c, (t.getActiveChannel fromChip).2.mRegistersMap.cell c = t.mRegistersMap.cell c := by
  obtain ⟨only, chip, stored, known⟩ := spiRead_mac t fromChip
  have value := known (agrees macCell macCell_exists)
  rw [getActiveChannel_eq]
  refine ⟨?_, chip, ?_⟩
  · rw [value, agrees macCell macCell_exists]
    rfl
  · intro c
    by_cases here : c = macCell
    · rw [here, stored, value]
    · exact only.map c here

theorem mac_idem (register : UInt16) : register &&& 0x0003 &&& 0x0003 = register &&& 0x0003 := by
  rw [UInt16.and_assoc, UInt16.and_self]

theorem backup_spec {s : MapSession} (agrees : s.lms.Agrees absent)
    (mac : s.used.has macCell = true) :
    s.backup.2.Inv s.backup.1 ∧ s.backup.1.mac = 1 ∧
      ∀ c, c ≠ macCell → s.backup.1.cell c = s.lms.mRegistersMap.cell c := by
  obtain ⟨_, chip, cells⟩ := getActiveChannel_spec agrees true
  let t := (s.lms.getActiveChannel true).2
  have agrees₁ : t.Agrees absent := by
    intro c there
    have same := agrees c there
    rw [← cells c] at same
    exact same.trans (congrArg (fun chip => Chip.cell chip c) chip.symm)
  obtain ⟨only₂, active, right₂⟩ := setActiveChannel_spec t 1
  have agrees₂ := only₂.agrees agrees₁ (right₂ (agrees₁ _ macCell_exists)).1
  obtain ⟨only₃, _, right₃⟩ := setActiveChannel_spec (t.setActiveChannel 1)
    (s.lms.getActiveChannel true).1
  have agrees₃ := only₃.agrees agrees₂ (right₃ (agrees₂ _ macCell_exists)).1
  refine ⟨⟨agrees₃, mac, ?_, ?_⟩, active, ?_⟩
  · intro c none
    apply only₃.map c
    intro here
    rw [here] at none
    exact Bool.false_ne_true (none.symm.trans mac)
  · intro c large
    apply only₃.map c
    intro here
    rw [here] at large
    exact large (by decide)
  · intro c apart
    exact (only₂.map c apart).trans (cells c)

/-- After the restore every register has in each bank the value of the backup, but for the one with
    the MAC bits, which select the channel selected just before. -/
theorem register_map_restored {s s' : MapSession} (agrees : s.lms.Agrees absent)
    (mac : s.used.has macCell = true) (run : Runs Step Tracked s.backup.2 s') :
    (∀ c, c ∉ absent → c ≠ macCell →
      (s'.restore s.backup.1).chip.cell c = s.lms.chip.cell c) ∧
    (s'.restore s.backup.1).Agrees absent ∧
    (s'.restore s.backup.1).chip.mac = s'.lms.chip.mac := by
  obtain ⟨start, backupMac, saved⟩ := backup_spec agrees mac
  have step : ∀ x call x', x.Inv s.backup.1 → x.Tracked call → Step x call x' →
      x'.Inv s.backup.1 := fun _ _ _ inv => inv.step
  have inv : s'.Inv s.backup.1 := run.keeps step start
  obtain ⟨channel, chip, cells⟩ := getActiveChannel_spec inv.agrees true
  let t : MapSession := { s' with lms := (s'.lms.getActiveChannel true).2 }
  have chipCell (c : Cell) : t.lms.chip.cell c = s'.lms.chip.cell c :=
    congrArg (fun chip => Chip.cell chip c) chip
  have invT : t.Inv s.backup.1 := by
    constructor
    · intro c there
      exact (cells c).trans ((inv.agrees c there).trans (chipCell c).symm)
    · exact inv.mac
    · exact fun c none => (cells c).trans (inv.kept c none)
    · exact fun c large => (cells c).trans (inv.small c large)
  let u := t.lms.restoreChannel s.backup.1 (s'.used.get 0) 0
  have first (c : Cell) : _ := restoreFirst invT backupMac c
  have agreesU : u.Agrees absent := by
    intro c there
    refine (first c).1.trans (Eq.trans ?_ (first c).2.symm)
    obtain ⟨bank, a⟩ := c
    cases bank with
    | a => rfl
    | b => exact invT.agrees _ there
  have bankB (a : UInt16) : u.mRegistersMap.cell (.b, a) = t.lms.mRegistersMap.cell (.b, a) :=
    (first (.b, a)).1
  have kept (a : UInt16) (out : a ∉ s'.used.get 1) :
      u.mRegistersMap.cell (.b, a) = s.backup.1.cell (.b, a) := by
    refine (bankB a).trans (invT.kept _ (Bool.eq_false_iff.mpr ?_))
    exact fun has => out ((s'.used.mem_get .b a).mpr has)
  have small (a : UInt16) (large : ¬ a < 0x8000) :
      u.mRegistersMap.cell (.b, a) = s.backup.1.cell (.b, a) :=
    (bankB a).trans (invT.small _ large)
  obtain ⟨agreesV, second⟩ := restoreSecond (s'.used.get_sorted .b) u agreesU kept small
  let v := u.restoreChannel s.backup.1 (s'.used.get 1) 1
  obtain ⟨only, active, right⟩ := setActiveChannel_spec v (s'.lms.getActiveChannel true).1
  have both := (right (agreesV _ macCell_exists)).1
  have restored : s'.restore s.backup.1 = v.setActiveChannel (s'.lms.getActiveChannel true).1 := rfl
  rw [restored]
  refine ⟨?_, only.agrees agreesV both, ?_⟩
  · intro c there apart
    rw [only.chip c apart, ← agrees c there, ← saved c apart]
    refine (second c apart there).trans ?_
    obtain ⟨bank, a⟩ := c
    cases bank with
    | a => exact (first (.a, a)).2
    | b => rfl
  · rw [Chip.mac_eq, ← both]
    refine Eq.trans active ?_
    rw [channel]
    exact mac_idem _

def ones : MapSession :=
  { lms := ⟨⟨fun _ => 1, fun _ => 1⟩, true, ⟨fun _ => 1, fun _ => 1⟩⟩
    used := ⟨⟨[(0x0020, ()), (0x0100, ())], by decide⟩, ⟨[(0x0100, ())], by decide⟩⟩ }

theorem ones_agrees : ones.lms.Agrees absent :=
  fun c _ => by rcases c with ⟨_ | _, _⟩ <;> rfl

theorem register_map_restored_channelB :
    let s := (ones.backup.2.perform (.setActiveChannel 2)).perform (.spiWrite 0x0100 2 false)
    s.lms.chip.bankB 0x0100 = 2 ∧ (s.restore ones.backup.1).chip.bankB 0x0100 = 1 ∧
      (s.restore ones.backup.1).chip.mac = 2 := by
  have first : ones.backup.2.Tracked (.setActiveChannel 2) := trivial
  have second : (ones.backup.2.perform (.setActiveChannel 2)).Tracked (.spiWrite 0x0100 2 false) :=
    ⟨by decide, by decide, by decide⟩
  obtain ⟨cells, _, mac⟩ := register_map_restored ones_agrees (by decide)
    ((Runs.refl.tail rfl first).tail rfl second)
  exact ⟨by decide, cells (.b, 0x0100) (fun low => absurd low.2 (by decide)) (by decide),
    mac.trans (by decide)⟩

/-- The register of bank B is written, then read from the chip while both banks are selected. -/
def lostTrack : MapSession :=
  (((ones.backup.2.perform (.setActiveChannel 2)).perform (.spiWrite 0x0100 2 false)).perform
    (.setActiveChannel 3)).perform (.spiRead 0x0100 true)

/-- The map has taken the value in bank A for the one in bank B, and nothing is written back. -/
theorem register_map_not_restored :
    ones.lms.chip.bankB 0x0100 = 1 ∧ (lostTrack.restore ones.backup.1).chip.bankB 0x0100 = 2 ∧
      (lostTrack.restore ones.backup.1).mRegistersMap.mChannelB 0x0100 = 1 := by
  decide

end MapSession

end Soapy.Lime
