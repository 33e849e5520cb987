import Soapy.Lime.BulkWrites
import Soapy.Lime.ChannelKept
import Soapy.Lime.DoneTransfers

/-! # Upload, download and the check agree where the banks do

All transfers are done. The check asks for the registers of channel B before it selects that
channel, so what it compares them with is in the bank of channel A.
-/

namespace Soapy.Lime

open Lib Session

/-- The values agree on the bits that can be written. -/
def Alike (address v w : UInt16) : Prop :=
  v &&& writableMask address = w &&& writableMask address

instance (address v w : UInt16) : Decidable (Alike address v w) :=
  inferInstanceAs (Decidable (_ = _))

variable (f : UInt16 → UInt16)

theorem matches_iff (addresses : List UInt16) (f g : UInt16 → UInt16) :
    matches_ (addresses.map fun a => (a, f a)) (addresses.map g) = true ↔
      ∀ a ∈ addresses, Alike a (f a) (g a) := by
  rw [matches_, List.zip_map', List.all_map, List.all_eq_true]
  exact forall₂_congr fun a _ => beq_iff_eq

variable {address : UInt16}

namespace LMS7002M

variable {s s' : LMS7002M} {register : UInt16}

structure Selected (s s' : LMS7002M) (register : UInt16) : Prop extends OnlyMac s s' where
  mapMac : s'.mRegistersMap.cell macCell = register
  chipMac : s'.chip.cell macCell = register

theorem Selected.mac (selected : Selected s s' register) :
    s'.mRegistersMap.mac = register &&& 0x0003 ∧ s'.chip.mac = register &&& 0x0003 :=
  ⟨congrArg (· &&& 0x0003) selected.mapMac, congrArg (· &&& 0x0003) selected.chipMac⟩

theorem getActiveChannel_chip (s : LMS7002M) :
    (s.getActiveChannel true).1 = s.chip.mac ∧
      Selected s (s.getActiveChannel true).2 (s.chip.cell macCell) := by
  rw [getActiveChannel_eq]
  obtain ⟨value, _⟩ := spiRead_chip (s := s) (show macAddress < 0x8000 by decide)
    (show s.asksChip macAddress true = true from rfl)
  have here : s.chip.read macAddress = s.chip.cell macCell := if_neg fun high => high.1 (by decide)
  obtain ⟨only, chip, map, _⟩ := s.spiRead_mac true
  rw [value, here] at map
  constructor
  · rw [value, here, Chip.mac_eq]
  · exact ⟨only, map, congrArg (Chip.cell · macCell) chip⟩

theorem Selected.setActiveChannel (selected : Selected s s' register) (ch : UInt16) :
    Selected s (s'.setActiveChannel ch) (replaceBits register 1 0 ch) := by
  obtain ⟨only, _, coherent⟩ := s'.setActiveChannel_spec ch
  have same := selected.mapMac.trans selected.chipMac.symm
  have map : (s'.setActiveChannel ch).mRegistersMap.cell macCell =
      replaceBits register 1 0 ch := by
    obtain ⟨_, chip, stored, known⟩ := s'.spiRead_mac false
    have value := (known same).trans selected.mapMac
    unfold LMS7002M.setActiveChannel
    rw [getActiveChannel_eq, value]
    by_cases active : ch = register &&& 0x0003
    · simp only [if_pos active]
      rw [stored, value, active, replaceBits_same]
    · simp only [if_neg active]
      obtain ⟨_, _, _, known'⟩ := (s'.spiRead macAddress false 0).2.2.spiRead_mac false
      have again :
          ((s'.spiRead macAddress false 0).2.2.spiRead macAddress false 0).1 = register := by
        rw [known' (by rw [stored, value, chip, selected.chipMac]), stored, value]
      exact (spiWrite_mac _ _).2.1.trans (congrArg (replaceBits · 1 0 ch) again)
  exact ⟨selected.toOnlyMac.trans only, map, (coherent same).1.symm.trans map⟩

theorem Selected.restore {ch : UInt16} (selected : Selected s s' (replaceBits register 1 0 ch)) :
    Selected s (s'.setActiveChannel (register &&& 0x0003)) register := by
  have restored := selected.setActiveChannel (register &&& 0x0003)
  rwa [replaceBits_again, replaceBits_same] at restored

theorem Selected.chip_eq (selected : Selected s s' (s.chip.cell macCell)) : s'.chip = s.chip := by
  apply Chip.ext_cell
  intro c
  by_cases here : c = macCell
  · rw [here, selected.chipMac]
  · exact selected.chip c here

theorem read_bankA {chip : Chip} (mac : chip.mac = 1) (address : UInt16) :
    chip.read address = chip.cell (.a, address) :=
  if_neg fun other => absurd (other.2.symm.trans mac) (by decide)

theorem read_bankB {chip : Chip} (mac : chip.mac = 2)
    (high : ¬ address < 0x0100) : chip.read address = chip.cell (.b, address) :=
  if_pos ⟨high, mac⟩

def bankWrites (s : LMS7002M) (bank : Bank) (addresses : List UInt16) : List (UInt16 × UInt16) :=
  addresses.map fun a => (a, s.mRegistersMap.cell (bank, a))

variable (s) (keys : Keys)

def AlikeA : Prop := ∀ a, keys.has (.a, a) = true → a ≠ macAddress →
  Alike a (s.mRegistersMap.cell (.a, a)) (s.chip.cell (.a, a))

def AlikeB : Prop := ∀ a, keys.has (.b, a) = true →
  Alike a (s.mRegistersMap.cell (.b, a)) (s.chip.cell (.b, a))

def AlikeAcross : Prop := ∀ a, keys.has (.b, a) = true →
  Alike a (s.mRegistersMap.cell (.b, a)) (s.chip.cell (.a, a))

def AllAlike : Prop := ∀ c, keys.has c = true →
  Alike c.2 (s.mRegistersMap.cell c) (s.chip.cell c)

theorem allAlike_iff : s.AllAlike keys ↔ s.AlikeA keys ∧
    s.mRegistersMap.cell macCell = s.chip.cell macCell ∧ s.AlikeB keys := by
  have whole (v : UInt16) : v &&& writableMask macAddress = v := by
    have mask : writableMask macAddress = 0xFFFF := by decide
    rw [mask]
    exact UInt16.and_neg_one
  constructor
  · intro alike
    refine ⟨fun a used _ => alike (.a, a) used, ?_, fun a used => alike (.b, a) used⟩
    have here : Alike macAddress _ _ := alike macCell keys.mac
    unfold Alike at here
    rwa [whole, whole] at here
  · intro ⟨alikeA, here, alikeB⟩ ⟨bank, a⟩ used
    cases bank with
    | b => exact alikeB a used
    | a =>
      by_cases mac : a = macAddress
      · subst mac
        exact congrArg (· &&& writableMask macAddress) here
      · exact alikeA a used mac

end LMS7002M

theorem Keys.small_get (keys : Keys) (bank : Bank)
    (used : address ∈ keys.ofChannel (UsedAddresses.number bank)) : address < 0x8000 :=
  keys.small (bank, address) ((keys.mem_get bank address).mp used)

namespace Session

variable {b : Session} {keys : Keys}

open LMS7002M

theorem readLMS7002MSPI_done (done : b.Done) (addresses : List UInt16) :
    readLMS7002MSPI addresses b = ((0, b.lms.received addresses), b) :=
  transfer_done done _

theorem getValues_a (b : Session) (addresses : List UInt16) :
    getValues 0 addresses b = (b.lms.bankWrites .a addresses, b) := rfl

theorem getValues_b (b : Session) (addresses : List UInt16) :
    getValues 1 addresses b = (b.lms.bankWrites .b addresses, b) := rfl

theorem not_macCell_a (other : address ≠ macAddress) :
    (.a, address) ≠ macCell := fun same => other (Prod.mk.inj same).2

theorem not_macCell_b (address : UInt16) : ((.b, address) : Cell) ≠ macCell := nofun

theorem isSynced_done (keys : Keys) (done : b.Done) :
    ((isSynced keys b).1 = true ↔ b.lms.AlikeA keys ∧ b.lms.AlikeAcross keys) ∧
      ∃ s, (isSynced keys b).2 = b.on s ∧ Selected b.lms s (b.lms.chip.cell macCell) := by
  obtain ⟨ch, asked⟩ := b.lms.getActiveChannel_chip
  let s := (b.lms.getActiveChannel true).2.setActiveChannel ChA
  have first : Selected b.lms s _ := asked.setActiveChannel ChA
  let t := s.setActiveChannel ChB
  have second : Selected b.lms t (replaceBits _ 1 0 ChB) :=
    replaceBits_again (b.lms.chip.cell macCell) ChA ChB ▸ first.setActiveChannel ChB
  have mac : s.chip.mac = 1 := first.mac.2.trans (replaceBits_mac _ _)
  have received (bank : Bank) : s.received (keys.ofChannel (UsedAddresses.number bank)) =
      (keys.ofChannel (UsedAddresses.number bank)).map fun a => s.chip.cell (.a, a) := by
    rw [received_eq fun a used => keys.small_get bank used]
    exact List.map_congr_left fun a _ => read_bankA mac a
  have alikeA : matches_ (getValues 0 (keys.ofChannel 0) (b.on s)).1
      (s.received (keys.ofChannel 0)) = true ↔ b.lms.AlikeA keys := by
    rw [getValues_a, bankWrites,
      show keys.ofChannel 0 = keys.ofChannel (UsedAddresses.number .a) from rfl, received .a,
      matches_iff, on_lms]
    constructor
    · intro alike a used other
      have here := alike a ((keys.mem_get .a a).mpr used)
      rwa [first.map _ (not_macCell_a other), first.chip _ (not_macCell_a other)] at here
    · intro alike a used
      by_cases other : a = macAddress
      · subst other
        exact congrArg (· &&& _) (first.mapMac.trans first.chipMac.symm)
      · rw [first.map _ (not_macCell_a other), first.chip _ (not_macCell_a other)]
        exact alike a ((keys.mem_get .a a).mp used) other
  have alikeAcross : matches_ (getValues 1 (keys.ofChannel 1) (b.on t)).1
      (s.received (keys.ofChannel 1)) = true ↔ b.lms.AlikeAcross keys := by
    rw [getValues_b, bankWrites,
      show keys.ofChannel 1 = keys.ofChannel (UsedAddresses.number .b) from rfl, received .b,
      matches_iff, on_lms]
    have used (a : UInt16) : a ∈ keys.ofChannel (UsedAddresses.number .b) ↔
      keys.has (.b, a) = true := keys.mem_get .b a
    simp only [used]
    apply forall₂_congr
    intro a here
    have other := not_mac_high (keys.high a here)
    rw [second.map _ (not_macCell_b a), first.chip _ (not_macCell_a other)]
  rw [← alikeA, ← alikeAcross]
  unfold isSynced
  simp only [bind_run, getActiveChannel_done done, setActiveChannel_done (done.on _), on_lms, on_on,
    readLMS7002MSPI_done (done.on _), ch, ne_eq, not_true, false_or]
  cases same : matches_ (getValues 0 (keys.ofChannel 0) (b.on s)).1
      (s.received (keys.ofChannel 0)) with
  | false =>
    simp only [if_true, bind_run, getValues_run, setActiveChannel_done (done.on _), on_lms, on_on]
    exact ⟨⟨nofun, fun both => nomatch both.1⟩, _, rfl, first.restore⟩
  | true =>
    simp only [Bool.true_eq_false, if_false, bind_run, getValues_run,
      setActiveChannel_done (done.on _), on_lms, on_on, readLMS7002MSPI_done (done.on _),
      not_true]
    exact ⟨⟨fun alike => ⟨trivial, alike⟩, fun both => both.2⟩, _, rfl, second.restore⟩

end Session

variable {mac : UInt16} {bank : Bank}

namespace LMS7002M

variable {s s' : LMS7002M} {register : UInt16} {addresses : List UInt16}

structure Written (s s' : LMS7002M) (bank : Bank) (addresses : List UInt16) : Prop where
  map : ∀ c, s'.mRegistersMap.cell c = s.mRegistersMap.cell c
  chip : ∀ c, s'.chip.cell c =
    if c.1 = bank ∧ c.2 ∈ addresses then s.mRegistersMap.cell c else s.chip.cell c
  useCache : s'.useCache = s.useCache

theorem written_of
    (means : s.mRegistersMap.mac = mac ∧ s.chip.mac = mac) (small : ∀ a ∈ addresses, a < 0x8000)
    (lands : ∀ chip : Chip, chip.mac = mac → ∀ c, (chip.writeAll (s.bankWrites bank addresses)).cell
      c = if c.1 = bank ∧ c.2 ∈ addresses then s.mRegistersMap.cell (bank, c.2) else chip.cell c) :
    Written s (s.spiWriteBatch (s.bankWrites bank addresses) true 0).2 bank addresses := by
  have fits : ∀ w ∈ s.bankWrites bank addresses, w.1 < 0x8000 := List.forall_mem_map.mpr small
  obtain ⟨map, chip, useCache⟩ := s.spiWriteBatch_forced fits
  have value (c : Cell) (here : c.1 = bank ∧ c.2 ∈ addresses) :
      s.mRegistersMap.cell (bank, c.2) = s.mRegistersMap.cell c := by rw [← here.1]
  refine ⟨fun c => ?_, fun c => ?_, useCache⟩
  · have same := lands s.mRegistersMap.asChip means.1 c
    rw [RegistersMap.asChip_cell] at same
    rw [← RegistersMap.asChip_cell, map, same]
    split
    · rename_i here
      exact value c here
    · rfl
  · rw [chip, lands _ means.2]
    split
    · rename_i here
      exact value c here
    · rfl

theorem written_bankA (means : s.mRegistersMap.mac = 1 ∧ s.chip.mac = 1)
    (sorted : addresses.Pairwise (· < ·)) (other : macAddress ∉ addresses)
    (small : ∀ a ∈ addresses, a < 0x8000) :
    Written s (s.spiWriteBatch (s.bankWrites .a addresses) true 0).2 .a addresses :=
  written_of means small fun _ mac =>
    Chip.writeAll_bankA sorted (fun here => absurd here other) (.inl mac)

theorem written_bankB (means : s.mRegistersMap.mac = 2 ∧ s.chip.mac = 2)
    (high : ∀ a ∈ addresses, ¬ a < 0x0100) (small : ∀ a ∈ addresses, a < 0x8000) :
    Written s (s.spiWriteBatch (s.bankWrites .b addresses) true 0).2 .b addresses :=
  written_of means small fun _ mac => Chip.writeAll_bankB high mac

theorem Selected.refl (map : s.mRegistersMap.cell macCell = register)
    (chip : s.chip.cell macCell = register) : Selected s s register :=
  ⟨⟨fun _ _ => rfl, fun _ _ => rfl, rfl⟩, map, chip⟩

theorem Written.selected (written : Written s s' bank addresses)
    (outside : ¬ (macCell.1 = bank ∧ macCell.2 ∈ addresses))
    (map : s.mRegistersMap.cell macCell = register) (chip : s.chip.cell macCell = register) :
    Selected s' s' register :=
  .refl ((written.map macCell).trans map) (by rw [written.chip, if_neg outside, chip])

end LMS7002M

namespace Session

variable {b : Session}

open LMS7002M

structure Uploaded (keys : Keys) (s s' : LMS7002M) : Prop where
  map : ∀ c, c ≠ macCell → s'.mRegistersMap.cell c = s.mRegistersMap.cell c
  chip : ∀ c, c ≠ macCell →
    s'.chip.cell c = if keys.has c then s.mRegistersMap.cell c else s.chip.cell c
  mac : s'.chip.cell macCell = s.chip.cell macCell

theorem uploadAll_done (keys : Keys) (done : b.Done) :
    ∃ s, (uploadAll keys b).2 = b.on s ∧ Uploaded keys b.lms s := by
  obtain ⟨ch, asked⟩ := b.lms.getActiveChannel_chip
  let addresses := (keys.ofChannel 0).erase macAddress
  let register := b.lms.chip.cell macCell
  let s₁ := (b.lms.getActiveChannel true).2.setActiveChannel ChA
  have first : Selected b.lms s₁ (replaceBits register 1 0 ChA) := asked.setActiveChannel ChA
  let s₂ := (s₁.spiWriteBatch (s₁.bankWrites .a addresses) true 0).2
  have writtenA : Written s₁ s₂ .a addresses :=
    written_bankA ⟨first.mac.1.trans (replaceBits_mac _ _), first.mac.2.trans (replaceBits_mac _ _)⟩
      (keys.sorted.sublist List.erase_sublist) (fun used => keys.not_mac used rfl)
      (fun a used => keys.small_get .a (List.mem_of_mem_erase used))
  let s₃ := (s₂.spiWrite macAddress register false 0).2
  have third : Selected s₂ s₃ register := by
    obtain ⟨only, map, chip⟩ := s₂.spiWrite_mac register
    have same := writtenA.selected (fun used => keys.not_mac used.2 rfl) first.mapMac first.chipMac
    exact ⟨only, map, chip (same.mapMac.trans same.chipMac.symm)⟩
  let s₄ := (s₃.setActiveChannel ChB).setActiveChannel ChB
  have fourth : Selected s₂ s₄ (replaceBits register 1 0 ChB) := by
    have twice := (third.setActiveChannel ChB).setActiveChannel ChB
    rwa [replaceBits_again] at twice
  let s₅ := (s₄.spiWriteBatch (s₄.bankWrites .b (keys.ofChannel 1)) true 0).2
  have writtenB : Written s₄ s₅ .b (keys.ofChannel 1) :=
    written_bankB
      ⟨fourth.mac.1.trans (replaceBits_mac _ _), fourth.mac.2.trans (replaceBits_mac _ _)⟩
      (fun a used => keys.high_get used) (fun a used => keys.small_get .b used)
  let s₆ := s₅.setActiveChannel b.lms.chip.mac
  have last : Selected s₅ s₆ register :=
    (writtenB.selected nofun fourth.mapMac fourth.chipMac).restore
  refine ⟨s₆, ?_, fun c other => ?_, fun c other => ?_, last.chipMac⟩
  · have values : (s₃.setActiveChannel ChB).bankWrites .b (keys.ofChannel 1) =
        s₄.bankWrites .b (keys.ofChannel 1) := by
      apply List.map_congr_left
      intro a _
      rw [((s₃.setActiveChannel ChB).setActiveChannel_spec ChB).1.map _ (not_macCell_b a)]
    have asks : (b.lms.getActiveChannel true).2.mRegistersMap.getValue 0 macAddress = register :=
      asked.mapMac
    unfold uploadAll
    simp only [bind_run, getActiveChannel_done done, getValue_run, on_lms, asks,
      setActiveChannel_done (done.on _), on_on, getValues_a, spiWriteBatch_done (done.on _), ne_eq,
      not_true, if_false, spiWrite_done (done.on _), getValues_b, ch, pure_run]
    change b.on ((s₄.spiWriteBatch ((s₃.setActiveChannel ChB).bankWrites .b (keys.ofChannel 1)) true
      0).2.setActiveChannel b.lms.chip.mac) = b.on s₆
    rw [values]
  · rw [last.map c other, writtenB.map, fourth.map c other, writtenA.map, first.map c other]
  · rw [last.chip c other, writtenB.chip, fourth.chip c other, writtenA.chip, first.chip c other,
      fourth.map c other, writtenA.map, first.map c other]
    obtain ⟨bank, a⟩ := c
    cases bank with
    | a =>
      have apart : a ≠ macAddress := fun mac => other (congrArg (Prod.mk Bank.a) mac)
      have used : a ∈ addresses ↔ keys.has (.a, a) = true :=
        (List.mem_erase_of_ne apart).trans (keys.mem_get .a a)
      simp [used]
    | b =>
      have used : a ∈ keys.ofChannel 1 ↔ keys.has (.b, a) = true := keys.mem_get .b a
      simp [used]

end Session

namespace LMS7002M

variable {s s' : LMS7002M} {register : UInt16} {addresses : List UInt16}

structure Fetched (s s' : LMS7002M) (bank : Bank) (addresses : List UInt16) : Prop where
  map : ∀ c, s'.mRegistersMap.cell c =
    if c.1 = bank ∧ c.2 ∈ addresses then s.chip.read c.2 else s.mRegistersMap.cell c
  chip : s'.chip = s.chip
  useCache : s'.useCache = s.useCache

theorem storeAll_cell (mac : UInt16) (addresses : List UInt16) (m : RegistersMap) (c : Cell) :
    ((addresses.map fun a => (a, f a)).foldl (fun m v => m.store (selectsA mac v.1)
      (selectsB mac v.1) v.1 v.2) m).cell c =
        if c.2 ∈ addresses ∧ c ∈ selected mac c.2 then f c.2 else m.cell c := by
  induction addresses generalizing m with
  | nil => simp
  | cons a rest ih =>
    rw [List.map_cons, List.foldl_cons, ih, RegistersMap.store_cell]
    by_cases later : c.2 ∈ rest ∧ c ∈ selected mac c.2
    · rw [if_pos later, if_pos ⟨List.mem_cons_of_mem _ later.1, later.2⟩]
    · rw [if_neg later]
      by_cases here : c ∈ selected mac a
      · have same : c.2 = a := here.1
        rw [if_pos here, if_pos ⟨same ▸ List.mem_cons_self, same ▸ here⟩, same]
      · rw [if_neg here, if_neg]
        intro ⟨member, means⟩
        cases List.mem_cons.mp member with
        | inl head => exact here (head ▸ means)
        | inr tail => exact later ⟨tail, means⟩

theorem setAll_cell (bank : Bank) (addresses : List UInt16) (m : RegistersMap) (c : Cell) :
    ((addresses.map fun a => (a, f a)).foldl (fun m v => m.setValue (UsedAddresses.number bank)
      v.1 v.2) m).cell c = if c.1 = bank ∧ c.2 ∈ addresses then f c.2 else m.cell c := by
  have once (m : RegistersMap) (a v : UInt16) :
      (m.setValue (UsedAddresses.number bank) a v).cell c =
        if c = (bank, a) then v else m.cell c := by
    obtain ⟨bank', a'⟩ := c
    cases bank with
    | a => cases bank' <;> simp [UsedAddresses.number, RegistersMap.setValue, RegistersMap.cell,
        Function.update_apply]
    | b => cases bank' <;> simp [UsedAddresses.number, RegistersMap.setValue, RegistersMap.cell,
        Function.update_apply]
  induction addresses generalizing m with
  | nil => simp
  | cons a rest ih =>
    rw [List.map_cons, List.foldl_cons, ih, once]
    obtain ⟨bank', a'⟩ := c
    by_cases same : bank' = bank
    · by_cases later : a' ∈ rest
      · simp [same, later]
      · by_cases here : a' = a
        · simp [same, here]
        · simp [same, later, here]
    · simp [same]

def fetch (s : LMS7002M) (bank : Bank) (addresses : List UInt16) : LMS7002M :=
  let values := addresses.zip (s.received addresses)
  let s := s.refresh values
  { s with
    mRegistersMap := values.foldl (fun m v => m.setValue (UsedAddresses.number bank) v.1 v.2)
      s.mRegistersMap }

theorem fetched (small : ∀ a ∈ addresses, a < 0x8000)
    (only : ∀ a ∈ addresses, ∀ c, c ∈ selected s.mRegistersMap.mac a → c.1 = bank) :
    Fetched s (s.fetch bank addresses) bank addresses := by
  have values :
      addresses.zip (s.received addresses) = addresses.map fun a => (a, s.chip.read a) := by
    have mapped : (addresses.map id).zip (addresses.map s.chip.read) =
        addresses.map fun a => (a, s.chip.read a) := List.zip_map'
    rwa [List.map_id, ← received_eq small] at mapped
  refine ⟨fun c => ?_, rfl, rfl⟩
  unfold fetch refresh
  rw [values]
  simp only [setAll_cell, storeAll_cell]
  by_cases here : c.1 = bank ∧ c.2 ∈ addresses
  · rw [if_pos here, if_pos here]
  · rw [if_neg here, if_neg here, if_neg]
    intro ⟨member, means⟩
    exact here ⟨only _ member c means, member⟩

/-- The map says that channel A is active, and the driver believes it. -/
def Believes (s : LMS7002M) : Prop := s.useCache = true ∧ s.mRegistersMap.mac = ChA

instance (s : LMS7002M) : Decidable s.Believes := inferInstanceAs (Decidable (_ ∧ _))

def askedMac (s : LMS7002M) : UInt16 := if s.useCache then s.mRegistersMap.mac else s.chip.mac

theorem spiRead_mac_cached (cached : s.useCache = true) :
    s.spiRead macAddress false 0 = (s.mRegistersMap.cell macCell, none, s) := by
  have here : ¬ s.asksChip macAddress false = true := by
    rw [asksChip, cached]
    decide
  have low : s.cached macAddress = s.mRegistersMap.cell macCell :=
    congrArg (s.mRegistersMap.getValue · macAddress) (if_neg fun high => high.1 (by decide))
  rw [spiRead_cached here, low]

theorem getActiveChannel_askedMac (s : LMS7002M) :
    (s.getActiveChannel false).1 = s.askedMac ∧
      (s.useCache = true → (s.getActiveChannel false).2 = s) ∧
      (s.useCache = false → Selected s (s.getActiveChannel false).2 (s.chip.cell macCell)) := by
  rw [getActiveChannel_eq, askedMac]
  cases cached : s.useCache with
  | true =>
    rw [spiRead_mac_cached cached]
    exact ⟨rfl, fun _ => rfl, by rintro ⟨⟩⟩
  | false =>
    have asks : s.asksChip macAddress false = true := by
      rw [asksChip, cached]
      rfl
    obtain ⟨value, chip, _⟩ := spiRead_chip (show macAddress < 0x8000 by decide) asks
    have here : s.chip.read macAddress = s.chip.cell macCell :=
      if_neg fun high => high.1 (by decide)
    obtain ⟨only, _, map, _⟩ := s.spiRead_mac false
    rw [value, here] at map ⊢
    exact ⟨rfl, (by rintro ⟨⟩), fun _ => ⟨only, map, congrArg (Chip.cell · macCell) chip⟩⟩

theorem activateA (s : LMS7002M) :
    (s.Believes → (s.getActiveChannel false).2.setActiveChannel ChA = s) ∧
      (¬ s.Believes → ∃ register, Selected s ((s.getActiveChannel false).2.setActiveChannel ChA)
        (replaceBits register 1 0 ChA)) := by
  obtain ⟨active, cachedSame, asked⟩ := s.getActiveChannel_askedMac
  constructor
  · intro ⟨cached, mac⟩
    rw [cachedSame cached, setActiveChannel]
    rw [askedMac, if_pos cached, mac] at active
    simp [active, cachedSame cached]
  · intro doubts
    cases cached : s.useCache with
    | false => exact ⟨_, (asked cached).setActiveChannel ChA⟩
    | true =>
      have other : ChA ≠ s.mRegistersMap.mac := fun mac => doubts ⟨cached, mac.symm⟩
      have run : (s.getActiveChannel false).2.setActiveChannel ChA = (s.spiWrite macAddress
          (replaceBits (s.mRegistersMap.cell macCell) 1 0 ChA) false 0).2 := by
        rw [cachedSame cached, setActiveChannel]
        rw [askedMac, if_pos cached] at active
        simp [active, if_neg other, cachedSame cached, modifySpiRegBits,
            spiRead_mac_cached cached]
      have differs : s.mRegistersMap.cell macCell ≠
          replaceBits (s.mRegistersMap.cell macCell) 1 0 ChA := by
        intro same
        have mac := replaceBits_mac (s.mRegistersMap.cell macCell) ChA
        rw [← same] at mac
        exact other mac.symm
      obtain ⟨only, map, _⟩ :=
        s.spiWrite_mac (replaceBits (s.mRegistersMap.cell macCell) 1 0 ChA)
      have chip : (s.spiWrite macAddress _ false 0).2.chip = s.chip.write macAddress _ :=
        spiWrite_chip (by decide) (.inr ⟨macCell, macCell_selected _, differs⟩)
      rw [run]
      refine ⟨_, only, map, ?_⟩
      rw [chip, (Chip.write_mac _ _).2.1]

end LMS7002M

namespace Session

variable {b : Session}

open LMS7002M

/-- Download makes the map what the chip says. Where channel A is believed to be active, its
registers are asked for in the bank that the chip takes. -/
structure Downloaded (keys : Keys) (s s' : LMS7002M) : Prop where
  chip : ∀ c, c ≠ macCell → s'.chip.cell c = s.chip.cell c
  bankA : ∀ a, keys.has (.a, a) = true → a ≠ macAddress → s'.mRegistersMap.cell (.a, a) =
    if s.Believes then s.chip.read a else s.chip.cell (.a, a)
  bankB : ∀ a, keys.has (.b, a) = true → s'.mRegistersMap.cell (.b, a) = s.chip.cell (.b, a)
  mac : s'.chip.mac = s.askedMac

theorem only_bankA (means : mac = 1) (a : UInt16) (c : Cell)
    (member : c ∈ selected mac a) : c.1 = .a := by
  obtain ⟨bank, a'⟩ := c
  cases bank with
  | a => rfl
  | b =>
    have selects : selectsB mac a = true := member.2
    have apart : (1 : UInt16) &&& 2 = 0 := by decide
    simp [selectsB, means, apart] at selects

theorem only_bankB {a : UInt16} (means : mac = 2) (high : ¬ a < 0x0100) (c : Cell)
    (member : c ∈ selected mac a) : c.1 = .b := by
  obtain ⟨bank, a'⟩ := c
  cases bank with
  | b => rfl
  | a =>
    have selects : selectsA mac a = true := member.2
    have apart : (2 : UInt16) &&& 1 = 0 := by decide
    simp [selectsA, means, high, apart] at selects

theorem askedMac_idem (s : LMS7002M) : s.askedMac &&& 0x0003 = s.askedMac := by
  unfold askedMac
  split
  · rw [RegistersMap.mac, UInt16.and_assoc, UInt16.and_self]
  · rw [Chip.mac, UInt16.and_assoc, UInt16.and_self]

theorem setValues_a (s : LMS7002M) (addresses : List UInt16) :
    setValues 0 (addresses.zip (s.received addresses))
        (b.on (s.refresh (addresses.zip (s.received addresses)))) =
      ((), b.on (s.fetch .a addresses)) := rfl

theorem setValues_b (s : LMS7002M) (addresses : List UInt16) :
    setValues 1 (addresses.zip (s.received addresses))
        (b.on (s.refresh (addresses.zip (s.received addresses)))) =
      ((), b.on (s.fetch .b addresses)) := rfl

theorem downloadAll_done (keys : Keys) (done : b.Done) :
    ∃ s, (downloadAll keys b).2 = b.on s ∧ Downloaded keys b.lms s := by
  obtain ⟨ch, _, _⟩ := b.lms.getActiveChannel_askedMac
  obtain ⟨believes, doubts⟩ := b.lms.activateA
  let s₁ := (b.lms.getActiveChannel false).2.setActiveChannel ChA
  have mac₁ : s₁.mRegistersMap.mac = 1 := (setActiveChannel_spec _ ChA).2.1
  have chip₁ : ∀ c, c ≠ macCell → s₁.chip.cell c = b.lms.chip.cell c := by
    by_cases same : b.lms.Believes
    · rw [show s₁ = b.lms from believes same]
      exact fun _ _ => rfl
    · obtain ⟨_, first⟩ := doubts same
      exact first.chip
  have read₁ : ∀ a, a ≠ macAddress → s₁.chip.read a =
      if b.lms.Believes then b.lms.chip.read a else b.lms.chip.cell (.a, a) := by
    intro a other
    by_cases same : b.lms.Believes
    · rw [if_pos same, show s₁ = b.lms from believes same]
    · obtain ⟨_, first⟩ := doubts same
      rw [if_neg same, read_bankA (first.mac.2.trans (replaceBits_mac _ _)),
        chip₁ _ (not_macCell_a other)]
  let s₂ := s₁.fetch .a (keys.ofChannel 0)
  have second : Fetched s₁ s₂ .a (keys.ofChannel 0) :=
    fetched (fun a used => keys.small_get .a used) fun a _ => only_bankA mac₁ a
  let register := s₁.chip.cell macCell
  have coherent : Selected s₂ s₂ register := by
    refine .refl ?_ (congrArg (Chip.cell · macCell) second.chip)
    have used : macCell.2 ∈ keys.ofChannel 0 := (keys.mem_get .a macAddress).mpr keys.mac
    rw [second.map, if_pos ⟨rfl, used⟩]
    exact if_neg fun high => high.1 (by decide)
  let s₃ := s₂.setActiveChannel ChB
  have third : Selected s₂ s₃ (replaceBits register 1 0 ChB) := coherent.setActiveChannel ChB
  let s₄ := s₃.fetch .b (keys.ofChannel 1)
  have fourth : Fetched s₃ s₄ .b (keys.ofChannel 1) :=
    fetched (fun a used => keys.small_get .b used) fun a used =>
      only_bankB (third.mac.1.trans (replaceBits_mac _ _)) (keys.high_get used)
  let s₅ := s₄.setActiveChannel b.lms.askedMac
  have last : Selected s₄ s₅ (replaceBits register 1 0 b.lms.askedMac) := by
    have map := (fourth.map macCell).trans ((if_neg nofun).trans third.mapMac)
    have chip := (congrArg (Chip.cell · macCell) fourth.chip).trans third.chipMac
    have selected := (Selected.refl map chip).setActiveChannel b.lms.askedMac
    rwa [replaceBits_again] at selected
  refine ⟨s₅, ?_, fun c other => ?_, fun a used other => ?_, fun a used => ?_, ?_⟩
  · unfold downloadAll
    simp only [bind_run, getActiveChannel_done done, on_lms, setActiveChannel_done (done.on _),
      on_on, spiReadBatch_done (done.on _), ne_eq, not_true, if_false, setValues_a, setValues_b, ch,
      pure_run]
    rfl
  · rw [last.chip c other, fourth.chip, third.chip c other, second.chip, chip₁ c other]
  · rw [last.map _ (not_macCell_a other), fourth.map, if_neg nofun,
      third.map _ (not_macCell_a other), second.map, if_pos ⟨rfl, (keys.mem_get .a a).mpr used⟩,
      read₁ a other]
  · have high := keys.high a used
    rw [last.map _ (not_macCell_b a), fourth.map, if_pos ⟨rfl, (keys.mem_get .b a).mpr used⟩,
      read_bankB (third.mac.2.trans (replaceBits_mac _ _)) high, third.chip _ (not_macCell_b a),
      second.chip, chip₁ _ (not_macCell_b a)]
  · rw [last.mac.2, replaceBits_mac, askedMac_idem]

end Session

namespace LMS7002M

/-- If channel A agrees, the bank of channel A tells what channel B and the MAC bits would tell. -/
def ChecksRight (s : LMS7002M) (keys : Keys) : Prop :=
  s.AlikeA keys → (s.AlikeAcross keys ↔
    s.mRegistersMap.cell macCell = s.chip.cell macCell ∧ s.AlikeB keys)

def UploadsAlike (s : LMS7002M) (keys : Keys) : Prop := ∀ a, keys.has (.b, a) = true →
  Alike a (s.mRegistersMap.cell (.b, a))
    (if keys.has (.a, a) then s.mRegistersMap.cell (.a, a) else s.chip.cell (.a, a))

/-- The banks of the chip agree, in all that is downloaded from the other bank as well. -/
def DownloadsAlike (s : LMS7002M) (keys : Keys) : Prop :=
  (∀ a, keys.has (.b, a) = true → Alike a (s.chip.cell (.b, a)) (s.chip.cell (.a, a))) ∧
    (s.Believes → ∀ a, keys.has (.a, a) = true → a ≠ macAddress →
      Alike a (s.chip.read a) (s.chip.cell (.a, a)))

end LMS7002M

namespace Session

variable {b : Session} {keys : Keys}

open LMS7002M

theorem isSynced_uploaded (done : b.Done) :
    (isSynced keys (uploadAll keys b).2).1 = true ↔ b.lms.UploadsAlike keys := by
  obtain ⟨s, run, uploaded⟩ := uploadAll_done keys done
  rw [run, (isSynced_done keys (done.on s)).1, on_lms]
  have alikeA : s.AlikeA keys := by
    intro a used other
    have cell := not_macCell_a other
    rw [uploaded.map _ cell, uploaded.chip _ cell, if_pos used]
    rfl
  rw [and_iff_right alikeA]
  apply forall₂_congr
  intro a used
  rw [uploaded.map _ (not_macCell_b a),
    uploaded.chip _ (not_macCell_a (not_mac_high (keys.high a used)))]

theorem isSynced_downloaded (done : b.Done) :
    (isSynced keys (downloadAll keys b).2).1 = true ↔ b.lms.DownloadsAlike keys := by
  obtain ⟨s, run, downloaded⟩ := downloadAll_done keys done
  rw [run, (isSynced_done keys (done.on s)).1, on_lms, and_comm]
  apply and_congr
  · apply forall₂_congr
    intro a used
    rw [downloaded.bankB a used,
      downloaded.chip _ (not_macCell_a (not_mac_high (keys.high a used)))]
  · have value (a : UInt16) (used : keys.has (.a, a) = true) (other : a ≠ macAddress) :
        Alike a (s.mRegistersMap.cell (.a, a)) (s.chip.cell (.a, a)) ↔
          (b.lms.Believes → Alike a (b.lms.chip.read a) (b.lms.chip.cell (.a, a))) := by
      rw [downloaded.bankA a used other, downloaded.chip _ (not_macCell_a other)]
      by_cases believes : b.lms.Believes
      · rw [if_pos believes]
        exact ⟨fun alike _ => alike, fun alike => alike believes⟩
      · rw [if_neg believes]
        exact ⟨fun _ is => absurd is believes, fun _ => rfl⟩
    constructor
    · exact fun alike believes a used other =>
        (value a used other).mp (alike a used other) believes
    · exact fun alike a used other =>
        (value a used other).mpr fun believes => alike believes a used other

/-- The check tells whether map and chip agree, it finds nothing after an upload or a download, and
none of the routines changes the active channel. -/
structure Synchronizes (keys : Keys) (b : Session) : Prop where
  checks : (isSynced keys b).1 = true ↔ b.lms.AllAlike keys
  uploads : (isSynced keys (uploadAll keys b).2).1 = true
  downloads : (isSynced keys (downloadAll keys b).2).1 = true
  checkLeaves : (isSynced keys b).2.lms.chip = b.lms.chip
  uploadLeaves : (uploadAll keys b).2.lms.chip.mac = b.lms.chip.mac
  downloadLeaves : (downloadAll keys b).2.lms.chip.mac = b.lms.chip.mac

theorem synchronizes_iff (keys : Keys) (b : Session) (done : b.Done) :
    Synchronizes keys b ↔ b.lms.ChecksRight keys ∧ b.lms.UploadsAlike keys ∧
      b.lms.DownloadsAlike keys ∧
        (b.lms.useCache = true → b.lms.mRegistersMap.mac = b.lms.chip.mac) := by
  obtain ⟨check, s, run, checked⟩ := isSynced_done keys done
  obtain ⟨t, upload, uploaded⟩ := uploadAll_done keys done
  obtain ⟨u, download, downloaded⟩ := downloadAll_done keys done
  have right : ((isSynced keys b).1 = true ↔ b.lms.AllAlike keys) ↔ b.lms.ChecksRight keys := by
    rw [check, allAlike_iff, and_congr_right_iff]
    exact Iff.rfl
  have asked : b.lms.askedMac = b.lms.chip.mac ↔
      (b.lms.useCache = true → b.lms.mRegistersMap.mac = b.lms.chip.mac) := by
    rw [askedMac]
    cases b.lms.useCache with
    | true => exact ⟨fun same _ => same, fun same => same rfl⟩
    | false => exact ⟨fun _ => nofun, fun _ => rfl⟩
  constructor
  · intro all
    have leaves := all.downloadLeaves
    rw [download, on_lms, downloaded.mac] at leaves
    exact ⟨right.mp all.checks, (isSynced_uploaded done).mp all.uploads,
      (isSynced_downloaded done).mp all.downloads, asked.mp leaves⟩
  · intro ⟨checksRight, uploadsAlike, downloadsAlike, believed⟩
    refine ⟨right.mpr checksRight, (isSynced_uploaded done).mpr uploadsAlike,
      (isSynced_downloaded done).mpr downloadsAlike, ?_, ?_, ?_⟩
    · rw [run]
      exact checked.chip_eq
    · rw [upload]
      exact congrArg (· &&& 0x0003) uploaded.mac
    · rw [download, on_lms, downloaded.mac]
      exact asked.mpr believed

theorem synchronizes_firstKeys : Synchronizes firstKeys sessionA :=
  (synchronizes_iff firstKeys sessionA rfl).mpr
    ⟨fun _ => ⟨fun _ => ⟨rfl, nofun⟩, fun _ => nofun⟩, nofun, ⟨nofun, nofun⟩, nofun⟩

def twoBanks : Keys where
  mChannelA := (OrdMap.empty.insert macAddress ()).insert 0x0100 ()
  mChannelB := OrdMap.empty.insert 0x0100 ()
  mac := rfl
  high := by
    intro a used
    rw [UsedAddresses.has, OrdMap.find?_insert] at used
    split at used
    · subst a
      decide
    · cases used
  small := by
    rintro ⟨bank, a⟩ used
    have listed : a = macAddress ∨ a = 0x0100 := by
      cases bank with
      | a => grind [UsedAddresses.has, OrdMap.find?_insert, OrdMap.find?_empty]
      | b => grind [UsedAddresses.has, OrdMap.find?_insert, OrdMap.find?_empty]
    change a < 0x8000
    cases listed with
    | inl here =>
      subst a
      decide
    | inr here =>
      subst a
      decide

/-- Here map and chip have the same everywhere, but channel B has values of its own. -/
theorem not_synchronized : ¬ ∀ (keys : Keys) (b : Session), b.Done → Synchronizes keys b := by
  intro always
  have checks := (always twoBanks sessionA rfl).checks
  have alike : sessionA.lms.AllAlike twoBanks := fun ⟨bank, a⟩ _ => by
    cases bank with
    | a => rfl
    | b => rfl
  have across := ((isSynced_done twoBanks (b := sessionA) rfl).1.mp (checks.mpr alike)).2
  exact absurd (across 0x0100 rfl) (by decide)

end Session

end Soapy.Lime
