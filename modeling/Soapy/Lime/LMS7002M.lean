import Soapy.Lib.Runs

/-! # The registers of the LMS7002M

The driver keeps a copy of the registers of the chip and does not send what the chip
holds already. Registers from 0x0100 on exist in two banks; the two MAC bits of
register 0x0020 say which of them a transfer means.

A call does at most one transfer on the connection, whose result is given to it: zero
when the transfer was done. Registers 0x0640 and 0x0641, which go through the
microcontroller, are left out.
-/

namespace Soapy.Lime

open Lib

def macAddress : UInt16 := 0x0020

@[ext] structure Chip where
  bankA : UInt16 → UInt16
  bankB : UInt16 → UInt16

namespace Chip

def mac (chip : Chip) : UInt16 := chip.bankA macAddress &&& 0x0003

def write (chip : Chip) (address data : UInt16) : Chip where
  bankA :=
    if address < 0x0100 ∨ chip.mac &&& 0x1 ≠ 0 then Function.update chip.bankA address data
    else chip.bankA
  bankB :=
    if ¬ address < 0x0100 ∧ chip.mac &&& 0x2 ≠ 0 then Function.update chip.bankB address data
    else chip.bankB

def read (chip : Chip) (address : UInt16) : UInt16 :=
  if ¬ address < 0x0100 ∧ chip.mac = 2 then chip.bankB address else chip.bankA address

def writeAll (chip : Chip) (writes : List (UInt16 × UInt16)) : Chip :=
  writes.foldl (fun chip w => chip.write w.1 w.2) chip

end Chip

/-- msbit 1 = SPI write. -/
def writeWord (address data : UInt16) : UInt32 :=
  ((1 : UInt32) <<< 31) ||| (address.toUInt32 <<< 16) ||| data.toUInt32

def readWord (address : UInt16) : UInt32 := address.toUInt32 <<< 16

/-- The chip takes 15 bits for the address. -/
def wordAddress (word : UInt32) : UInt16 := ((word >>> 16) &&& 0x7fff).toUInt16

def wordData (word : UInt32) : UInt16 := word.toUInt16

namespace Chip

/-- `WriteLMS7002MSPI` when the transfer is done. -/
def takeWords (chip : Chip) (words : List UInt32) : Chip :=
  words.foldl (fun chip word => chip.write (wordAddress word) (wordData word)) chip

/-- `ReadLMS7002MSPI` when the transfer is done. -/
def answerWord (chip : Chip) (word : UInt32) : UInt32 := (chip.read (wordAddress word)).toUInt32

end Chip

@[ext] structure RegistersMap where
  mChannelA : UInt16 → UInt16
  mChannelB : UInt16 → UInt16

namespace RegistersMap

def setValue (m : RegistersMap) (channel : Nat) (address value : UInt16) : RegistersMap :=
  if channel = 0 then { m with mChannelA := Function.update m.mChannelA address value }
  else if channel = 1 then { m with mChannelB := Function.update m.mChannelB address value }
  else m

def getValue (m : RegistersMap) (channel : Nat) (address : UInt16) : UInt16 :=
  if channel = 0 then m.mChannelA address
  else if channel = 1 then m.mChannelB address
  else 0

end RegistersMap

/-- Registers containing read only registers, which values can change. -/
def readOnlyRegs : List UInt16 :=
  [0, 1, 2, 3, 4, 5, 6, 0x002F, 0x008C, 0x00A8, 0x00A9, 0x00AA, 0x00AB, 0x00AC, 0x0123, 0x0209,
    0x020A, 0x020B, 0x040E, 0x040F, 0x05C3, 0x05C4, 0x05C5, 0x05C6, 0x05C7, 0x05C8, 0x05C9, 0x05CA]

structure LMS7002M where
  mRegistersMap : RegistersMap
  useCache : Bool
  /-- The chip behind `controlPort`. -/
  chip : Chip

/-- `wr0`, before the comparison with the cache. -/
def selectsA (mac address : UInt16) : Bool := mac &&& 0x1 ≠ 0 ∨ address < 0x0100

/-- `wr1`, before the comparison with the cache. -/
def selectsB (mac address : UInt16) : Bool := mac &&& 0x2 ≠ 0 ∧ ¬ address < 0x0100

/-- The variables of the loop of `SPI_write_batch`. -/
structure Batch where
  map : RegistersMap
  mac : UInt16
  data : List UInt32

namespace RegistersMap

def store (m : RegistersMap) (wr0 wr1 : Bool) (address value : UInt16) : RegistersMap :=
  let m := if wr0 then m.setValue 0 address value else m
  if wr1 then m.setValue 1 address value else m

def mac (m : RegistersMap) : UInt16 := m.getValue 0 macAddress &&& 0x0003

end RegistersMap

/-- One turn of the loop of `SPI_write_batch`. -/
def Batch.add (toChip : Bool) (b : Batch) (write : UInt16 × UInt16) : Batch :=
  let (address, value) := write
  let wr0 := selectsA b.mac address && (toChip || b.map.getValue 0 address != value)
  let wr1 := selectsB b.mac address && (toChip || b.map.getValue 1 address != value)
  if !toChip && !(wr0 || wr1) then b
  else
    let map := b.map.store wr0 wr1 address value
    { map := map
      mac := if address = macAddress then map.mac else b.mac
      data := b.data ++ [writeWord address value] }

namespace LMS7002M

def enableValuesCache (s : LMS7002M) (enabled : Bool) : LMS7002M := { s with useCache := enabled }

/-- The loop of `SPI_write_batch`. -/
def gather (s : LMS7002M) (writes : List (UInt16 × UInt16)) (toChip : Bool) : Batch :=
  writes.foldl (Batch.add (toChip || !s.useCache)) ⟨s.mRegistersMap, s.mRegistersMap.mac, []⟩

def spiWriteBatch (s : LMS7002M) (writes : List (UInt16 × UInt16)) (toChip : Bool)
    (transfer : Int) : Int × LMS7002M :=
  let b := s.gather writes toChip
  let s := { s with mRegistersMap := b.map }
  if b.data = [] then (0, s)
  else if transfer = 0 then (0, { s with chip := s.chip.takeWords b.data })
  else (transfer, s)

def spiWrite (s : LMS7002M) (address data : UInt16) (toChip : Bool) (transfer : Int) :
    Int × LMS7002M :=
  s.spiWriteBatch [(address, data)] toChip transfer

def refresh (s : LMS7002M) (values : List (UInt16 × UInt16)) : LMS7002M :=
  let mac := s.mRegistersMap.mac
  { s with
    mRegistersMap := values.foldl
      (fun m v => m.store (selectsA mac v.1) (selectsB mac v.1) v.1 v.2) s.mRegistersMap }

def received (s : LMS7002M) (addresses : List UInt16) : List UInt16 :=
  addresses.map fun address => wordData (s.chip.answerWord (readWord address))

/-- The result and the values, none of them when the transfer fails. -/
def spiReadBatch (s : LMS7002M) (addresses : List UInt16) (transfer : Int) :
    Int × List UInt16 × LMS7002M :=
  if transfer ≠ 0 then (transfer, [], s)
  else (0, s.received addresses, s.refresh (addresses.zip (s.received addresses)))

def cached (s : LMS7002M) (address : UInt16) : UInt16 :=
  let regNo := if ¬ address < 0x0100 ∧ s.mRegistersMap.mac = 2 then 1 else 0
  s.mRegistersMap.getValue regNo address

def asksChip (s : LMS7002M) (address : UInt16) (fromChip : Bool) : Bool :=
  fromChip || !s.useCache || readOnlyRegs.contains address

def spiRead (s : LMS7002M) (address : UInt16) (fromChip : Bool) (transfer : Int) :
    UInt16 × Option Int × LMS7002M :=
  if s.asksChip address fromChip then
    let (status, values, s) := s.spiReadBatch [address] transfer
    (values.headD 0, some status, s)
  else (s.cached address, none, s)

/-- The register with the bits from `lsb` to `msb` replaced. -/
def replaceBits (register : UInt16) (msb lsb : UInt8) (value : UInt16) : UInt16 :=
  let spiMask : UInt16 := (~~~((~~~(0 : UInt32)) <<< (msb - lsb + 1).toUInt32) <<< lsb.toUInt32).toUInt16
  (register &&& ~~~spiMask) ||| ((value.toUInt32 <<< lsb.toUInt32).toUInt16 &&& spiMask)

def modifySpiRegBits (s : LMS7002M) (address : UInt16) (msb lsb : UInt8) (value : UInt16)
    (fromChip : Bool) (reading writing : Int) : Int × LMS7002M :=
  let (register, _, s) := s.spiRead address fromChip reading
  s.spiWrite address (replaceBits register msb lsb value) false writing

end LMS7002M

theorem top_bit {address : UInt16} (small : address < 0x8000) :
    address.toBitVec[15] = false := by
  rw [BitVec.getElem_eq_testBit_toNat]
  exact Nat.testBit_lt_two_pow small

theorem wordAddress_writeWord {address : UInt16} (data : UInt16) (small : address < 0x8000) :
    wordAddress (writeWord address data) = address := by
  unfold wordAddress writeWord
  apply UInt16.toBitVec_inj.mp
  have top := top_bit small
  ext i inside
  simp
  interval_cases i <;> simp [top]

theorem wordData_writeWord (address data : UInt16) : wordData (writeWord address data) = data := by
  unfold wordData writeWord
  apply UInt16.toBitVec_inj.mp
  ext i inside
  simp

theorem wordAddress_readWord {address : UInt16} (small : address < 0x8000) :
    wordAddress (readWord address) = address := by
  unfold wordAddress readWord
  apply UInt16.toBitVec_inj.mp
  have top := top_bit small
  ext i inside
  simp
  interval_cases i <;> simp [top]

theorem wordData_answerWord {chip : Chip} {address : UInt16} (small : address < 0x8000) :
    wordData (chip.answerWord (readWord address)) = chip.read address := by
  rw [Chip.answerWord, wordAddress_readWord small]
  unfold wordData
  apply UInt16.toBitVec_inj.mp
  ext i inside
  simp

inductive Bank where
  | a
  | b
  deriving DecidableEq

abbrev Cell := Bank × UInt16

def RegistersMap.cell (m : RegistersMap) : Cell → UInt16
  | (.a, address) => m.mChannelA address
  | (.b, address) => m.mChannelB address

def Chip.cell (chip : Chip) : Cell → UInt16
  | (.a, address) => chip.bankA address
  | (.b, address) => chip.bankB address

def macCell : Cell := (.a, macAddress)

def selected (mac address : UInt16) : Set Cell :=
  {c | c.2 = address ∧ match c.1 with
    | .a => selectsA mac address
    | .b => selectsB mac address}

instance (mac address : UInt16) : DecidablePred (· ∈ selected mac address)
  | (.a, a) => inferInstanceAs (Decidable (a = address ∧ selectsA mac address))
  | (.b, a) => inferInstanceAs (Decidable (a = address ∧ selectsB mac address))

def nextMac (mac : UInt16) (write : UInt16 × UInt16) : UInt16 :=
  if write.1 = macAddress then write.2 &&& 0x0003 else mac

def touched (mac : UInt16) : List (UInt16 × UInt16) → Set Cell
  | [] => ∅
  | write :: rest => selected mac write.1 ∪ touched (nextMac mac write) rest

theorem selected_low {address : UInt16} (low : address < 0x0100) (mac : UInt16) :
    selected mac address = {(.a, address)} := by
  ext c
  obtain ⟨bank, a⟩ := c
  cases bank with
  | a => simp [selected, selectsA, low]
  | b => simp [selected, selectsB, low]

theorem macCell_selected (mac : UInt16) : macCell ∈ selected mac macAddress := by
  have low : macAddress < 0x0100 := by decide
  rw [selected_low low]
  rfl

theorem not_macCell_selected {address : UInt16} (other : address ≠ macAddress) (mac : UInt16) :
    macCell ∉ selected mac address :=
  fun member => other member.1.symm

namespace RegistersMap

variable {m : RegistersMap} {chip : Chip} {address value : UInt16}

theorem update_guarded (f : UInt16 → UInt16) (selected toChip : Bool) (address value : UInt16) :
    (if selected && (toChip || f address != value) then Function.update f address value else f) =
      if selected then Function.update f address value else f := by
  by_cases same : f address = value
  · subst same
    cases selected <;> cases toChip <;> simp
  · cases selected <;> cases toChip <;> simp [same]

theorem store_bankA (m : RegistersMap) (wr0 wr1 : Bool) (address value : UInt16) :
    (m.store wr0 wr1 address value).mChannelA =
      if wr0 then Function.update m.mChannelA address value else m.mChannelA := by
  cases wr0 <;> cases wr1 <;> simp [store, setValue]

theorem store_bankB (m : RegistersMap) (wr0 wr1 : Bool) (address value : UInt16) :
    (m.store wr0 wr1 address value).mChannelB =
      if wr1 then Function.update m.mChannelB address value else m.mChannelB := by
  cases wr0 <;> cases wr1 <;> simp [store, setValue]

theorem store_guarded (m : RegistersMap) (sel0 sel1 toChip : Bool) (address value : UInt16) :
    m.store (sel0 && (toChip || m.getValue 0 address != value))
      (sel1 && (toChip || m.getValue 1 address != value)) address value =
        m.store sel0 sel1 address value := by
  apply RegistersMap.ext
  · rw [store_bankA, store_bankA]
    exact update_guarded m.mChannelA sel0 toChip address value
  · rw [store_bankB, store_bankB]
    exact update_guarded m.mChannelB sel1 toChip address value

theorem store_cell (m : RegistersMap) (mac address value : UInt16) (c : Cell) :
    (m.store (selectsA mac address) (selectsB mac address) address value).cell c =
      if c ∈ selected mac address then value else m.cell c := by
  obtain ⟨bank, a⟩ := c
  cases bank with
  | a =>
    simp only [cell, store_bankA, selected, Set.mem_ofPred_eq]
    by_cases here : a = address
    · subst here
      by_cases selects : selectsA mac a <;> simp [selects]
    · by_cases selects : selectsA mac address <;> simp [selects, here]
  | b =>
    simp only [cell, store_bankB, selected, Set.mem_ofPred_eq]
    by_cases here : a = address
    · subst here
      by_cases selects : selectsB mac a <;> simp [selects]
    · by_cases selects : selectsB mac address <;> simp [selects, here]

theorem mac_eq (m : RegistersMap) : m.mac = m.cell macCell &&& 0x0003 := rfl

end RegistersMap

namespace Chip

variable {chip : Chip} {address value : UInt16}

theorem ext_cell {chip chip' : Chip} (same : ∀ c, chip.cell c = chip'.cell c) : chip = chip' :=
  Chip.ext (funext fun a => same (.a, a)) (funext fun a => same (.b, a))

theorem write_cell (chip : Chip) (address value : UInt16) (c : Cell) :
    (chip.write address value).cell c =
      if c ∈ selected chip.mac address then value else chip.cell c := by
  obtain ⟨bank, a⟩ := c
  cases bank with
  | a =>
    simp only [cell, write, selected, selectsA, Set.mem_ofPred_eq, decide_eq_true_eq,
      or_comm (a := address < 0x0100)]
    by_cases here : a = address
    · subst here
      split <;> simp_all
    · split <;> simp [here]
  | b =>
    simp only [cell, write, selected, selectsB, Set.mem_ofPred_eq, decide_eq_true_eq,
      and_comm (a := ¬ address < 0x0100)]
    by_cases here : a = address
    · subst here
      split <;> simp_all
    · split <;> simp [here]

theorem mac_eq (chip : Chip) : chip.mac = chip.cell macCell &&& 0x0003 := rfl

theorem write_same (same : ∀ c ∈ selected chip.mac address, chip.cell c = value) :
    chip.write address value = chip := by
  apply ext_cell
  intro c
  rw [write_cell]
  split
  · rename_i here
    exact (same c here).symm
  · rfl

end Chip

/-- A register that only the driver changes, behind the SPI port. -/
def Plain (address : UInt16) : Prop :=
  address < 0x8000 ∧ address ∉ readOnlyRegs ∧ address ≠ 0x0640 ∧ address ≠ 0x0641

instance : DecidablePred Plain := fun address =>
  inferInstanceAs (Decidable (address < 0x8000 ∧ address ∉ readOnlyRegs ∧
    address ≠ 0x0640 ∧ address ≠ 0x0641))

theorem plain_mac : Plain macAddress := by decide

/-- Registers below 0x0100 are in the first bank only. -/
def Cell.Plain (c : Cell) : Prop := Lime.Plain c.2 ∧ (c.1 = .b → ¬ c.2 < 0x0100)

theorem plain_of_selected {mac address : UInt16} {c : Cell} (plain : Plain address)
    (member : c ∈ selected mac address) : Cell.Plain c := by
  obtain ⟨bank, a⟩ := c
  cases bank with
  | a => exact ⟨member.1 ▸ plain, fun other => by cases other⟩
  | b =>
    have high : selectsB mac address := member.2
    simp only [selectsB, decide_eq_true_eq] at high
    exact ⟨member.1 ▸ plain, fun _ => member.1 ▸ high.2⟩

def RegistersMap.Mirrors (m : RegistersMap) (but : Set Cell) (chip : Chip) : Prop :=
  ∀ c, Cell.Plain c → c ∉ but → m.cell c = chip.cell c

section

variable {m : RegistersMap} {chip : Chip} {but : Set Cell} {address value : UInt16}

theorem RegistersMap.Mirrors.mac (mirrors : m.Mirrors but chip) (settled : macCell ∉ but) :
    m.mac = chip.mac := by
  have same := mirrors macCell ⟨plain_mac, fun other => by cases other⟩ settled
  rw [RegistersMap.mac_eq, Chip.mac_eq, same]

theorem RegistersMap.Mirrors.selected_eq (mirrors : m.Mirrors but chip)
    (settled : macCell ∉ but ∨ address < 0x0100) :
    selected m.mac address = selected chip.mac address := by
  cases settled with
  | inl settled => rw [mirrors.mac settled]
  | inr low => rw [selected_low low, selected_low low]

theorem RegistersMap.Mirrors.store (mirrors : m.Mirrors but chip)
    (settled : macCell ∉ but ∨ address < 0x0100) (value : UInt16) :
    (m.store (selectsA m.mac address) (selectsB m.mac address) address value).Mirrors
      (but \ selected m.mac address) (chip.write address value) := by
  intro c plain outside
  have means := mirrors.selected_eq settled
  rw [RegistersMap.store_cell, Chip.write_cell]
  by_cases here : c ∈ selected m.mac address
  · rw [if_pos here, if_pos (means ▸ here)]
  · rw [if_neg here, if_neg (means ▸ here)]
    exact mirrors c plain fun member => outside ⟨member, here⟩

end

namespace Batch

variable {b : Batch} {toChip : Bool} {chip : Chip} {but : Set Cell} {write : UInt16 × UInt16}
  {writes : List (UInt16 × UInt16)}

theorem add_map (b : Batch) (toChip : Bool) (write : UInt16 × UInt16) :
    (b.add toChip write).map =
      b.map.store (selectsA b.mac write.1) (selectsB b.mac write.1) write.1 write.2 := by
  obtain ⟨address, value⟩ := write
  rw [← RegistersMap.store_guarded b.map _ _ toChip address value]
  simp only [add]
  split
  · rename_i skipped
    simp only [Bool.and_eq_true, Bool.not_eq_true', Bool.or_eq_false_iff] at skipped
    rw [skipped.2.1, skipped.2.2]
    rfl
  · rfl

theorem add_skips (skipped : (b.add toChip write).data = b.data) :
    toChip = false ∧ ∀ c ∈ selected b.mac write.1, b.map.cell c = write.2 := by
  obtain ⟨address, value⟩ := write
  simp only [add] at skipped
  split at skipped
  · rename_i left
    simp only [Bool.and_eq_true, Bool.not_eq_true', Bool.or_eq_false_iff] at left
    obtain ⟨unforced, left0, left1⟩ := left
    simp only [unforced, Bool.false_or, Bool.and_eq_false_imp, bne_eq_false_iff_eq] at left0 left1
    refine ⟨unforced, ?_⟩
    intro c member
    obtain ⟨bank, a⟩ := c
    obtain ⟨here, selects⟩ := member
    subst here
    cases bank with
    | a => exact left0 selects
    | b => exact left1 selects
  · simp at skipped

theorem add_data (b : Batch) (toChip : Bool) (write : UInt16 × UInt16) :
    (b.add toChip write).data = b.data ∨
      (b.add toChip write).data = b.data ++ [writeWord write.1 write.2] := by
  obtain ⟨address, value⟩ := write
  simp only [add]
  split
  · exact .inl rfl
  · exact .inr rfl

theorem add_mac (known : b.mac = b.map.mac) (toChip : Bool) (write : UInt16 × UInt16) :
    (b.add toChip write).mac = nextMac b.mac write ∧
      (b.add toChip write).mac = (b.add toChip write).map.mac := by
  have stored : (b.add toChip write).map.mac = nextMac b.mac write := by
    rw [RegistersMap.mac_eq, add_map, RegistersMap.store_cell, nextMac]
    by_cases here : write.1 = macAddress
    · rw [if_pos (here ▸ macCell_selected b.mac), if_pos here]
    · rw [if_neg (not_macCell_selected here b.mac), if_neg here, known, RegistersMap.mac_eq]
  have same : (b.add toChip write).mac = (b.add toChip write).map.mac := by
    obtain ⟨address, value⟩ := write
    by_cases here : address = macAddress
    · simp only [add, if_pos here]
      split
      · exact known
      · rfl
    · rw [stored]
      simp only [add, nextMac, if_neg here]
      split
      · rfl
      · rfl
  exact ⟨same.trans stored, same⟩

structure Tracks (b : Batch) (but : Set Cell) (chip : Chip) : Prop where
  mirrors : b.map.Mirrors but chip
  mac : b.mac = b.map.mac

/-- A write that the comparison with the map does not leave out wrongly. -/
structure Sendable (m : RegistersMap) (but : Set Cell) (toChip : Bool) (write : UInt16 × UInt16) :
    Prop where
  small : write.1 < 0x8000
  settled : macCell ∉ but ∨ write.1 < 0x0100
  plain : toChip = false → Plain write.1
  differs : toChip = false → ∀ bank, (bank, write.1) ∈ but → m.cell (bank, write.1) ≠ write.2

theorem Tracks.add (tracks : b.Tracks but chip) (settled : macCell ∉ but ∨ write.1 < 0x0100)
    (toChip : Bool) :
    (b.add toChip write).Tracks (but \ selected b.mac write.1) (chip.write write.1 write.2) := by
  refine ⟨?_, (add_mac tracks.mac toChip write).2⟩
  rw [add_map, tracks.mac]
  exact tracks.mirrors.store settled write.2

theorem Tracks.takeWords {start : Chip} (tracks : b.Tracks but (start.takeWords b.data))
    (sendable : Sendable b.map but toChip write) :
    start.takeWords (b.add toChip write).data =
      (start.takeWords b.data).write write.1 write.2 := by
  cases add_data b toChip write with
  | inl skipped =>
    obtain ⟨unforced, values⟩ := add_skips skipped
    rw [skipped]
    symm
    apply Chip.write_same
    intro c member
    rw [← tracks.mirrors.selected_eq sendable.settled, ← tracks.mac] at member
    have value := values c member
    have sure : c ∉ but := by
      obtain ⟨bank, a⟩ := c
      obtain ⟨here, _⟩ := member
      subst here
      intro doubtful
      exact sendable.differs unforced bank doubtful value
    rw [← tracks.mirrors c (plain_of_selected (sendable.plain unforced) member) sure]
    exact value
  | inr sent =>
    rw [sent]
    simp [Chip.takeWords, wordAddress_writeWord write.2 sendable.small, wordData_writeWord]

theorem Sendable.add {next : UInt16 × UInt16} (sendable : Sendable b.map but toChip next)
    (write : UInt16 × UInt16) :
    Sendable (b.add toChip write).map (but \ selected b.mac write.1) toChip next where
  small := sendable.small
  settled := by
    cases sendable.settled with
    | inl settled => exact .inl fun member => settled member.1
    | inr low => exact .inr low
  plain := sendable.plain
  differs := by
    intro unforced bank member
    rw [add_map, RegistersMap.store_cell, if_neg member.2]
    exact sendable.differs unforced bank member.1

theorem Tracks.addAll {start : Chip} (tracks : b.Tracks but (start.takeWords b.data))
    (sendable : ∀ w ∈ writes, Sendable b.map but toChip w) :
    (writes.foldl (Batch.add toChip) b).map.Mirrors (but \ touched b.mac writes)
        (start.takeWords (writes.foldl (Batch.add toChip) b).data) ∧
      start.takeWords (writes.foldl (Batch.add toChip) b).data =
        (start.takeWords b.data).writeAll writes := by
  induction writes generalizing b but with
  | nil => exact ⟨by rw [touched, Set.sdiff_empty]; exact tracks.mirrors, rfl⟩
  | cons w rest ih =>
    have first := sendable w List.mem_cons_self
    have taken := tracks.takeWords first
    have next := tracks.add first.settled toChip
    rw [← taken] at next
    obtain ⟨after, whole⟩ := ih next fun w' member =>
      (sendable w' (List.mem_cons_of_mem _ member)).add w
    rw [(add_mac tracks.mac toChip w).1, Set.sdiff_sdiff] at after
    refine ⟨after, ?_⟩
    rw [List.foldl_cons, whole, taken]
    rfl

theorem addAll_outside (known : b.mac = b.map.mac) {c : Cell} (outside : c ∉ touched b.mac writes) :
    (writes.foldl (Batch.add toChip) b).map.cell c = b.map.cell c := by
  induction writes generalizing b with
  | nil => rfl
  | cons w rest ih =>
    obtain ⟨next, stored⟩ := add_mac known toChip w
    rw [touched, ← next, Set.mem_union, not_or] at outside
    rw [List.foldl_cons, ih stored outside.2, add_map, RegistersMap.store_cell, if_neg outside.1]

end Batch

namespace LMS7002M

variable {s : LMS7002M} {but : Set Cell} {address : UInt16}

def CoherentBut (s : LMS7002M) (but : Set Cell) : Prop := s.mRegistersMap.Mirrors but s.chip

/-- The map and the chip agree. -/
abbrev Coherent (s : LMS7002M) : Prop := s.CoherentBut ∅

/-- The call returns zero only when the chip has what was written, and then the cells that it
    means are known. When it fails nothing is known of them. -/
theorem CoherentBut.spiWriteBatch (coherent : s.CoherentBut but) {writes : List (UInt16 × UInt16)}
    {toChip : Bool}
    (sendable : ∀ w ∈ writes, Batch.Sendable s.mRegistersMap but (toChip || !s.useCache) w)
    (transfer : Int) :
    ((s.spiWriteBatch writes toChip transfer).1 = 0 →
      (s.spiWriteBatch writes toChip transfer).2.chip = s.chip.writeAll writes ∧
      (s.spiWriteBatch writes toChip transfer).2.CoherentBut
        (but \ touched s.mRegistersMap.mac writes)) ∧
    ((s.spiWriteBatch writes toChip transfer).1 ≠ 0 →
      transfer ≠ 0 ∧ (s.spiWriteBatch writes toChip transfer).2.chip = s.chip ∧
      (s.spiWriteBatch writes toChip transfer).2.CoherentBut
        (but ∪ touched s.mRegistersMap.mac writes)) := by
  have start : Batch.Tracks ⟨s.mRegistersMap, s.mRegistersMap.mac, []⟩ but (s.chip.takeWords []) :=
    ⟨coherent, rfl⟩
  obtain ⟨tracked, whole⟩ := start.addAll sendable
  rw [whole] at tracked
  have gathered : s.chip.takeWords (s.gather writes toChip).data = s.chip.writeAll writes := whole
  have mirrors : (s.gather writes toChip).map.Mirrors (but \ touched s.mRegistersMap.mac writes)
      (s.chip.writeAll writes) := tracked
  unfold LMS7002M.spiWriteBatch
  by_cases nothing : (s.gather writes toChip).data = []
  · rw [nothing] at gathered
    have same : s.chip = s.chip.writeAll writes := gathered
    simp only [nothing, if_true]
    rw [← same] at mirrors
    exact ⟨fun _ => ⟨same, mirrors⟩, fun failed => absurd rfl failed⟩
  · simp only [nothing, if_false]
    by_cases done : transfer = 0
    · simp only [done, if_true]
      rw [← gathered] at mirrors
      exact ⟨fun _ => ⟨gathered, mirrors⟩, fun failed => absurd rfl failed⟩
    · simp only [done, if_false]
      refine ⟨fun zero => zero.elim, fun _ => ⟨done, trivial, ?_⟩⟩
      intro c plain outside
      rw [Set.mem_union, not_or] at outside
      rw [← coherent c plain outside.1]
      exact Batch.addAll_outside rfl outside.2

/-- A read tells what is in every bank for which it is stored. -/
def Same (chip : Chip) (address : UInt16) : Prop :=
  ¬ address < 0x0100 → chip.mac = 3 → chip.bankA address = chip.bankB address

instance (chip : Chip) : DecidablePred (Same chip) := fun address =>
  inferInstanceAs (Decidable (¬ address < 0x0100 → chip.mac = 3 →
    chip.bankA address = chip.bankB address))

theorem mac_cases (chip : Chip) : chip.mac = 0 ∨ chip.mac = 1 ∨ chip.mac = 2 ∨ chip.mac = 3 := by
  have small : chip.mac.toNat ≤ 3 := by
    simp only [Chip.mac, UInt16.toNat_and]
    exact Nat.and_le_right
  simp only [← UInt16.toNat_inj]
  simp
  omega

theorem read_selected {chip : Chip} {c : Cell} (same : Same chip address)
    (member : c ∈ selected chip.mac address) : chip.cell c = chip.read address := by
  have apart1 : (1 : UInt16) &&& 2 = 0 := by decide
  have apart2 : (2 : UInt16) &&& 1 = 0 := by decide
  obtain ⟨bank, a⟩ := c
  obtain ⟨here, selects⟩ := member
  subst here
  cases bank with
  | a =>
    rw [Chip.read]
    split
    · rename_i other
      simp [selectsA, other.1, other.2, apart2] at selects
    · rfl
  | b =>
    simp only [selectsB, decide_eq_true_eq] at selects
    rw [Chip.read]
    rcases mac_cases chip with mac | mac | mac | mac
    · simp [mac] at selects
    · simp [mac, apart1] at selects
    · rw [if_pos ⟨selects.2, mac⟩]
      rfl
    · rw [if_neg (by simp [mac])]
      exact (same selects.2 mac).symm

def meant (mac : UInt16) (addresses : List UInt16) : Set Cell :=
  {c | ∃ a ∈ addresses, c ∈ selected mac a}

theorem Mirrors.storeRead {m : RegistersMap} {chip : Chip} (mirrors : m.Mirrors but chip)
    {mac value : UInt16} (means : selected mac address = selected chip.mac address)
    (read : Plain address → value = chip.read address ∧ Same chip address) :
    (m.store (selectsA mac address) (selectsB mac address) address value).Mirrors
      (but \ selected mac address) chip := by
  intro c plain outside
  rw [RegistersMap.store_cell]
  by_cases here : c ∈ selected mac address
  · obtain ⟨same, agree⟩ := read (here.1 ▸ plain.1)
    rw [if_pos here, same]
    exact (read_selected agree (means ▸ here)).symm
  · rw [if_neg here]
    exact mirrors c plain fun member => outside ⟨member, here⟩

structure Readable (s : LMS7002M) (but : Set Cell) (address : UInt16) : Prop where
  small : address < 0x8000
  settled : macCell ∉ but ∨ address < 0x0100
  same : Plain address → Same s.chip address

theorem CoherentBut.refresh (coherent : s.CoherentBut but) {addresses : List UInt16}
    (readable : ∀ a ∈ addresses, s.Readable but a) :
    (s.refresh (addresses.map fun a => (a, s.chip.read a))).CoherentBut
      (but \ meant s.mRegistersMap.mac addresses) := by
  have means : ∀ a ∈ addresses, selected s.mRegistersMap.mac a = selected s.chip.mac a :=
    fun a member => coherent.selected_eq (readable a member).settled
  have stored : ∀ (m : RegistersMap) (but : Set Cell), m.Mirrors but s.chip →
      ((addresses.map fun a => (a, s.chip.read a)).foldl
        (fun m v => m.store (selectsA s.mRegistersMap.mac v.1) (selectsB s.mRegistersMap.mac v.1)
          v.1 v.2) m).Mirrors (but \ meant s.mRegistersMap.mac addresses) s.chip := by
    clear coherent
    induction addresses with
    | nil =>
      intro m but mirrors c plain outside
      exact mirrors c plain fun member => outside ⟨member, fun none => by
        obtain ⟨a, listed, _⟩ := none
        cases listed⟩
    | cons a rest ih =>
      intro m but mirrors c plain outside
      have first := Mirrors.storeRead mirrors (means a List.mem_cons_self)
        fun plain => ⟨rfl, (readable a List.mem_cons_self).same plain⟩
      apply ih (fun a' member => readable a' (List.mem_cons_of_mem _ member))
        (fun a' member => means a' (List.mem_cons_of_mem _ member)) _ _ first c plain
      intro left
      apply outside
      refine ⟨left.1.1, ?_⟩
      intro ⟨a', listed, here⟩
      cases List.mem_cons.mp listed with
      | inl head => exact left.1.2 (head ▸ here)
      | inr tail => exact left.2 ⟨a', tail, here⟩
  exact stored s.mRegistersMap but coherent

theorem received_eq {addresses : List UInt16} (small : ∀ a ∈ addresses, a < 0x8000) :
    s.received addresses = addresses.map s.chip.read := by
  apply List.map_congr_left
  intro a member
  exact wordData_answerWord (small a member)

theorem CoherentBut.spiReadBatch (coherent : s.CoherentBut but) {addresses : List UInt16}
    (readable : ∀ a ∈ addresses, s.Readable but a) :
    (s.spiReadBatch addresses 0).2.2.CoherentBut (but \ meant s.mRegistersMap.mac addresses) ∧
      (s.spiReadBatch addresses 0).2.2.chip = s.chip ∧
      (s.spiReadBatch addresses 0).2.1 = addresses.map s.chip.read := by
  have values : s.received addresses = addresses.map s.chip.read :=
    received_eq fun a member => (readable a member).small
  have pairs : addresses.zip (addresses.map s.chip.read) =
      addresses.map fun a => (a, s.chip.read a) := by
    have mapped : (addresses.map id).zip (addresses.map s.chip.read) =
        addresses.map fun a => (a, s.chip.read a) := List.zip_map'
    rwa [List.map_id] at mapped
  have after := coherent.refresh readable
  rw [← pairs, ← values] at after
  exact ⟨after, rfl, values⟩

theorem spiReadBatch_failed {transfer : Int} (failed : transfer ≠ 0) (addresses : List UInt16) :
    s.spiReadBatch addresses transfer = (transfer, [], s) := by
  rw [LMS7002M.spiReadBatch, if_pos failed]

/-- The cell that a read of the cache looks at. -/
def consulted (mac address : UInt16) : Cell :=
  if ¬ address < 0x0100 ∧ mac = 2 then (.b, address) else (.a, address)

theorem CoherentBut.cached (coherent : s.CoherentBut but)
    (settled : macCell ∉ but ∨ address < 0x0100) (plain : Plain address)
    (known : consulted s.mRegistersMap.mac address ∉ but) :
    s.cached address = s.chip.read address := by
  have same : (¬ address < 0x0100 ∧ s.mRegistersMap.mac = 2) ↔
      (¬ address < 0x0100 ∧ s.chip.mac = 2) := by
    cases settled with
    | inl settled => rw [RegistersMap.Mirrors.mac coherent settled]
    | inr low => simp [low]
  rw [LMS7002M.cached, Chip.read]
  unfold consulted at known
  by_cases other : ¬ address < 0x0100 ∧ s.mRegistersMap.mac = 2
  · rw [if_pos other] at known
    simp only [if_pos other, if_pos (same.mp other)]
    exact coherent (.b, address) ⟨plain, fun _ => other.1⟩ known
  · rw [if_neg other] at known
    simp only [if_neg other, if_neg (fun h => other (same.mpr h))]
    exact coherent (.a, address) ⟨plain, fun bank => by cases bank⟩ known

end LMS7002M

end Soapy.Lime
