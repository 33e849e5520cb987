import Soapy.Lime.ActiveChannel
import Soapy.Lime.BulkWrites

/-! # Calibrations behind the driver's back

`FPGA::SetInterfaceFreq`, `Streamer::AlignRxTSP` and `Streamer::RstRxIQGen` write test values to the
chip without the driver, and put back what they have saved. Transfers are done, and those for the
FPGA itself touch no register of the chip.
-/

namespace Soapy.Lime

/-- The connections differ in what `WriteLMS7002MSPI` makes of a word. -/
inductive SpiPort where
  | lms64c
  /-- `ConnectionSPI` sends the word as it is: without the top bit it is a read. -/
  | spi

def plainWord (address data : UInt16) : UInt32 := (address.toUInt32 <<< 16) ||| data.toUInt32

namespace SpiPort

def isWrite (word : UInt32) : Bool := word &&& 0x80000000 ≠ 0

def write (port : SpiPort) (chip : Chip) (words : List UInt32) : Chip :=
  match port with
  | .lms64c => chip.takeWords words
  | .spi => chip.takeWords (words.filter isWrite)

end SpiPort

/-- `ReadLMS7002MSPI` of one register. The value has 16 bits. -/
def Chip.answer (chip : Chip) (address : UInt16) : UInt16 :=
  wordData (chip.answerWord (readWord address))

namespace InterfaceFreq

def spiAddr : List UInt16 :=
  [0x021, 0x022, 0x023, 0x024, 0x027, 0x02A, 0x82, 0x400, 0x40C, 0x40B, 0x400, 0x40B, 0x400]

def bakRegCnt : Nat := spiAddr.length - 4

/-- The registers of the backup. -/
def bakAddr : List UInt16 := spiAddr.take bakRegCnt

/-- Those that have a second bank. -/
def bakAddrB : List UInt16 := bakAddr.filter fun a => ¬ a < 0x100

def rxSpiData (bypassRx : Bool) : List UInt16 :=
  [0x0E9F, 0x0FFF, 0x5550, 0xE4E4, 0xE4E4, if bypassRx then 0xD else 0x0086, 0x8001,
    0x028D, 0x00FF, 0x5555, 0x02CD, 0xAAAA, 0x02ED]

def txSpiData (bypassTx bypassRx : Bool) : List UInt16 :=
  [0x0E9F, 0x0FFF, 0x5550, 0xE4E4, 0xE4E4,
    0x0484 ^^^ (if bypassTx then 0x80 else 0) ^^^ (if bypassRx then 0x9 else 0), 0x8001]

/-- The arguments, the first three registers of the FPGA, and what the calls for its PLLs return:
    each attempt of the two searches, or all of them together without a search. -/
structure Call where
  fastRates : Bool
  vals : Fin 3 → UInt32
  rxAttempt : Nat → Int
  txAttempt : Nat → Int
  direct : Int

namespace Call

/-- `phaseSearch`, where `fastRates` stands for both rates being at least 5 MHz. -/
def searches (call : Call) : Bool :=
  let id := call.vals 0
  let version := (call.vals 1 <<< 8) ||| call.vals 2
  call.fastRates && ((id == 0xE && version > 0x20E) || (id == 0xF && version > 0x206) ||
    (id == 0x10 && version > 0x102) || id == 0x17)

def found (attempt : Nat → Int) : Bool := (List.range 10).any fun i => attempt i == 0

def search (call : Call) (port : SpiPort) (chip : Chip) : Int × Chip :=
  let reg20 := chip.answer macAddress
  let chip := port.write chip [writeWord macAddress 0xFFFD]
  let dataRdA := bakAddr.map chip.answer
  let val := chip.answer 0x02A
  let bypassTx := val &&& 0xF0 == 0x00
  let bypassRx := val &&& 0x0F == 0x0D
  let chip := port.write chip [writeWord macAddress 0xFFFE]
  let dataRdB := bakAddrB.map chip.answer
  let chip := port.write chip [writeWord macAddress 0xFFFF]
  let chip := port.write chip (List.zipWith writeWord spiAddr (rxSpiData bypassRx))
  let rxStatus := if found call.rxAttempt then 0 else -1
  let chip := port.write chip (List.zipWith writeWord spiAddr (txSpiData bypassTx bypassRx))
  let status := if found call.txAttempt then rxStatus else -1
  -- restore registers
  let chip := port.write chip [writeWord macAddress 0xFFFD]
  let chip := port.write chip (List.zipWith writeWord bakAddr dataRdA)
  let chip := port.write chip [writeWord macAddress 0xFFFE]
  let chip := port.write chip (List.zipWith writeWord bakAddrB dataRdB)
  (status, port.write chip [writeWord macAddress reg20])

/-- Without the search the other `SetInterfaceFreq` selects bank A and leaves it so. -/
def setInterfaceFreq (call : Call) (port : SpiPort) (chip : Chip) : Int × Chip :=
  if call.searches then call.search port chip
  else (call.direct, port.write chip [writeWord macAddress 0xFFFD])

end Call

end InterfaceFreq

namespace Streamer

def rstRxIQGen (port : SpiPort) (chip : Chip) : Chip :=
  let reg20 := chip.answer macAddress
  let reg10C := chip.answer 0x010C
  let chip := port.write chip [writeWord macAddress 0xFFFD]
  let reg11C := chip.answer 0x011C
  port.write chip
    [writeWord macAddress 0xFFFD, writeWord 0x011C (reg11C ||| 0x10), writeWord macAddress 0xFFFF,
      writeWord 0x0124 0x001F, writeWord 0x010C (reg10C ||| 0x8), writeWord 0x010C reg10C,
      writeWord macAddress 0xFFFD, writeWord 0x011C reg11C, writeWord macAddress reg20]

inductive Turn where
  | notReceived
  | aligned
  | again

def alignTurns (port : SpiPort) (turn : Nat → Turn) : Nat → Nat → Chip → Chip
  | 0, _, chip => chip
  | n + 1, i, chip =>
    let chip := port.write chip [writeWord macAddress 0x55FE, writeWord macAddress 0xFFFD]
    match turn i with
    | .notReceived | .aligned => chip
    | .again => alignTurns port turn n (i + 1) chip

/-- The words of the backup and of the restore do not have the top bit. -/
def alignRxTSP (port : SpiPort) (turn : Nat → Turn) (chip : Chip) : Chip :=
  let reg20 := chip.answer macAddress
  let chip := port.write chip [plainWord macAddress 0xFFFD]
  let regsA (a : UInt16) : UInt16 := chip.answer a
  let chip := port.write chip [plainWord macAddress 0xFFFE]
  let regsB (a : UInt16) : UInt16 := chip.answer a
  let chip := port.write chip
    [writeWord macAddress 0xFFFF, writeWord 0x0400 0x8085, writeWord 0x040C 0x01FF]
  let chip := alignTurns port turn 100 0 chip
  port.write chip
    [plainWord macAddress 0xFFFD, plainWord 0x0400 (regsA 0x0400), plainWord 0x040C (regsA 0x040C),
      plainWord macAddress 0xFFFE, plainWord 0x0400 (regsB 0x0400), plainWord 0x040C (regsB 0x040C),
      plainWord macAddress reg20]

end Streamer

theorem isWrite_writeWord (address data : UInt16) :
    SpiPort.isWrite (writeWord address data) = true := by
  unfold SpiPort.isWrite
  rw [decide_eq_true_eq]
  intro none
  have top := congrArg (fun word : UInt32 => word.toBitVec.getLsbD 31) none
  simp [writeWord] at top

theorem isWrite_plainWord {address : UInt16} (small : address < 0x8000) (data : UInt16) :
    SpiPort.isWrite (plainWord address data) = false := by
  unfold SpiPort.isWrite plainWord
  rw [decide_eq_false_iff_not, not_not]
  apply UInt32.toBitVec_inj.mp
  have top := top_bit small
  ext i inside
  simp
  interval_cases i <;> simp [top]

theorem wordAddress_plainWord {address : UInt16} (data : UInt16) (small : address < 0x8000) :
    wordAddress (plainWord address data) = address := by
  unfold wordAddress plainWord
  apply UInt16.toBitVec_inj.mp
  have top := top_bit small
  ext i inside
  simp
  interval_cases i <;> simp [top]

theorem wordData_plainWord (address data : UInt16) : wordData (plainWord address data) = data := by
  unfold wordData plainWord
  apply UInt16.toBitVec_inj.mp
  ext i inside
  simp

namespace SpiPort

variable {chip : Chip} {writes : List (UInt16 × UInt16)}

theorem write_writeWords (port : SpiPort) (small : ∀ w ∈ writes, w.1 < 0x8000) :
    port.write chip (writes.map fun w => writeWord w.1 w.2) = chip.writeAll writes := by
  have all : (writes.map fun w => writeWord w.1 w.2).filter isWrite =
      writes.map fun w => writeWord w.1 w.2 := by
    rw [List.filter_eq_self]
    intro word member
    obtain ⟨w, _, rfl⟩ := List.mem_map.mp member
    exact isWrite_writeWord w.1 w.2
  cases port with
  | lms64c => exact LMS7002M.takeWords_writes chip small
  | spi =>
    unfold SpiPort.write
    rw [all]
    exact LMS7002M.takeWords_writes chip small

theorem write_plainWords (port : SpiPort) (small : ∀ w ∈ writes, w.1 < 0x8000) :
    port.write chip (writes.map fun w => plainWord w.1 w.2) =
      match port with
      | .lms64c => chip.writeAll writes
      | .spi => chip := by
  cases port with
  | lms64c =>
    unfold SpiPort.write Chip.takeWords Chip.writeAll
    induction writes generalizing chip with
    | nil => rfl
    | cons w rest ih =>
      rw [List.forall_mem_cons] at small
      rw [List.map_cons, List.foldl_cons, List.foldl_cons, wordAddress_plainWord _ small.1,
        wordData_plainWord]
      exact ih small.2
  | spi =>
    have none : (writes.map fun w => plainWord w.1 w.2).filter isWrite = [] := by
      rw [List.filter_eq_nil_iff]
      intro word member
      obtain ⟨w, listed, rfl⟩ := List.mem_map.mp member
      rw [isWrite_plainWord (small w listed)]
      exact Bool.false_ne_true
    unfold SpiPort.write
    simp only [none]
    rfl

theorem write_zip (port : SpiPort) (chip : Chip) {addrs : List UInt16} (data : List UInt16)
    (small : ∀ a ∈ addrs, a < 0x8000) :
    port.write chip (List.zipWith writeWord addrs data) = chip.writeAll (addrs.zip data) := by
  have pairs : List.zipWith writeWord addrs data =
      (addrs.zip data).map fun w => writeWord w.1 w.2 := by
    rw [List.zip, List.map_zipWith]
  rw [pairs]
  apply port.write_writeWords
  intro w member
  exact small w.1 (List.of_mem_zip member).1

theorem write_one (port : SpiPort) (chip : Chip) {address : UInt16} (data : UInt16)
    (small : address < 0x8000) :
    port.write chip [writeWord address data] = chip.write address data := by
  have one := @write_writeWords chip [(address, data)] port (by simpa using small)
  exact one

end SpiPort

namespace Chip

variable {chip : Chip} {address : UInt16}

theorem answer_eq (small : address < 0x8000) : chip.answer address = chip.read address :=
  wordData_answerWord small

theorem read_bankA (mac : chip.mac = 1) : chip.read address = chip.cell (.a, address) :=
  if_neg fun both => absurd (mac.symm.trans both.2) (by decide)

theorem read_bankB (mac : chip.mac = 2) (high : ¬ address < 0x0100) :
    chip.read address = chip.cell (.b, address) := if_pos ⟨high, mac⟩

theorem answer_mac (chip : Chip) : chip.answer macAddress = chip.cell macCell := by
  rw [answer_eq (by decide)]
  exact if_neg fun both => both.1 (by decide)

theorem answer_bankA (small : address < 0x8000) (other : (.a, address) ≠ macCell) :
    (chip.write macAddress 0xFFFD).answer address = chip.cell (.a, address) := by
  obtain ⟨mac, _, keeps⟩ := chip.write_mac 0xFFFD
  rw [answer_eq small, read_bankA mac, keeps _ other]

theorem answer_bankB (small : address < 0x8000) (high : ¬ address < 0x0100) :
    ((chip.write macAddress 0xFFFD).write macAddress 0xFFFE).answer address =
      chip.cell (.b, address) := by
  have other : ((.b, address) : Cell) ≠ macCell := nofun
  obtain ⟨_, _, keepsA⟩ := chip.write_mac 0xFFFD
  obtain ⟨mac, _, keepsB⟩ := (chip.write macAddress 0xFFFD).write_mac 0xFFFE
  rw [answer_eq small, read_bankB mac high, keepsB _ other, keepsA _ other]

theorem write_back (d chip : Chip) (c : Cell) :
    (d.write macAddress (chip.answer macAddress)).cell c =
      if c = macCell then chip.cell macCell else d.cell c := by
  obtain ⟨_, back, keeps⟩ := d.write_mac (chip.answer macAddress)
  by_cases here : c = macCell
  · rw [if_pos here, here, back, answer_mac]
  · rw [if_neg here, keeps c here]

end Chip

namespace InterfaceFreq

variable {chip : Chip}

theorem spiAddr_small : ∀ a ∈ spiAddr, a < 0x8000 := by simp [spiAddr]

theorem bakAddr_small : ∀ a ∈ bakAddr, a < 0x8000 :=
  fun a member => spiAddr_small a (List.mem_of_mem_take member)

theorem bakAddrB_high : ∀ a ∈ bakAddrB, ¬ a < 0x0100 ∧ a < 0x8000 := by
  intro a member
  obtain ⟨listed, high⟩ := List.mem_filter.mp member
  exact ⟨of_decide_eq_true high, bakAddr_small a listed⟩

theorem mem_bakAddr {a : UInt16} (listed : a ∈ spiAddr) (other : a ≠ 0x40B) : a ∈ bakAddr := by
  simp [spiAddr, bakAddr, bakRegCnt] at listed ⊢
  grind

theorem lost_not_mem : (0x40B : UInt16) ∉ bakAddr := by simp [spiAddr, bakAddr, bakRegCnt]

theorem test_cells (mac : chip.mac = 3) (bypassTx bypassRx : Bool) (c : Cell) :
    let tested := (chip.writeAll (spiAddr.zip (rxSpiData bypassRx))).writeAll
      (spiAddr.zip (txSpiData bypassTx bypassRx))
    (c.2 ∉ spiAddr → tested.cell c = chip.cell c) ∧ (c.2 = 0x40B → tested.cell c = 0xAAAA) := by
  have listed {data : List UInt16} (out : c.2 ∉ spiAddr) : ∀ w ∈ spiAddr.zip data, w.1 ≠ c.2 :=
    fun w member here => out (here ▸ (List.of_mem_zip member).1)
  constructor
  · intro out
    rw [Chip.writeAll_outside (listed out), Chip.writeAll_outside (listed out)]
  · intro here
    have rx : spiAddr.zip (rxSpiData bypassRx) =
        (spiAddr.take 11).zip ((rxSpiData bypassRx).take 11) ++
          (0x40B, 0xAAAA) :: [(0x400, 0x02ED)] := by
      cases bypassRx <;> rfl
    have tx : ∀ w ∈ spiAddr.zip (txSpiData bypassTx bypassRx), w.1 ≠ c.2 := by
      rw [here]
      simp [spiAddr, txSpiData]
    have before : ∀ w ∈ (spiAddr.take 11).zip ((rxSpiData bypassRx).take 11), w.1 ≠ macAddress := by
      simp [spiAddr, rxSpiData, macAddress]
    obtain ⟨bank, a⟩ := c
    change a = 0x40B at here
    subst here
    rw [Chip.writeAll_outside tx, rx]
    exact Chip.writeAll_both mac before (by simp) (by decide) bank

theorem search_eq (call : Call) (port : SpiPort) (chip : Chip) :
    ∃ bypassTx bypassRx,
      let c₁ := chip.write macAddress 0xFFFD
      let c₂ := c₁.write macAddress 0xFFFE
      let c₃ := c₂.write macAddress 0xFFFF
      let tested := (c₃.writeAll (spiAddr.zip (rxSpiData bypassRx))).writeAll
        (spiAddr.zip (txSpiData bypassTx bypassRx))
      let restoredA := (tested.write macAddress 0xFFFD).writeAll
        (bakAddr.map fun a => (a, c₁.answer a))
      let restoredB := (restoredA.write macAddress 0xFFFE).writeAll
        (bakAddrB.map fun a => (a, c₂.answer a))
      (call.search port chip).2 = restoredB.write macAddress (chip.answer macAddress) := by
  have mac : macAddress < 0x8000 := by decide
  have bakAddrB_small : ∀ a ∈ bakAddrB, a < 0x8000 := fun a member => (bakAddrB_high a member).2
  have saved (addrs : List UInt16) (c : Chip) :
      addrs.zip (addrs.map c.answer) = addrs.map fun a => (a, c.answer a) := by
    have mapped := List.zip_map' (f := id) (g := c.answer) (l := addrs)
    rwa [List.map_id] at mapped
  let val := (chip.write macAddress 0xFFFD).answer 0x02A
  refine ⟨val &&& 0xF0 == 0x00, val &&& 0x0F == 0x0D, ?_⟩
  simp only [Call.search, SpiPort.write_one port _ _ mac, SpiPort.write_zip port _ _ spiAddr_small,
    SpiPort.write_zip port _ _ bakAddr_small, SpiPort.write_zip port _ _ bakAddrB_small, saved]
  rfl

theorem search_cell (call : Call) (port : SpiPort) (chip : Chip) (c : Cell) :
    (call.search port chip).2.cell c = if c.2 = 0x40B then 0xAAAA else chip.cell c := by
  obtain ⟨bypassTx, bypassRx, final⟩ := search_eq call port chip
  let c₁ := chip.write macAddress 0xFFFD
  let c₂ := c₁.write macAddress 0xFFFE
  let c₃ := c₂.write macAddress 0xFFFF
  let tested := (c₃.writeAll (spiAddr.zip (rxSpiData bypassRx))).writeAll
    (spiAddr.zip (txSpiData bypassTx bypassRx))
  let c₆ := tested.write macAddress 0xFFFD
  let c₇ := c₆.writeAll (bakAddr.map fun a => (a, c₁.answer a))
  let c₈ := c₇.write macAddress 0xFFFE
  let c₉ := c₈.writeAll (bakAddrB.map fun a => (a, c₂.answer a))
  change (call.search port chip).2 = c₉.write macAddress (chip.answer macAddress) at final
  obtain ⟨_, _, keeps₁⟩ := chip.write_mac 0xFFFD
  obtain ⟨_, _, keeps₂⟩ := c₁.write_mac 0xFFFE
  obtain ⟨mac₃, _, keeps₃⟩ := c₂.write_mac 0xFFFF
  obtain ⟨mac₆, _, keeps₆⟩ := tested.write_mac 0xFFFD
  obtain ⟨mac₈, _, keeps₈⟩ := c₇.write_mac 0xFFFE
  rw [final, Chip.write_back]
  by_cases here : c = macCell
  · rw [if_pos here, here, if_neg (by decide)]
  · rw [if_neg here]
    have saved : c₃.cell c = chip.cell c := by rw [keeps₃ c here, keeps₂ c here, keeps₁ c here]
    obtain ⟨outside, test⟩ := test_cells mac₃ bypassTx bypassRx c
    have behind : c₉.cell c = if c.1 = .b ∧ c.2 ∈ bakAddrB then c₂.answer c.2 else c₈.cell c :=
      Chip.writeAll_bankB (fun a member => (bakAddrB_high a member).1) mac₈ c
    have before : c₇.cell c = if c.1 = .a ∧ c.2 ∈ bakAddr then c₁.answer c.2 else c₆.cell c :=
      Chip.writeAll_bankA (by decide) (fun member => absurd member (by decide)) (.inl mac₆) c
    rw [behind, keeps₈ c here, before, keeps₆ c here]
    obtain ⟨bank, a⟩ := c
    cases bank with
    | a =>
      simp only [reduceCtorEq, false_and, if_false, true_and]
      by_cases kept : a ∈ bakAddr
      · have other : a ≠ 0x40B := fun same => lost_not_mem (same ▸ kept)
        rw [if_pos kept, if_neg other]
        exact Chip.answer_bankA (bakAddr_small a kept) here
      · rw [if_neg kept]
        by_cases lost : a = 0x40B
        · rw [if_pos lost]
          exact test lost
        · rw [if_neg lost]
          exact (outside fun listed => kept (mem_bakAddr listed lost)).trans saved
    | b =>
      simp only [reduceCtorEq, false_and, if_false, true_and]
      by_cases kept : a ∈ bakAddrB
      · obtain ⟨high, small⟩ := bakAddrB_high a kept
        have other : a ≠ 0x40B := fun same => lost_not_mem (same ▸ (List.mem_filter.mp kept).1)
        rw [if_pos kept, if_neg other]
        exact Chip.answer_bankB small high
      · rw [if_neg kept]
        by_cases lost : a = 0x40B
        · rw [if_pos lost]
          exact test lost
        · rw [if_neg lost]
          by_cases low : a < 0x0100
          · have never : tested.cell (.b, a) = c₃.cell (.b, a) := by
              rw [Chip.writeAll_lowB _ _ low, Chip.writeAll_lowB _ _ low]
            exact never.trans saved
          · have out : a ∉ spiAddr := by
              intro listed
              exact kept (List.mem_filter.mpr ⟨mem_bakAddr listed lost, decide_eq_true low⟩)
            exact (outside out).trans saved

end InterfaceFreq

namespace Streamer

variable {chip : Chip}

theorem rstRxIQGen_cell (port : SpiPort) (chip : Chip) (c : Cell) :
    (rstRxIQGen port chip).cell c =
      if c.2 = 0x010C then chip.read 0x010C else if c.2 = 0x0124 then 0x001F else chip.cell c := by
  let d₀ := chip.write macAddress 0xFFFD
  let reg11C := d₀.answer 0x011C
  let reg10C := chip.answer 0x010C
  let d₁ := d₀.write macAddress 0xFFFD
  let d₂ := d₁.write 0x011C (reg11C ||| 0x10)
  let d₃ := d₂.write macAddress 0xFFFF
  let d₄ := d₃.write 0x0124 0x001F
  let d₅ := d₄.write 0x010C (reg10C ||| 0x8)
  let d₆ := d₅.write 0x010C reg10C
  let d₇ := d₆.write macAddress 0xFFFD
  let d₈ := d₇.write 0x011C reg11C
  have final : rstRxIQGen port chip = d₈.write macAddress (chip.answer macAddress) := by
    have all := @SpiPort.write_writeWords d₀ [(macAddress, 0xFFFD), (0x011C, reg11C ||| 0x10),
      (macAddress, 0xFFFF), (0x0124, 0x001F), (0x010C, reg10C ||| 0x8), (0x010C, reg10C),
      (macAddress, 0xFFFD), (0x011C, reg11C), (macAddress, chip.answer macAddress)] port
      (by simp [macAddress])
    unfold rstRxIQGen
    rw [port.write_one chip _ (by decide)]
    exact all
  obtain ⟨_, _, keeps₀⟩ := chip.write_mac 0xFFFD
  obtain ⟨mac₁, _, keeps₁⟩ := d₀.write_mac 0xFFFD
  obtain ⟨mac₃, _, keeps₃⟩ := d₂.write_mac 0xFFFF
  obtain ⟨mac₇, _, keeps₇⟩ := d₆.write_mac 0xFFFD
  have mac₄ : d₄.mac = 3 := (Chip.write_keepsMac (by decide) d₃ _).trans mac₃
  have mac₅ : d₅.mac = 3 := (Chip.write_keepsMac (by decide) d₄ _).trans mac₄
  rw [final, Chip.write_back]
  by_cases here : c = macCell
  · rw [if_pos here, here, if_neg (by decide), if_neg (by decide)]
  · have saved : reg11C = chip.cell (.a, 0x011C) := Chip.answer_bankA (by decide) (by decide)
    have other : reg10C = chip.read 0x010C := Chip.answer_eq (by decide)
    have start : d₁.cell c = chip.cell c := by rw [keeps₁ c here, keeps₀ c here]
    rw [if_neg here, Chip.write_bankA mac₇, keeps₇ c here, Chip.write_both mac₅ (by decide),
      Chip.write_both mac₄ (by decide), Chip.write_both mac₃ (by decide), keeps₃ c here,
      Chip.write_bankA mac₁, start, saved, other]
    by_cases generator : c.2 = 0x010C
    · have apart : c ≠ (.a, 0x011C) := by
        intro same
        rw [same] at generator
        exact absurd generator (by decide)
      simp [generator, apart]
    · by_cases divider : c = (.a, 0x011C)
      · simp [divider]
      · simp [generator, divider]

theorem alignTurns_cell (port : SpiPort) (turn : Nat → Turn) (n i : Nat) (chip : Chip) :
    (∀ c, c ≠ macCell → (alignTurns port turn n i chip).cell c = chip.cell c) ∧
      (0 < n → (alignTurns port turn n i chip).cell macCell = 0xFFFD) := by
  induction n generalizing i chip with
  | zero => exact ⟨fun _ _ => rfl, nofun⟩
  | succ n ih =>
    let d := (chip.write macAddress 0x55FE).write macAddress 0xFFFD
    have words : port.write chip [writeWord macAddress 0x55FE, writeWord macAddress 0xFFFD] = d :=
      @SpiPort.write_writeWords chip [(macAddress, 0x55FE), (macAddress, 0xFFFD)] port
        (by simp [macAddress])
    obtain ⟨_, _, keeps₁⟩ := chip.write_mac 0x55FE
    obtain ⟨_, back, keeps₂⟩ := (chip.write macAddress 0x55FE).write_mac 0xFFFD
    have keeps (c : Cell) (other : c ≠ macCell) : d.cell c = chip.cell c :=
      (keeps₂ c other).trans (keeps₁ c other)
    simp only [alignTurns, words]
    cases turn i with
    | notReceived => exact ⟨keeps, fun _ => back⟩
    | aligned => exact ⟨keeps, fun _ => back⟩
    | again =>
      obtain ⟨others, mac⟩ := ih (i + 1) d
      refine ⟨fun c other => (others c other).trans (keeps c other), ?_⟩
      intro _
      cases n with
      | zero => exact back
      | succ n => exact mac (Nat.succ_pos n)

theorem aligned_cell (port : SpiPort) (turn : Nat → Turn) (chip : Chip) (c : Cell) :
    (alignTurns port turn 100 0 (port.write chip [writeWord macAddress 0xFFFF,
      writeWord 0x0400 0x8085, writeWord 0x040C 0x01FF])).cell c =
      if c = macCell then 0xFFFD
      else if c.2 = 0x0400 then 0x8085
      else if c.2 = 0x040C then 0x01FF
      else chip.cell c := by
  let d := ((chip.write macAddress 0xFFFF).write 0x0400 0x8085).write 0x040C 0x01FF
  have words : port.write chip [writeWord macAddress 0xFFFF, writeWord 0x0400 0x8085,
      writeWord 0x040C 0x01FF] = d :=
    @SpiPort.write_writeWords chip [(macAddress, 0xFFFF), (0x0400, 0x8085), (0x040C, 0x01FF)] port
      (by simp [macAddress])
  obtain ⟨others, mac⟩ := alignTurns_cell port turn 100 0 d
  obtain ⟨mac₁, _, keeps⟩ := chip.write_mac 0xFFFF
  have mac₂ : ((chip.write macAddress 0xFFFF).write 0x0400 0x8085).mac = 3 :=
    (Chip.write_keepsMac (by decide) _ _).trans mac₁
  rw [words]
  by_cases here : c = macCell
  · rw [if_pos here, here, mac (by decide)]
  · rw [if_neg here, others c here, Chip.write_both mac₂ (by decide),
      Chip.write_both mac₁ (by decide), keeps c here]
    by_cases gain : c.2 = 0x0400
    · simp [gain]
    · simp [gain]

theorem alignRxTSP_lms64c (turn : Nat → Turn) (chip : Chip) (c : Cell) :
    (alignRxTSP .lms64c turn chip).cell c = chip.cell c := by
  let c₁ := chip.write macAddress 0xFFFD
  let c₂ := c₁.write macAddress 0xFFFE
  let found := alignTurns .lms64c turn 100 0 (SpiPort.lms64c.write c₂ [writeWord macAddress 0xFFFF,
    writeWord 0x0400 0x8085, writeWord 0x040C 0x01FF])
  let d₁ := found.write macAddress 0xFFFD
  let d₃ := d₁.writeAll ([0x0400, 0x040C].map fun a => (a, c₁.answer a))
  let d₄ := d₃.write macAddress 0xFFFE
  let d₆ := d₄.writeAll ([0x0400, 0x040C].map fun a => (a, c₂.answer a))
  have one (d : Chip) (v : UInt16) :
      SpiPort.lms64c.write d [plainWord macAddress v] = d.write macAddress v :=
    @SpiPort.write_plainWords d [(macAddress, v)] .lms64c (by simp [macAddress])
  have final : alignRxTSP .lms64c turn chip = d₆.write macAddress (chip.answer macAddress) := by
    unfold alignRxTSP
    simp only [one]
    exact @SpiPort.write_plainWords found [(macAddress, 0xFFFD), (0x0400, c₁.answer 0x0400),
      (0x040C, c₁.answer 0x040C), (macAddress, 0xFFFE), (0x0400, c₂.answer 0x0400),
      (0x040C, c₂.answer 0x040C), (macAddress, chip.answer macAddress)] .lms64c
      (by simp [macAddress])
  obtain ⟨_, _, keeps₁⟩ := chip.write_mac 0xFFFD
  obtain ⟨_, _, keeps₂⟩ := c₁.write_mac 0xFFFE
  obtain ⟨macA, _, keepsA⟩ := found.write_mac 0xFFFD
  obtain ⟨macB, _, keepsB⟩ := d₃.write_mac 0xFFFE
  rw [final, Chip.write_back]
  by_cases here : c = macCell
  · rw [if_pos here, here]
  · have behind : d₆.cell c =
        if c.1 = .b ∧ c.2 ∈ [0x0400, 0x040C] then c₂.answer c.2 else d₄.cell c :=
      Chip.writeAll_bankB (by simp) macB c
    have before : d₃.cell c =
        if c.1 = .a ∧ c.2 ∈ [0x0400, 0x040C] then c₁.answer c.2 else d₁.cell c :=
      Chip.writeAll_bankA (by decide) (fun member => absurd member (by decide)) (.inl macA) c
    have middle : found.cell c = _ := aligned_cell .lms64c turn c₂ c
    have start : c₂.cell c = chip.cell c := (keeps₂ c here).trans (keeps₁ c here)
    rw [if_neg here, behind, keepsB c here, before, keepsA c here, middle, start, if_neg here]
    obtain ⟨bank, a⟩ := c
    have answers (small : a < 0x8000) (high : ¬ a < 0x0100) :
        c₁.answer a = chip.cell (.a, a) ∧ c₂.answer a = chip.cell (.b, a) := by
      have apart : ((.a, a) : Cell) ≠ macCell := by
        intro same
        have address : a = macAddress := congrArg Prod.snd same
        exact high (address ▸ by decide)
      exact ⟨Chip.answer_bankA small apart, Chip.answer_bankB small high⟩
    by_cases first : a = 0x0400
    · subst first
      obtain ⟨valueA, valueB⟩ := answers (by decide) (by decide)
      cases bank <;> simp [valueA, valueB]
    · by_cases second : a = 0x040C
      · subst second
        obtain ⟨valueA, valueB⟩ := answers (by decide) (by decide)
        cases bank <;> simp [valueA, valueB]
      · simp [first, second]

theorem alignRxTSP_spi (turn : Nat → Turn) (chip : Chip) (c : Cell) :
    (alignRxTSP .spi turn chip).cell c =
      if c = macCell then 0xFFFD
      else if c.2 = 0x0400 then 0x8085
      else if c.2 = 0x040C then 0x01FF
      else chip.cell c := by
  have one (d : Chip) (v : UInt16) : SpiPort.spi.write d [plainWord macAddress v] = d :=
    @SpiPort.write_plainWords d [(macAddress, v)] .spi (by simp [macAddress])
  have restore (d : Chip) (a₄ a₁₂ b₄ b₁₂ reg20 : UInt16) :
      SpiPort.spi.write d [plainWord macAddress 0xFFFD, plainWord 0x0400 a₄, plainWord 0x040C a₁₂,
        plainWord macAddress 0xFFFE, plainWord 0x0400 b₄, plainWord 0x040C b₁₂,
        plainWord macAddress reg20] = d :=
    @SpiPort.write_plainWords d [(macAddress, 0xFFFD), (0x0400, a₄), (0x040C, a₁₂),
      (macAddress, 0xFFFE), (0x0400, b₄), (0x040C, b₁₂), (macAddress, reg20)] .spi
      (by simp [macAddress])
  unfold alignRxTSP
  simp only [one, restore]
  exact aligned_cell .spi turn chip c

end Streamer

theorem InterfaceFreq.search_same (call : InterfaceFreq.Call) (port : SpiPort) (chip : Chip) :
    (call.search port chip).2 = chip ↔ ∀ bank, chip.cell (bank, 0x040B) = 0xAAAA := by
  constructor
  · intro same bank
    have cell := search_cell call port chip (bank, 0x040B)
    rwa [same, if_pos rfl] at cell
  · intro test
    apply Chip.ext_cell
    intro c
    rw [search_cell]
    obtain ⟨bank, a⟩ := c
    by_cases lost : a = 0x040B
    · subst lost
      rw [if_pos rfl, test bank]
    · rw [if_neg lost]

theorem Streamer.rstRxIQGen_same (port : SpiPort) (chip : Chip) :
    rstRxIQGen port chip = chip ↔
      (∀ bank, chip.cell (bank, 0x0124) = 0x001F) ∧
        chip.cell (.a, 0x010C) = chip.cell (.b, 0x010C) := by
  have cell := rstRxIQGen_cell port chip
  constructor
  · intro same
    rw [same] at cell
    have generator (bank : Bank) : chip.cell (bank, 0x010C) = chip.read 0x010C :=
      (cell (bank, 0x010C)).trans (if_pos rfl)
    refine ⟨?_, (generator .a).trans (generator .b).symm⟩
    intro bank
    have divider := cell (bank, 0x0124)
    rwa [if_neg (by simp), if_pos rfl] at divider
  · rintro ⟨control, alike⟩
    have read : chip.read 0x010C = chip.cell (.a, 0x010C) := by
      unfold Chip.read
      split
      · exact alike.symm
      · rfl
    apply Chip.ext_cell
    intro c
    rw [cell]
    obtain ⟨bank, a⟩ := c
    by_cases generator : a = 0x010C
    · subst generator
      rw [if_pos rfl, read]
      cases bank with
      | a => rfl
      | b => exact alike
    · rw [if_neg generator]
      by_cases direct : a = 0x0124
      · subst direct
        rw [if_pos rfl, control bank]
      · rw [if_neg direct]

theorem Streamer.alignRxTSP_same (port : SpiPort) (turn : Nat → Turn) (chip : Chip) :
    alignRxTSP port turn chip = chip ↔
      port = .lms64c ∨ chip.cell macCell = 0xFFFD ∧
        ∀ bank, chip.cell (bank, 0x0400) = 0x8085 ∧ chip.cell (bank, 0x040C) = 0x01FF := by
  cases port with
  | lms64c => exact ⟨fun _ => .inl rfl, fun _ => Chip.ext_cell (alignRxTSP_lms64c turn chip)⟩
  | spi =>
    have cell := alignRxTSP_spi turn chip
    constructor
    · intro same
      rw [same] at cell
      refine .inr ⟨(cell macCell).trans (if_pos rfl), ?_⟩
      intro bank
      have first := cell (bank, 0x0400)
      have second := cell (bank, 0x040C)
      have apart : ((bank, 0x0400) : Cell) ≠ macCell ∧ ((bank, 0x040C) : Cell) ≠ macCell := by
        cases bank <;> decide
      rw [if_neg apart.1, if_pos rfl] at first
      rw [if_neg apart.2, if_neg (by simp), if_pos rfl] at second
      exact ⟨first, second⟩
    · intro test
      obtain ⟨mac, values⟩ := test.resolve_left nofun
      apply Chip.ext_cell
      intro c
      rw [cell]
      by_cases here : c = macCell
      · rw [if_pos here, here, mac]
      · rw [if_neg here]
        obtain ⟨bank, a⟩ := c
        by_cases first : a = 0x0400
        · subst first
          rw [if_pos rfl, (values bank).1]
        · rw [if_neg first]
          by_cases second : a = 0x040C
          · subst second
            rw [if_pos rfl, (values bank).2]
          · rw [if_neg second]

/-- Each of the calls leaves the chip as it was exactly when the registers that it does not put back
    had the test values before. -/
theorem calibration_leaves_chip {call : InterfaceFreq.Call} (searches : call.searches = true)
    (port : SpiPort) (turn : Nat → Streamer.Turn) (chip : Chip) :
    ((call.setInterfaceFreq port chip).2 = chip ↔
      ∀ bank, chip.cell (bank, 0x040B) = 0xAAAA) ∧
    (Streamer.alignRxTSP port turn chip = chip ↔
      port = .lms64c ∨ chip.cell macCell = 0xFFFD ∧
        ∀ bank, chip.cell (bank, 0x0400) = 0x8085 ∧ chip.cell (bank, 0x040C) = 0x01FF) ∧
    (Streamer.rstRxIQGen port chip = chip ↔
      (∀ bank, chip.cell (bank, 0x0124) = 0x001F) ∧
        chip.cell (.a, 0x010C) = chip.cell (.b, 0x010C)) := by
  refine ⟨?_, Streamer.alignRxTSP_same port turn chip, Streamer.rstRxIQGen_same port chip⟩
  rw [InterfaceFreq.Call.setInterfaceFreq, if_pos searches]
  exact InterfaceFreq.search_same call port chip

/-- A board with the search, on which the third attempt for the receiver succeeds. -/
def thirdAttempt : InterfaceFreq.Call where
  fastRates := true
  vals i := if i = 0 then 0x17 else 0
  rxAttempt i := if i = 2 then 0 else -1
  txAttempt _ := 0
  direct := 0

def blankChip : Chip := ⟨fun _ => 0, fun _ => 0⟩

theorem calibration_leaves_chip_aligned :
    thirdAttempt.searches = true ∧
      Streamer.alignRxTSP .lms64c (fun _ => .again) blankChip = blankChip :=
  ⟨by decide, (calibration_leaves_chip (by decide : thirdAttempt.searches = true) .lms64c
    (fun _ => .again) blankChip).2.1.mpr (.inl rfl)⟩

theorem calibration_changes_chip :
    thirdAttempt.searches = true ∧
      blankChip.cell (.a, 0x040B) = 0 ∧
      (thirdAttempt.setInterfaceFreq .lms64c blankChip).2.cell (.a, 0x040B) = 0xAAAA ∧
      blankChip.cell (.b, 0x0124) = 0 ∧
      (Streamer.rstRxIQGen .lms64c blankChip).cell (.b, 0x0124) = 0x001F ∧
      blankChip.cell macCell = 0 ∧
      (Streamer.alignRxTSP .spi (fun _ => .aligned) blankChip).cell macCell = 0xFFFD := by
  decide +kernel

end Soapy.Lime
